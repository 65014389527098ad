import LaunchFile.Node
import LaunchFile.Proofs.GraphName.WellFormed
import LaunchFile.Proofs.Reading

/-!
# Proofs/Entering — what declarations and entered elements make of a scope

What a remapping, a group, a node or an include makes of the scope around it, once it was read: the
names that it used were accepted, and what it asks to clear is the namespace or the node that it
leads to.
-/

namespace LaunchFile

variable {look : Lookups} {scope : Scope} {e : Element}

/-- The names of a `<remap>` are what its attributes resolve to. -/
theorem resolves_of_readPair {source target : String}
    (h : Yields (readPair look scope e) (source, target)) :
    e.Resolves look scope "from" source ∧ e.Resolves look scope "to" target := by
  obtain ⟨a, hread, h⟩ := h.of_bind
  obtain ⟨source, hsource, h⟩ := h.of_bind
  obtain ⟨target, htarget, h⟩ := h.of_bind
  obtain ⟨_, _, h⟩ := h.of_bind
  obtain ⟨_, _, h⟩ := h.of_bind
  cases h.eq_of_pure
  have hattrs := Attributes.read_of_yields hread
  exact ⟨Attributes.resolves_of_text hattrs (by decide) hsource,
    Attributes.resolves_of_text hattrs (by decide) htarget⟩

theorem exists_of_readRemap {behind : Scope} (h : Yields (readRemap look scope e) behind) :
    ∃ source target, GraphName.check false source = .ok () ∧
      GraphName.check false target = .ok () ∧ behind = scope.addRemap source target := by
  obtain ⟨pair, h, hbehind⟩ := h.of_bind
  obtain ⟨a, _, h⟩ := h.of_bind
  obtain ⟨source, _, h⟩ := h.of_bind
  obtain ⟨target, _, h⟩ := h.of_bind
  obtain ⟨_, hsource, h⟩ := h.of_bind
  obtain ⟨_, htarget, h⟩ := h.of_bind
  obtain rfl := h.eq_of_pure
  exact ⟨source, target, Result.eq_ok_of_ofName hsource.eq_ok,
    Result.eq_ok_of_ofName htarget.eq_ok, hbehind.eq_of_pure.symm⟩

theorem exists_of_readArg {behind : Scope} (h : Yields (readArg look scope e) behind) :
    ∃ name binding, scope.bind name binding = .ok behind := by
  obtain ⟨values, _, h⟩ := h.of_bind
  obtain ⟨_, _, h⟩ := h.of_bind
  obtain ⟨others, _, h⟩ := h.of_bind
  obtain ⟨name, _, h⟩ := h.of_bind
  obtain ⟨given, _, h⟩ := h.of_bind
  obtain ⟨doc, _, h⟩ := h.of_bind
  exact ⟨name, _, h.eq_ok⟩

theorem exists_of_readGroup {inner : Scope} {clear : Option RosparamCommand}
    (h : Yields (readGroup look scope e) (inner, clear)) :
    ∃ ns, scope.enterNs ns = .ok inner ∧
      ∀ command ∈ clear, command = .clear inner.ns e.location := by
  obtain ⟨a, _, h⟩ := h.of_bind
  obtain ⟨ns, _, hinner, hclear⟩ := Attributes.enterNs_of_enterCleared h
  exact ⟨ns, hinner, hclear⟩

theorem IncludeHead.exists_of_read {head : IncludeHead}
    (h : Yields (IncludeHead.read look scope e) head) :
    ∃ ns, scope.enterNs ns = .ok head.scope ∧
      ∀ command ∈ head.clear, command = .clear head.scope.ns e.location := by
  obtain ⟨a, _, h⟩ := h.of_bind
  obtain ⟨reference, _, h⟩ := h.of_bind
  obtain ⟨⟨inner, clear⟩, hinner, h⟩ := h.of_bind
  obtain ⟨passesAll, _, h⟩ := h.of_bind
  obtain ⟨ns, _, hentered, hclear⟩ := Attributes.enterNs_of_enterCleared hinner
  cases h.eq_of_pure
  exact ⟨ns, hentered, hclear⟩

theorem exists_of_readSetting {w : World} {setting : String × ParamValue}
    (h : Yields (readSetting w scope e) setting) :
    ∃ name, e.Resolves w.look scope "name" name ∧ GraphName.check false name = .ok () ∧
      setting.1 = scope.resolveParamName name := by
  obtain ⟨source, _, h⟩ := h.of_bind
  obtain ⟨a, hread, h⟩ := h.of_bind
  obtain ⟨name, hname, h⟩ := h.of_bind
  obtain ⟨_, hcheck, h⟩ := h.of_bind
  obtain ⟨given, _, h⟩ := h.of_bind
  obtain ⟨type, _, h⟩ := h.of_bind
  obtain ⟨text, _, h⟩ := h.of_bind
  obtain ⟨value, _, h⟩ := h.of_bind
  exact ⟨name, Attributes.resolves_of_text (Attributes.read_of_yields hread) (by simp) hname,
    Result.eq_ok_of_ofName hcheck.eq_ok, congrArg Prod.fst h.eq_of_pure.symm⟩

namespace NodeSpec

theorem checkBase_of_readName {a : Attributes} {kind : NodeKind} {name : String}
    (h : Yields (readName look scope a kind) name) : GraphName.checkBase name = .ok () := by
  have hchecked : ∀ own, Yields (do
      let _ ← liftM (Result.ofName own (GraphName.checkBase own))
      return own : LaunchM String) name → GraphName.checkBase name = .ok () := by
    intro own hown
    obtain ⟨_, hcheck, hown⟩ := hown.of_bind
    rw [← hown.eq_of_pure]
    exact Result.eq_ok_of_ofName hcheck.eq_ok
  rw [readName] at h
  obtain ⟨found, _, h⟩ := h.of_bind
  cases found with
  | some own => exact hchecked own h
  | none =>
    cases kind with
    | node => exact hchecked "" h
    | test testName => exact hchecked testName h

/-- A node before its children: where it is, what it is called, and what it asks to clear. -/
structure Entered.IsOf (scope : Scope) (node : Entered) : Prop where
  exists_around : ∃ ns around name, scope.enterNs ns = .ok around ∧
    GraphName.checkBase name = .ok () ∧ node.spec.ns = around.ns ∧
    node.spec.name = around.resolveName name ∧ node.scope = around.enterNode node.spec.name
  clear : ∀ command ∈ node.clear, command = .clear node.spec.name node.spec.location

/-- The machine of a node, given the ones that are known: the one that it names, if it does. -/
def Entered.RunsOn (known : List MachineSpec) (scope : Scope) (e : Element) (node : Entered) :
    Prop :=
  ∃ given, machineOf known scope given = .ok node.spec.machine ∧
    (e.attr? "machine" = none → given = none)

/-- A machine that a node may run on is the local one or a known one, unless it is the default. -/
theorem Entered.RunsOn.cases {known : List MachineSpec} {node : Entered}
    (h : node.RunsOn known scope e) : node.spec.machine = scope.machine ∨
      e.attr? "machine" ≠ none ∧ (node.spec.machine = localMachine ∨
        ∃ entry ∈ known, entry.name = node.spec.machine) := by
  obtain ⟨given, hmachine, hgiven⟩ := h
  cases given with
  | none => exact .inl (Except.ok.inj hmachine).symm
  | some name =>
    refine .inr ⟨fun hnone => (nomatch hgiven hnone), ?_⟩
    rw [machineOf] at hmachine
    split at hmachine
    · rename_i hknown
      rw [← Except.ok.inj hmachine]
      rcases Bool.or_eq_true_iff.1 hknown with hlocal | hfound
      · exact .inl (eq_of_beq hlocal)
      · obtain ⟨entry, hentry⟩ := Option.isSome_iff_exists.1 hfound
        rw [MachineSpec.find?] at hentry
        have hname := List.find?_some hentry
        exact .inr ⟨entry, List.mem_of_find?_eq_some hentry, eq_of_beq hname⟩
    · cases hmachine

theorem isOf_and_runsOn_of_read {known : List MachineSpec} {isTest : Bool} {node : Entered}
    (h : Yields (read look known scope isTest e) node) :
    node.IsOf scope ∧ node.RunsOn known scope e := by
  obtain ⟨a, hattrs, h⟩ := h.of_bind
  obtain ⟨kind, _, h⟩ := h.of_bind
  obtain ⟨name, hname, h⟩ := h.of_bind
  obtain ⟨ns, _, h⟩ := h.of_bind
  obtain ⟨around, haround, h⟩ := h.of_bind
  obtain ⟨given, hgiven, h⟩ := h.of_bind
  obtain ⟨machine, hmachine, h⟩ := h.of_bind
  obtain ⟨lifetime, _, h⟩ := h.of_bind
  obtain ⟨delay, _, h⟩ := h.of_bind
  obtain ⟨respawnDelay, _, h⟩ := h.of_bind
  obtain ⟨isCleared, _, h⟩ := h.of_bind
  obtain ⟨package, _, h⟩ := h.of_bind
  obtain ⟨type, _, h⟩ := h.of_bind
  obtain ⟨args, _, h⟩ := h.of_bind
  obtain ⟨stream, _, h⟩ := h.of_bind
  obtain ⟨output, _, h⟩ := h.of_bind
  obtain ⟨directory, _, h⟩ := h.of_bind
  obtain ⟨cwd, _, h⟩ := h.of_bind
  obtain ⟨launchPrefix, _, h⟩ := h.of_bind
  rw [← h.eq_of_pure]
  constructor
  · refine ⟨⟨ns, around, name, haround.eq_ok, checkBase_of_readName hname, rfl, rfl, rfl⟩, ?_⟩
    cases isCleared with
    | true => exact fun _ hmem => (Option.mem_some_iff.1 hmem).symm
    | false => exact nofun
  · have hwanted : "machine" ∈ (wanted isTest).map Wanted.name := by cases isTest <;> decide
    refine ⟨given, hmachine.eq_ok, fun hnone => ?_⟩
    rcases Attributes.text?_cases (Attributes.read_of_yields hattrs) hwanted hgiven with
      ⟨_, hgiven⟩ | ⟨_, ⟨raw, hraw, _⟩, _⟩
    · exact hgiven
    · rw [hnone] at hraw
      cases hraw

theorem isOf_of_read {known : List MachineSpec} {isTest : Bool} {node : Entered}
    (h : Yields (read look known scope isTest e) node) : node.IsOf scope :=
  (isOf_and_runsOn_of_read h).1

end NodeSpec
end LaunchFile
