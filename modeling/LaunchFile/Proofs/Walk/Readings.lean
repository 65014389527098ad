import LaunchFile.Proofs.Walk.Onward

/-!
# Proofs/Walk/Readings — what the element at hand reads, and what it records

If the element that is next at a moment takes part with a tag, it is read in the scope of the moment
(`Moment.reads`): a `<param>` and a `<rosparam>` for their settings, a `<machine>` for what it
declares. By itself an element records just these readings, and what it asks to be cleared
(`Element.records_of_front`).
-/

namespace LaunchFile

/-! ## Readings -/

/-- What the element at hand reads, if it takes part with this tag. -/
def Moment.reads {α : Type} (w : World) (tag : Tag) (read : Scope → Element → LaunchM α) :
    Moment → Option α
  | .children parent scope (e :: _) s =>
    match outcome (e.activeTag w parent scope) s.registry with
    | (.ok (some found), r) => if found = tag then (outcome (read scope e) r).1.toOption else none
    | _ => none
  | _ => none

/-- The settings of the element at hand: those of a `<param>`, and those that a `<rosparam>` loads
from its own text. -/
def Moment.settings (w : World) (m : Moment) : List ParamSpec :=
  (m.reads w .param (readParam w)).getD [] ++
    ((m.reads w .rosparam (RosparamCommand.read w.look)).map Prod.snd).getD []

/-- The machine that the element at hand declares. -/
def Moment.machine? (w : World) (m : Moment) : Option MachineSpec :=
  m.reads w .machine (MachineSpec.read w)

section

variable {α : Type} {w : World} {parent : String} {scope : Scope} {e : Element}
  {rest : List Element} {s t u : WalkState} {tag found : Tag}
  {read : Scope → Element → LaunchM α} {onward : Onward}

/-- An element that takes no part is not read. -/
theorem Moment.reads_of_inactive
    (h : outcome (WalkT.ofLaunch (e.activeTag w parent scope)) s = (.ok none, t)) :
    (Moment.children parent scope (e :: rest) s).reads w tag read = none := by
  rw [Moment.reads, (WalkT.eq_of_ofLaunch h).1]

/-- An element that takes part is read if it has the tag. -/
theorem Moment.reads_of_active (hpart : e.ActiveAs w parent scope found s t) :
    (Moment.children parent scope (e :: rest) s).reads w tag read =
      if found = tag then (outcome (read scope e) t.registry).1.toOption else none := by
  rw [Moment.reads, (WalkT.eq_of_ofLaunch hpart).1]

/-- An element with another tag is not read. -/
theorem Moment.reads_of_ne (hpart : e.ActiveAs w parent scope found s t) (hne : found ≠ tag) :
    (Moment.children parent scope (e :: rest) s).reads w tag read = none := by
  rw [reads_of_active hpart, if_neg hne]

/-- What is read of an element is what its reader finds. -/
theorem Moment.reads_eq_some {a : α} (hpart : e.ActiveAs w parent scope tag s t)
    (hread : outcome (WalkT.ofLaunch (read scope e)) t = (.ok a, u)) :
    (Moment.children parent scope (e :: rest) s).reads w tag read = some a := by
  rw [reads_of_active hpart, if_pos rfl, (WalkT.eq_of_ofLaunch hread).1]
  rfl

/-- Only parameters are set. -/
theorem Moment.settings_eq_nil (hpart : e.ActiveAs w parent scope found s t)
    (hparam : found ≠ .param) (hrosparam : found ≠ .rosparam) :
    (Moment.children parent scope (e :: rest) s).settings w = [] := by
  rw [settings, reads_of_ne hpart hparam, reads_of_ne hpart hrosparam]
  rfl

/-- A `<param>` makes the settings that are read. -/
theorem Moment.settings_of_param {params : List ParamSpec}
    (hpart : e.ActiveAs w parent scope .param s t)
    (hread : outcome (WalkT.ofLaunch (readParam w scope e)) t = (.ok params, u)) :
    (Moment.children parent scope (e :: rest) s).settings w = params := by
  have hne : Tag.param ≠ .rosparam := nofun
  rw [settings, reads_eq_some hpart hread, reads_of_ne hpart hne]
  exact List.append_nil params

/-- A `<rosparam>` makes the settings that are read. -/
theorem Moment.settings_of_rosparam {command : RosparamCommand} {params : List ParamSpec}
    (hpart : e.ActiveAs w parent scope .rosparam s t)
    (hread : outcome (WalkT.ofLaunch (RosparamCommand.read w.look scope e)) t =
      (.ok (command, params), u)) :
    (Moment.children parent scope (e :: rest) s).settings w = params := by
  have hne : Tag.rosparam ≠ .param := nofun
  rw [settings, reads_of_ne hpart hne, reads_eq_some hpart hread]
  rfl

/-- Only machines are declared. -/
theorem Moment.machine?_eq_none (hpart : e.ActiveAs w parent scope found s t)
    (hmachine : found ≠ .machine) :
    (Moment.children parent scope (e :: rest) s).machine? w = none :=
  reads_of_ne hpart hmachine

/-- Between two logs these settings are recorded, this machine if its name is new, and no node. -/
def Log.Records (log : Log) (settings : List ParamSpec) (machine : Option MachineSpec)
    (log' : Log) : Prop :=
  ∃ effects : Log, log' = log ++ effects ∧ effects.nodes = [] ∧ effects.params = settings ∧
    effects.machines = machine.toList.filter fun spec =>
      (MachineSpec.find? log.machines spec.name).isNone

/-- Nothing is recorded. -/
theorem Log.Records.refl (log : Log) : log.Records [] none log :=
  ⟨[], (List.append_nil log).symm, rfl, rfl, rfl⟩

/-- A clearing sets no parameter. -/
theorem Log.Records.clear (log : Log) (clear : Option RosparamCommand) :
    log.Records [] none (log ++ clear.toList.map .rosparam) := by
  refine ⟨_, rfl, ?_⟩
  cases clear <;> exact ⟨rfl, rfl, rfl⟩

/-- Settings are recorded as they are. -/
theorem Log.Records.params (log : Log) (params : List ParamSpec) :
    log.Records params none (log ++ params.map .param) := by
  refine ⟨_, rfl, ?_⟩
  simp [Log.nodes, Log.params, Log.machines, List.filterMap_map, Function.comp_def, Effect.node?,
    Effect.param?, Effect.machine?]

/-- A command is recorded before its settings. -/
theorem Log.Records.rosparam (log : Log) (command : RosparamCommand) (params : List ParamSpec) :
    log.Records params none (log ++ .rosparam command :: params.map .param) := by
  obtain ⟨effects, heq, hnodes, hparams, hmachines⟩ := Log.Records.params log params
  obtain rfl := List.append_cancel_left heq
  exact ⟨_, rfl, hnodes, hparams, hmachines⟩

/-- A machine that may be declared is recorded if it is new. -/
theorem Log.Records.machine {log : Log} {spec : MachineSpec} {isNew : Bool}
    (h : MachineSpec.isNew log.machines spec = .ok isNew) :
    log.Records [] (some spec) (log ++ if isNew then [.machine spec] else []) := by
  unfold MachineSpec.isNew at h
  split at h
  · rename_i hfind
    cases h
    refine ⟨[.machine spec], rfl, rfl, rfl, ?_⟩
    rw [Option.toList_some, List.filter_cons_of_pos (by rw [hfind]; rfl)]
    rfl
  · rename_i existing hfind
    split at h
    · cases h
      refine ⟨[], rfl, rfl, rfl, ?_⟩
      rw [Option.toList_some, List.filter_cons_of_neg (by rw [hfind]; exact nofun)]
      rfl
    · cases h

namespace WalkT

/-- A step of the run records nothing. -/
theorem log_of_ofLaunch {step : LaunchM α} {a : α}
    (h : outcome (ofLaunch step) s = (.ok a, t)) : t.log = s.log := by
  rw [outcome_ofLaunch] at h
  exact congrArg (·.2.log) h.symm

/-- Entering a group records no setting and no machine. -/
theorem records_of_enterGroup {inner : Scope}
    (h : outcome (enterGroup w scope e) s = (.ok inner, t)) : s.log.Records [] none t.log := by
  obtain ⟨⟨entered, clear⟩, u, hread, h⟩ := outcome_bind_eq_ok h
  cases h
  exact log_of_ofLaunch hread ▸ .clear u.log clear

/-- Entering a node records no setting and no machine. -/
theorem records_of_enterNode {isTest : Bool} {node : NodeSpec.Entered}
    (h : outcome (enterNode w scope isTest e) s = (.ok node, t)) :
    s.log.Records [] none t.log := by
  obtain ⟨known, _, hknown, h⟩ := outcome_bind_eq_ok h
  cases hknown
  obtain ⟨node, u, hread, h⟩ := outcome_bind_eq_ok h
  cases h
  exact log_of_ofLaunch hread ▸ .clear u.log node.clear

/-- Entering an include records no setting and no machine. -/
theorem records_of_enterInclude {entered : Path × Scope}
    (h : outcome (enterInclude w scope e) s = (.ok entered, t)) :
    s.log.Records [] none t.log := by
  obtain ⟨head, u, hhead, h⟩ := outcome_bind_eq_ok h
  obtain ⟨chain, _, hchain, h⟩ := outcome_bind_eq_ok h
  cases hchain
  split at h
  · cases h
  · obtain ⟨inputs, v, hinputs, h⟩ := outcome_bind_eq_ok h
    cases h
    have hlog := (log_of_ofLaunch hinputs).trans (log_of_ofLaunch hhead)
    exact hlog ▸ .clear v.log head.clear

/-- The machine of an element is recorded if it is new, else it has to be like the known one. It
becomes the default of what follows if it says so. -/
theorem exists_isNew_of_machine {behind : Scope}
    (h : outcome (machine w scope e) s = (.ok behind, t)) :
    ∃ spec isNew u, outcome (ofLaunch (MachineSpec.read w scope e)) s = (.ok spec, u) ∧
      MachineSpec.isNew s.log.machines spec = .ok isNew ∧
      t.log = s.log ++ (if isNew then [.machine spec] else []) ∧
      behind = if spec.default == .yes then scope.setMachine spec.name else scope := by
  obtain ⟨spec, u, hread, h⟩ := outcome_bind_eq_ok h
  obtain ⟨known, _, hknown, h⟩ := outcome_bind_eq_ok h
  cases hknown
  obtain ⟨isNew, _, hnew, h⟩ := outcome_bind_eq_ok h
  obtain ⟨hnew, rfl⟩ := eq_ok_of_outcome hnew
  have hlog := log_of_ofLaunch hread
  refine ⟨spec, isNew, _, hread, hlog ▸ hnew, ?_⟩
  rw [← hlog]
  cases isNew with
  | false =>
    cases h
    exact ⟨(List.append_nil _).symm, rfl⟩
  | true =>
    cases h
    exact ⟨rfl, rfl⟩

end WalkT

/-! ## An element by itself -/

/-- **By itself an element records what it reads**: its settings, and the machine that it declares
if that is new. -/
theorem Element.records_of_front (h : outcome (e.front w parent scope) s = (.ok onward, t)) :
    s.log.Records ((Moment.children parent scope (e :: rest) s).settings w)
      ((Moment.children parent scope (e :: rest) s).machine? w) t.log := by
  obtain ⟨found, s₁, hpart, h⟩ := outcome_bind_eq_ok h
  have hlog : s₁.log = s.log := WalkT.log_of_ofLaunch hpart
  rw [← hlog]
  cases found with
  | none =>
    cases h
    rw [Moment.settings, Moment.machine?, Moment.reads_of_inactive hpart,
      Moment.reads_of_inactive hpart, Moment.reads_of_inactive hpart]
    exact .refl _
  | some tag =>
    cases tag with
    | arg | remap | env =>
      rw [Moment.settings_eq_nil hpart nofun nofun, Moment.machine?_eq_none hpart nofun]
      obtain ⟨_, _, hread, h⟩ := outcome_bind_eq_ok h
      cases h
      exact WalkT.log_of_ofLaunch hread ▸ .refl _
    | machine =>
      rw [Moment.settings_eq_nil hpart nofun nofun]
      obtain ⟨behind, _, hmachine, h⟩ := outcome_bind_eq_ok h
      cases h
      obtain ⟨spec, isNew, u, hread, hnew, hmore, _⟩ := WalkT.exists_isNew_of_machine hmachine
      rw [Moment.machine?, Moment.reads_eq_some hpart hread, hmore]
      exact .machine hnew
    | param =>
      rw [Moment.machine?_eq_none hpart nofun]
      obtain ⟨_, _, hparam, h⟩ := outcome_bind_eq_ok h
      cases h
      obtain ⟨params, u, hread, hparam⟩ := outcome_bind_eq_ok hparam
      cases hparam
      rw [Moment.settings_of_param hpart hread, ← WalkT.log_of_ofLaunch hread]
      exact .params u.log params
    | rosparam =>
      rw [Moment.machine?_eq_none hpart nofun]
      obtain ⟨_, _, hrosparam, h⟩ := outcome_bind_eq_ok h
      cases h
      obtain ⟨⟨command, params⟩, u, hread, hrosparam⟩ := outcome_bind_eq_ok hrosparam
      cases hrosparam
      rw [Moment.settings_of_rosparam hpart hread, ← WalkT.log_of_ofLaunch hread]
      exact .rosparam u.log command params
    | group =>
      rw [Moment.settings_eq_nil hpart nofun nofun, Moment.machine?_eq_none hpart nofun]
      obtain ⟨_, _, henter, h⟩ := outcome_bind_eq_ok h
      cases h
      exact WalkT.records_of_enterGroup henter
    | node | test =>
      rw [Moment.settings_eq_nil hpart nofun nofun, Moment.machine?_eq_none hpart nofun]
      obtain ⟨_, _, henter, h⟩ := outcome_bind_eq_ok h
      cases h
      exact WalkT.records_of_enterNode henter
    | «include» =>
      rw [Moment.settings_eq_nil hpart nofun nofun, Moment.machine?_eq_none hpart nofun]
      obtain ⟨_, _, henter, h⟩ := outcome_bind_eq_ok h
      cases h
      exact WalkT.records_of_enterInclude henter

end
end LaunchFile
