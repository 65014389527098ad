import LaunchFile.Proofs.GraphName.Reroot
import LaunchFile.Proofs.Run.Strict
import LaunchFile.Proofs.Walk.Records

/-!
# Proofs/Run/WellNamed — the names of a run are well formed

Names are checked where they are read and put together where they are used. Whatever an element
makes of a scope whose names are well formed has well-formed names again (`Derives.isWellNamed`), so
that all scopes of a run have; and so have the nodes, the clearings and the settings that those
scopes resolve.
-/

namespace LaunchFile

open GraphName (IsWellFormed isIdentifier)
open Moment (InRun)

section

variable {w : World} {scope : Scope} {e : Element}

/-! ## Scopes -/

theorem Scope.IsWellNamed.inside (h : scope.IsWellNamed) (e : Element) :
    (e.inside scope).IsWellNamed := by
  rw [Element.inside]
  split
  · exact ⟨h.ns, h.privateNs, h.remaps⟩
  · exact h

/-- **Derived scopes stay well named.** -/
theorem Scope.Derives.isWellNamed {s s' : Scope} (h : s.Derives w e s') (hs : s.IsWellNamed) :
    s'.IsWellNamed := by
  induction h with
  | same => exact hs
  | arg harg =>
    obtain ⟨name, binding, hbind⟩ := exists_of_readArg harg
    exact hs.bind hbind
  | remap hsource htarget => exact hs.addRemap hsource htarget
  | env _ _ => exact ⟨hs.ns, hs.privateNs, hs.remaps⟩
  | machine _ _ => exact ⟨hs.ns, hs.privateNs, hs.remaps⟩
  | pushed hns => exact hs.enterNs hns
  | node hns hname => exact (hs.enterNs hns).enterNode hname
  | @included _ _ _ _ path hns _ =>
    have htop := (hs.enterNs hns).forInclude path
    exact ⟨htop.ns, htop.privateNs, htop.remaps⟩
  | inside _ ih => exact ih.inside e

theorem isWellNamed_topScope (file : Option Path) (args : List (String × String)) :
    (topScope file args).IsWellNamed :=
  ⟨GraphName.isWellFormed_root, nofun, nofun⟩

/-- **In all scopes of a run, names are well formed** if they are in the first. -/
theorem Moment.InRun.isWellNamed {root : Element} {registry : AnonRegistry} {levels : Nat}
    {m : Moment} (h : InRun w scope root registry levels m) (hscope : scope.IsWellNamed) :
    m.scope.IsWellNamed :=
  h.of_derives (fun hs hderives => hderives.isWellNamed hs) hscope

/-! ## Nodes -/

/-- The namespace, the remappings and the name of a node: a node is called by its namespace with
one identifier behind it. -/
structure NodeSpec.IsWellNamed (n : NodeSpec) : Prop where
  ns : IsWellFormed n.ns
  remaps : ∀ pair ∈ n.remaps, IsWellFormed pair.1 ∧ IsWellFormed pair.2
  exists_own : ∃ own : String, isIdentifier own.toList = true ∧
    n.name = (if n.ns = "/" then "/" else n.ns ++ "/") ++ own

theorem NodeSpec.Entered.IsOf.isWellNamed {node : Entered} {behind : Scope} (h : node.IsOf scope)
    (hscope : scope.IsWellNamed) (hbehind : behind.IsWellNamed) :
    (node.finish behind).IsWellNamed := by
  obtain ⟨ns, around, name, haround, hname, hns, hfull, _⟩ := h.exists_around
  have hwell := hscope.enterNs haround
  have hown : isIdentifier (Text.trim name).toList = true := by
    rw [Text.trim, String.toList_ofList]
    exact GraphName.isIdentifier_of_checkBase hname
  refine ⟨?_, hbehind.remaps, Text.trim name, hown, ?_⟩
  · exact (congrArg IsWellFormed hns).mpr hwell.ns
  · show node.spec.name =
      (if node.spec.ns = "/" then "/" else node.spec.ns ++ "/") ++ Text.trim name
    rw [hfull, (resolveName_of_checkBase around hname).1, hns]
    exact hwell.ns.isAbsolute.join_of_isIdentifier hown

/-! ## Moments -/

/-- The names at a moment: those of its scope and of all scopes that an element derives from it, of
what the element at hand asks to clear, and of what a `<param>` sets. -/
structure Moment.IsWellNamed (w : World) (m : Moment) : Prop where
  scope : m.scope.IsWellNamed
  derived : ∀ e s', m.scope.Derives w e s' → s'.IsWellNamed
  clears : ∀ command, m.Clears w command → IsWellFormed command.ns
  sets : ∀ name value location, m.Sets w name value location → IsWellFormed name

theorem Moment.Clears.isWellFormed {m : Moment} {command : RosparamCommand}
    (h : m.Clears w command) (hm : m.scope.IsWellNamed) : IsWellFormed command.ns := by
  cases h with
  | group _ hread =>
    obtain ⟨ns, hentered, hclear⟩ := exists_of_readGroup (Yields.of_ofLaunch ⟨_, _, hread⟩)
    exact hclear command rfl ▸ (hm.enterNs hentered).ns
  | node isTest _ henter hclear =>
    have hnode := WalkT.isOf_of_enterNode ⟨_, _, henter⟩
    obtain ⟨ns, around, name, haround, hname, _, hfull, _⟩ := hnode.exists_around
    have hinner := (hm.enterNs haround).enterNode hname
    exact hnode.clear command hclear ▸ hinner.privateNs _ (congrArg some hfull.symm)
  | «include» hincludes hclear =>
    obtain ⟨_, _, hhead⟩ := hincludes
    obtain ⟨ns, hentered, hcleared⟩ := IncludeHead.exists_of_read (Yields.of_ofLaunch ⟨_, _, hhead⟩)
    exact hcleared command hclear ▸ (hm.enterNs hentered).ns

theorem Moment.Sets.isWellFormed {m : Moment} {name : String} {value : ParamValue}
    {location : Location} (h : m.Sets w name value location) (hm : m.scope.IsWellNamed) :
    IsWellFormed name := by
  obtain ⟨_, hread⟩ := h
  obtain ⟨_, _, hcheck, rfl⟩ := exists_of_readSetting (Yields.of_ofLaunch ⟨_, _, hread⟩)
  exact hm.resolveParamName hcheck

theorem Moment.isWellNamed_of_scope {m : Moment} (hm : m.scope.IsWellNamed) : m.IsWellNamed w where
  scope := hm
  derived _ _ h := h.isWellNamed hm
  clears _ h := h.isWellFormed hm
  sets _ _ _ h := h.isWellFormed hm

/-! ## Models -/

/-- Only a mapping sets other names than its own. -/
theorem ParamSpec.name_of_mem_ofValue {name : String} {value : ParamValue} {location : Location}
    {spec : ParamSpec} (hvalue : RosparamCommand.isMap value = false)
    (h : spec ∈ ofValue name value location) : spec.name = name := by
  cases value with
  | map entries => cases hvalue
  | _ => exact congrArg ParamSpec.name (List.mem_singleton.1 h)

/-- The names of a model of a run, with the moments of the run that they are due to. -/
structure Model.IsWellNamed (w : World) (scope : Scope) (root : Element) (registry : AnonRegistry)
    (model : Model) : Prop where
  nodes : ∀ n ∈ model.nodes, n.IsWellNamed
  commands : ∀ command ∈ model.commands, ∃ levels m, InRun w scope root registry levels m ∧
    (m.Clears w command ∧ IsWellFormed command.ns ∨ ∃ params, m.Commands w command params)
  parameters : ∀ spec ∈ model.parameters, ∃ levels m, InRun w scope root registry levels m ∧
    ((∃ name value location, m.Sets w name value location ∧
        spec ∈ ParamSpec.ofValue name value location ∧
        (RosparamCommand.isMap value = false → IsWellFormed spec.name)) ∨
      ∃ command params, m.Commands w command params ∧ spec ∈ params)

variable {root : Element} {registry : AnonRegistry}

theorem Moment.Launches.isWellNamed {levels : Nat} {m : Moment} {n : NodeSpec} {s : WalkState}
    (h : m.Launches w (walkFile w levels) n s) (hm : InRun w scope root registry levels m)
    (hscope : scope.IsWellNamed) : n.IsWellNamed := by
  obtain ⟨isTest, hpart, henter, hwalk⟩ := h
  have hbehind := ((hm.within (.node isTest hpart henter)).behind hwalk).isWellNamed hscope
  exact (WalkT.isOf_of_enterNode ⟨_, _, henter⟩).isWellNamed (hm.isWellNamed hscope) hbehind

/-- **The model of a run is well named** if the run starts in a scope that is. -/
theorem isWellNamed_of_interpretTree {model : Model} (hscope : scope.IsWellNamed)
    (h : (outcome (interpretTree w scope root) registry).1 = .ok model) :
    model.IsWellNamed w scope root registry := by
  rw [interpretTree, outcome_interpretWith] at h
  obtain ⟨behind, _, rfl⟩ := Except.map_eq_ok h
  refine ⟨fun n hn => ?_, fun command hcommand => ?_, fun spec hspec => ?_⟩
  · obtain ⟨launched, hlaunched, rfl⟩ := List.mem_map.1 hn
    obtain ⟨levels, m, _, _, hm, hemits, hmem⟩ := InRun.exists_emits (Log.mem_nodes.1 hlaunched)
    obtain ⟨_, hlaunches⟩ := hemits.launches hmem
    have hnamed := hlaunches.isWellNamed hm hscope
    exact ⟨hnamed.ns, hnamed.remaps, hnamed.exists_own⟩
  · obtain ⟨levels, m, _, _, hm, hemits, hmem⟩ := InRun.exists_emits (Log.mem_commands.1 hcommand)
    refine ⟨levels, m, hm, (hemits.clears_or_commands hmem).imp_left fun hclears => ?_⟩
    exact ⟨hclears, hclears.isWellFormed (hm.isWellNamed hscope)⟩
  · have hset := (Model.mem_of_mem_foldl_withParam hspec).resolve_right List.not_mem_nil
    obtain ⟨levels, m, _, _, hm, hemits, hmem⟩ := InRun.exists_emits (Log.mem_params.1 hset)
    refine ⟨levels, m, hm, (hemits.sets_or_commands hmem).imp_left ?_⟩
    rintro ⟨name, value, location, hsets, hspec⟩
    refine ⟨name, value, location, hsets, hspec, fun hvalue => ?_⟩
    rw [ParamSpec.name_of_mem_ofValue hvalue hspec]
    exact hsets.isWellFormed (hm.isWellNamed hscope)

/-- **The names of a run.** In every run of a text, all scopes are well named, and with them what is
cleared and what a `<param>` sets; and if it gives a model, that is well named. -/
theorem interpretText_isWellNamed (w : World) (file : Option Path) (args : List (String × String))
    (source : String) (root : Element) (registry : AnonRegistry)
    (hparse : Element.parse source file = .ok root) :
    (∀ levels m, InRun w (topScope file args) root registry levels m → m.IsWellNamed w) ∧
      ∀ model, (outcome (interpretText w file args source) registry).1 = .ok model →
        model.IsWellNamed w (topScope file args) root registry := by
  have htop := isWellNamed_topScope file args
  refine ⟨fun levels m hm => Moment.isWellNamed_of_scope (hm.isWellNamed htop), ?_⟩
  rw [interpretText_of_ok hparse]
  exact fun model => isWellNamed_of_interpretTree htop

/-- A node in a group, which is to be cleared first. -/
theorem interpretText_isWellNamed_group :
    let w : World := ⟨⟨fun _ => none, fun _ => none⟩, MemoryFiles.toFiles [], true, "noetic"⟩
    let source := "<launch><group ns='arm' clear_params='true'><node name='driver' pkg='arm' " ++
      "type='driver'><remap from='~in' to='/out'/></node></group></launch>"
    ∃ root model, Element.parse source none = .ok root ∧
      (outcome (interpretText w none [] source) .empty).1 = .ok model ∧
      model.nodes.map (·.name) = ["/arm/driver"] ∧ model.commands.map (·.ns) = ["/arm"] ∧
      (∀ levels m, Moment.InRun w (topScope none []) root .empty levels m → m.IsWellNamed w) ∧
      model.IsWellNamed w (topScope none []) root .empty := by
  intro w source
  have hmodel : ((outcome (interpretText w none [] source) .empty).1.toOption.map fun model =>
      (model.nodes.map (·.name), model.commands.map (·.ns))) =
        some (["/arm/driver"], ["/arm"]) := by
    decide +kernel
  obtain ⟨model, hsome, hnames⟩ := Option.map_eq_some_iff.1 hmodel
  obtain ⟨hnodes, hcommands⟩ := Prod.ext_iff.1 hnames
  have hok := Except.eq_ok_of_toOption hsome
  cases hparse : Element.parse source none with
  | error err =>
    rw [interpretText_of_error hparse] at hok
    cases hok
  | ok root =>
    obtain ⟨hmoments, hmodels⟩ := interpretText_isWellNamed w none [] source root .empty hparse
    exact ⟨root, model, rfl, hok, hnodes, hcommands, hmoments, hmodels model hok⟩

end
end LaunchFile
