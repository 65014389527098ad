import LaunchFile.Proofs.Param.Leaves
import LaunchFile.Proofs.ParamNames
import LaunchFile.Proofs.Run.Parameters
import LaunchFile.Proofs.Walk.NodeParts

/-!
# Proofs/Run/NodeParams — the parameters that a node sets for itself

The leaves of a value have the name that it is set under, with the keys of mappings behind it
(`ParamValue.isWithin_of_mem_unfold`). Inside of a node a name that is not absolute leads below the
full name of the node, so that the node lists all that such a `<param>` sets
(`interpretTree_nodeParams`). Only a lone tilde leads to the full name itself.
-/

namespace LaunchFile

open Moment (InRun InNode)

theorem ParamSpec.isWithin_of_mem_ofValue {name : String} {value : ParamValue}
    {location : Location} {spec : ParamSpec} (hname : GraphName.IsAbsolute name)
    (h : spec ∈ ofValue name value location) : GraphName.IsWithin name spec.name := by
  obtain ⟨leaf, hleaf, rfl⟩ := List.mem_map.1 h
  exact ParamValue.isWithin_of_mem_unfold value (.refl hname) leaf hleaf

section

variable {w : World} {scope around last : Scope} {root e : Element} {registry : AnonRegistry}
  {levels : Nat} {launch : Moment} {node : NodeSpec.Entered} {parent : String}
  {rest : List Element} {s t : WalkState} {spec : ParamSpec} {args : Dict ArgBinding}

/-! ## Names inside of a node -/

/-- The full name of a node has segments. -/
theorem NodeSpec.Entered.IsOf.isAbsolute_name (h : node.IsOf scope) :
    GraphName.IsAbsolute node.spec.name ∧ node.spec.name ≠ "/" := by
  obtain ⟨_, around, _, _, hname, _, hfull, _⟩ := h.exists_around
  obtain ⟨hjoin, hroot⟩ := resolveName_of_checkBase around hname
  rw [hfull]
  exact ⟨hjoin ▸ GraphName.isAbsolute_join _ _, hroot⟩

/-- **Inside of a node, a name that is not absolute** leads below the full name of the node, or to
the full name itself if it is a lone tilde. -/
theorem name_cases_of_mem_ofValue {full name : String} {value : ParamValue} {location : Location}
    (hfull : GraphName.IsAbsolute full) (hroot : full ≠ "/") (hscope : scope.privateNs = some full)
    (hcheck : GraphName.check false name = .ok ())
    (hrelative : (Text.trimChars name.toList).head? ≠ some '/')
    (hspec : spec ∈ ParamSpec.ofValue (scope.resolveParamName name) value location) :
    spec.name = full ∧ Text.trim name = "~" ∨ GraphName.isBelow full spec.name = true := by
  rw [Scope.resolveParamName_of_relative hrelative, Scope.paramNs, hscope,
    Option.getD_some] at hspec
  have hwithin := ParamSpec.isWithin_of_mem_ofValue (GraphName.isAbsolute_join _ _) hspec
  have hbelow : GraphName.IsWithin full spec.name :=
    ⟨hwithin.isAbsolute, (((GraphName.IsWithin.refl hfull).join _).segments).trans hwithin.segments⟩
  refine (hbelow.eq_or_isBelow hfull hroot).imp_left fun hsame => ⟨hsame, ?_⟩
  -- Nothing is left for the segments of the name as it is written.
  obtain ⟨more, hmore⟩ := hwithin.segments
  rw [hsame, GraphName.segmentsOf_join, List.append_assoc, List.append_right_eq_self] at hmore
  have hnone := (List.append_eq_nil_iff.1 hmore).1
  rw [GraphName.segmentsOf, String.toList_ofList] at hnone
  rw [Text.trim, GraphName.trimChars_eq_tilde hcheck hrelative hnone]

/-! ## Models -/

theorem parameters_of_walked (h : (walked w scope root registry).1 = .ok last) :
    (Model.ofLog (walked w scope root registry).2.log args).parameters =
      lastOfEach ParamSpec.name (settingsOfRun w scope root registry) := by
  rw [← foldl_withParam]
  exact congrArg (List.foldl Model.withParam []) (params_of_walked h)

/-- A setting of the run that lies below the name of a node is listed by the node. -/
theorem mem_paramsBelow_of_walked {full : String} {m : Moment} (args : Dict ArgBinding)
    (h : (walked w scope root registry).1 = .ok last) (hm : InRun w scope root registry levels m)
    (hspec : spec ∈ m.settings w) (hbelow : GraphName.isBelow full spec.name = true) :
    spec.name ∈ Model.paramsBelow
      (Model.ofLog (walked w scope root registry).2.log args).parameters full := by
  rw [Model.paramsBelow, List.mem_filter, parameters_of_walked h, mem_names_lastOfEach]
  exact ⟨List.mem_map_of_mem (mem_settingsOfRun.2 ⟨levels, m, hm, hspec⟩), hbelow⟩

/-- A `<param>` that a run comes to is read if the run succeeds. -/
theorem yields_readParam_of_walked (h : (walked w scope root registry).1 = .ok last)
    (hm : InRun w scope root registry levels (.children parent around (e :: rest) s))
    (hpart : e.ActiveAs w parent around .param s t) :
    Yields (readParam w around e) ((Moment.children parent around (e :: rest) s).settings w) := by
  obtain ⟨behind, u, helement⟩ := hm.exists_walkElement h
  obtain ⟨onward, v, hfront, _⟩ := exists_front_of_walkElement helement
  rw [hpart.outcome_front] at hfront
  obtain ⟨_, _, hparam, _⟩ := outcome_bind_eq_ok hfront
  obtain ⟨params, _, hread, _⟩ := outcome_bind_eq_ok hparam
  rw [Moment.settings_of_param hpart hread]
  exact Yields.of_ofLaunch ⟨_, _, hread⟩

end

/-- **A node lists the parameters that it sets for itself.** If a run gives a model, then the model
has an entry for every `<node>` and `<test>` that the run enters, and every `<param>` that takes
part among its children has a name that is accepted. If that name, without the blanks around it,
does not begin with a slash, then the names of all that the `<param>` sets begin with the full name
of the node and a slash, and the entry lists them, whatever else sets them too; but under a lone
tilde something may be set under the full name itself. -/
theorem interpretTree_nodeParams (w : World) (scope : Scope) (root : Element)
    (registry : AnonRegistry) (model : Model)
    (h : (outcome (interpretTree w scope root) registry).1 = .ok model) (levels : Nat)
    (launch : Moment) (hlaunch : InRun w scope root registry levels launch)
    (node : NodeSpec.Entered) (parent : String) (around : Scope) (e : Element)
    (rest : List Element) (s t : WalkState)
    (hin : InNode w (walkFile w levels) launch node (.children parent around (e :: rest) s))
    (hpart : e.ActiveAs w parent around .param s t) :
    ∃ entry ∈ model.nodes, (∃ behind, entry = { node.finish behind with params := entry.params }) ∧
      ∃ name value, e.Resolves w.look around "name" name ∧
        GraphName.check false name = .ok () ∧
        (Moment.children parent around (e :: rest) s).settings w =
          ParamSpec.ofValue (around.resolveParamName name) value e.location ∧
        ((Text.trimChars name.toList).head? ≠ some '/' →
          ∀ spec ∈ (Moment.children parent around (e :: rest) s).settings w,
            spec.name = entry.name ∧ Text.trim name = "~" ∨
              (entry.name ++ "/").toList <+: spec.name.toList ∧ spec.name ∈ entry.params) := by
  rw [interpretTree, outcome_interpretWith] at h
  obtain ⟨last, hwalk, rfl⟩ := Except.map_eq_ok h
  obtain ⟨behind, hnode⟩ := hin.exists_recorded hlaunch hwalk
  have hread := yields_readParam_of_walked hwalk (hin.inRun hlaunch) hpart
  obtain ⟨name, value, hname, hcheck, hsettings⟩ := exists_of_readParam hread
  refine ⟨_, List.mem_map_of_mem hnode, ⟨behind, rfl⟩, name, value, hname, hcheck, hsettings,
    fun hrelative spec hspec => ?_⟩
  obtain ⟨_, _, _, _, _, _, _, _, _, _, henter⟩ := hin.exists_entered
  obtain ⟨hfull, hroot⟩ := (WalkT.isOf_of_enterNode ⟨_, _, henter⟩).isAbsolute_name
  refine (name_cases_of_mem_ofValue hfull hroot hin.privateNs hcheck hrelative
    (hsettings ▸ hspec)).imp_right fun hbelow => ⟨?_, ?_⟩
  · rw [GraphName.isBelow_eq] at hbelow
    exact List.isPrefixOf_iff_prefix.1 hbelow
  · exact mem_paramsBelow_of_walked last.args hwalk (hin.inRun hlaunch) hspec hbelow

/-- A private name that a mapping is set under, in a namespace. -/
theorem interpretTree_nodeParams_mapping :
    let w : World := ⟨⟨fun _ => none, fun _ => none⟩, MemoryFiles.toFiles [], true, "noetic"⟩
    let param : Element := .mk "param" (.ofPairs [("name", "~gains"), ("type", "yaml"),
      ("value", "{p: 1}")]) [] none ⟨none, 3, 1⟩
    let driver : Element :=
      .mk "node" (.ofPairs [("name", "driver"), ("pkg", "arm"), ("type", "driver")]) [param] none
        ⟨none, 2, 1⟩
    let root : Element := .mk "launch" .empty [driver] none ⟨none, 1, 1⟩
    let scope := (topScope none []).pushNamespace "arm"
    ∃ model, (outcome (interpretTree w scope root) .empty).1 = .ok model ∧
      model.nodes.map (fun n => (n.name, n.params)) = [("/arm/driver", ["/arm/driver/gains/p"])] ∧
      ∃ levels launch node around s t, InRun w scope root .empty levels launch ∧
        InNode w (walkFile w levels) launch node (.children "node" around [param] s) ∧
        param.ActiveAs w "node" around .param s t ∧
        ∃ entry ∈ model.nodes, ∀ spec ∈ (Moment.children "node" around [param] s).settings w,
          spec.name ∈ entry.params := by
  intro w param driver root scope
  have hrun : ((outcome (interpretTree w scope root) .empty).1.toOption.map fun model =>
      model.nodes.map fun n => (n.name, n.params)) =
        some [("/arm/driver", ["/arm/driver/gains/p"])] := by
    decide +kernel
  obtain ⟨model, hsome, hnodes⟩ := Option.map_eq_some_iff.1 hrun
  have hok := Except.eq_ok_of_toOption hsome
  refine ⟨model, hok, hnodes, ?_⟩
  have hlaunch : InRun w scope root .empty (w.files.size + 1)
      (.children "launch" scope [driver] (.start .empty scope)) := .start rfl
  have hdriver : driver.ActiveAs w "launch" scope (.ofNode false) (.start .empty scope)
      (.start .empty scope) := rfl
  have hentered : (outcome (WalkT.enterNode w scope false driver)
      (.start .empty scope)).1.toOption.isSome = true := by
    decide +kernel
  obtain ⟨node, hnode⟩ := Option.isSome_iff_exists.1 hentered
  have hin : InNode w (walkFile w (w.files.size + 1))
      (.children "launch" scope [driver] (.start .empty scope)) node
      (.children "node" (driver.inside node.scope) [param] _) :=
    .first false hdriver (Prod.ext (Except.eq_ok_of_toOption hnode) rfl)
  have hparam : ∀ s, param.ActiveAs w "node" (driver.inside node.scope) .param s s :=
    fun _ => rfl
  obtain ⟨entry, hentry, _, name, _, ⟨raw, hraw, heval⟩, _, _, hlisted⟩ :=
    interpretTree_nodeParams w scope root .empty model hok _ _ hlaunch _ _ _ _ _ _ _ hin (hparam _)
  cases hraw
  rw [Segment.evaluate_of_isPlain (by decide)] at heval
  cases heval.eq_of_pure
  refine ⟨_, _, _, _, _, _, hlaunch, hin, hparam _, entry, hentry, fun spec hspec => ?_⟩
  exact ((hlisted (by decide) spec hspec).resolve_left fun h => absurd h.2 (by decide)).2

/-- A lone tilde sets the name of the node itself, and the node does not list it. -/
theorem interpretTree_nodeParams_tilde :
    let w : World := ⟨⟨fun _ => none, fun _ => none⟩, MemoryFiles.toFiles [], true, "noetic"⟩
    let param : Element :=
      .mk "param" (.ofPairs [("name", "~"), ("value", "1")]) [] none ⟨none, 3, 1⟩
    let driver : Element :=
      .mk "node" (.ofPairs [("name", "driver"), ("pkg", "arm"), ("type", "driver")]) [param] none
        ⟨none, 2, 1⟩
    let root : Element := .mk "launch" .empty [driver] none ⟨none, 1, 1⟩
    GraphName.check false "~" = .ok () ∧ Text.trim "~" = "~" ∧
      ∃ model, (outcome (interpretTree w (topScope none []) root) .empty).1 = .ok model ∧
        model.parameters.map ParamSpec.name = ["/driver"] ∧
        model.nodes.map (fun n => (n.name, n.params)) = [("/driver", [])] ∧
        ¬ ("/driver" ++ "/").toList <+: "/driver".toList := by
  intro w param driver root
  have hrun : ((outcome (interpretTree w (topScope none []) root) .empty).1.toOption.map
      fun model => (model.parameters.map ParamSpec.name,
        model.nodes.map fun n => (n.name, n.params))) = some (["/driver"], [("/driver", [])]) := by
    decide +kernel
  obtain ⟨model, hsome, hfacts⟩ := Option.map_eq_some_iff.1 hrun
  obtain ⟨hparameters, hnodes⟩ := Prod.ext_iff.1 hfacts
  exact ⟨rfl, by decide, model, Except.eq_ok_of_toOption hsome, hparameters, hnodes, by decide⟩

end LaunchFile
