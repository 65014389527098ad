import LaunchFile.Proofs.Distinct
import LaunchFile.Proofs.Walk.View

/-!
# Proofs/Run/Parameters — the parameters of a model

The settings of a run are those of its elements in document order, with each included file in the
place of its include (`settingsOfRun`). The parameters of its model are the last setting of each
name, and a node lists all of them that lie below its name (`interpretText_parameters`).
-/

namespace LaunchFile

section

variable {w : World} {scope behind : Scope} {root : Element} {registry : AnonRegistry}

/-- All settings of a run in document order. -/
def settingsOfRun (w : World) (scope : Scope) (root : Element) (registry : AnonRegistry) :
    List ParamSpec :=
  (Course.ofRun w scope root registry).flatMap fun p => p.2.settings w

/-- The settings of a run are those of the elements that it comes to. -/
theorem mem_settingsOfRun {spec : ParamSpec} : spec ∈ settingsOfRun w scope root registry ↔
    ∃ levels m, Moment.InRun w scope root registry levels m ∧ spec ∈ m.settings w := by
  rw [settingsOfRun, List.mem_flatMap]
  constructor
  · rintro ⟨⟨levels, m⟩, hm, hspec⟩
    exact ⟨levels, m, Course.mem_ofRun.1 hm, hspec⟩
  · rintro ⟨levels, m, hm, hspec⟩
    exact ⟨(levels, m), Course.mem_ofRun.2 hm, hspec⟩

/-- By itself an element adds its settings to those recorded. -/
theorem Log.view_params (w : World) :
    Log.View w Log.params fun params m => params ++ m.settings w where
  front h := by
    obtain ⟨effects, hlog, _, hparams, _⟩ := Element.records_of_front h
    rw [hlog, Log.params, List.filterMap_append]
    exact congrArg _ hparams
  node log spec := by
    rw [Log.params, List.filterMap_append]
    exact List.append_nil _
  idle params _ _ _ := List.append_nil params
  opening params _ _ _ := List.append_nil params

theorem params_of_walked (h : (walked w scope root registry).1 = .ok behind) :
    (walked w scope root registry).2.log.params = settingsOfRun w scope root registry := by
  rw [(Log.view_params w).of_walked h, settingsOfRun, List.flatMap_eq_foldl]
  rfl

/-- What lies below a name begins with it and a slash. -/
theorem GraphName.isBelow_eq (base : String) :
    isBelow base = fun name => (base ++ "/").toList.isPrefixOf name.toList := by
  funext name
  rw [isBelow, String.toList_append]
  rfl

end

/-- **The final parameter table.** If the run of a text succeeds, its settings are those of the
elements that it comes to, in document order. The parameters of the model are these settings without
those that are followed by one of the same name: so names are distinct, none is lost, and under each
of them is its last setting. A node lists the names of all parameters that begin with its own name
and a slash, wherever they were set. -/
theorem interpretText_parameters (w : World) (file : Option Path) (args : List (String × String))
    (source : String) (registry : AnonRegistry) (model : Model)
    (h : (outcome (interpretText w file args source) registry).1 = .ok model) :
    ∃ root, Element.parse source file = .ok root ∧
      let settings := settingsOfRun w (topScope file args) root registry
      (∀ spec, spec ∈ settings ↔ ∃ levels m,
        Moment.InRun w (topScope file args) root registry levels m ∧ spec ∈ m.settings w) ∧
      model.parameters = lastOfEach ParamSpec.name settings ∧
      (model.parameters.map ParamSpec.name).Nodup ∧
      (∀ name, name ∈ model.parameters.map ParamSpec.name ↔ name ∈ settings.map ParamSpec.name) ∧
      (∀ name, model.param? name = settings.reverse.find? (·.name == name)) ∧
      ∀ node ∈ model.nodes, node.params = (model.parameters.map ParamSpec.name).filter fun name =>
        (node.name ++ "/").toList.isPrefixOf name.toList := by
  obtain ⟨root, behind, hparse, hwalk, rfl⟩ := exists_walked_of_ok h
  refine ⟨root, hparse, ?_⟩
  intro settings
  have hparameters : (Model.ofLog (walked w (topScope file args) root registry).2.log
      behind.args).parameters = lastOfEach ParamSpec.name settings := by
    rw [← foldl_withParam]
    exact congrArg (List.foldl Model.withParam []) (params_of_walked hwalk)
  refine ⟨fun spec => mem_settingsOfRun, hparameters, ?_, fun name => ?_, fun name => ?_,
    fun node hnode => ?_⟩
  · rw [hparameters]
    exact nodup_lastOfEach settings
  · rw [hparameters]
    exact mem_names_lastOfEach settings
  · rw [Model.param?, hparameters]
    exact find?_lastOfEach name settings
  · obtain ⟨spec, _, rfl⟩ := List.mem_map.1 hnode
    show Model.paramsBelow _ spec.name = _
    rw [Model.paramsBelow, GraphName.isBelow_eq]
    rfl

/-- A parameter that is set again behind a node, and others that an included file sets. -/
theorem interpretText_parameters_late :
    let limits := "<launch><rosparam>{low: 0, high: 1}</rosparam></launch>"
    let files : MemoryFiles := [("limits.launch", limits.toUTF8.toList)]
    let w : World := ⟨⟨fun _ => none, fun _ => none⟩, files.toFiles, true, "noetic"⟩
    let source := "<launch><param name='/arm/rate' value='1'/>" ++
      "<node name='arm' pkg='p' type='t'/><include file='limits.launch' ns='arm'/>" ++
      "<param name='/arm/rate' value='2'/></launch>"
    ∃ root model, Element.parse source none = .ok root ∧
      (outcome (interpretText w none [] source) .empty).1 = .ok model ∧
      (settingsOfRun w (topScope none []) root .empty).map ParamSpec.name =
        ["/arm/rate", "/arm/low", "/arm/high", "/arm/rate"] ∧
      model.parameters =
        lastOfEach ParamSpec.name (settingsOfRun w (topScope none []) root .empty) ∧
      model.nodes.map NodeSpec.params = [["/arm/low", "/arm/high", "/arm/rate"]] := by
  intro limits files w source
  have hrun : ((outcome (interpretText w none [] source) .empty).1.toOption.map fun model =>
      model.nodes.map NodeSpec.params) = some [["/arm/low", "/arm/high", "/arm/rate"]] := by
    decide +kernel
  have hsettings : ((Element.parse source none).toOption.map fun root =>
      (settingsOfRun w (topScope none []) root .empty).map ParamSpec.name) =
      some ["/arm/rate", "/arm/low", "/arm/high", "/arm/rate"] := by
    decide +kernel
  obtain ⟨model, hsome, hparams⟩ := Option.map_eq_some_iff.1 hrun
  have hok := Except.eq_ok_of_toOption hsome
  obtain ⟨root, hparse, _, hparameters, _⟩ :=
    interpretText_parameters w none [] source .empty model hok
  rw [hparse] at hsettings
  exact ⟨root, model, hparse, hok, Option.some.inj hsettings, hparameters, hparams⟩

end LaunchFile
