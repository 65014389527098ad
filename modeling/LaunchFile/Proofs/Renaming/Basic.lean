import LaunchFile.Model.Basic
import LaunchFile.Proofs.GraphName.Reroot
import LaunchFile.Proofs.Param.Leaves

/-!
# Proofs/Renaming/Basic — what a run names, under other names

A renaming is a map of resolved names that the interpreter cannot tell from the identity: it goes
along with joining, keeps names apart and keeps what lies below what. Moving everything under a
namespace is one (`Renaming.under`), and so is leaving every name as it is (`Renaming.same`). A
model whose log is renamed is the renamed model (`Model.ofLog_mapNames`).
-/

namespace LaunchFile

/-! ## Renamings -/

/-- A map of resolved names that joining, comparing and looking below go along with, on the names
that it is about. Along with the names, arguments may change their order, or they may be bound in
another way to the same values. -/
structure Renaming where
  map : String → String
  /-- Arguments are bound in the same way. -/
  exact : Prop
  /-- Arguments keep their order. -/
  ordered : Prop
  exact_of_ordered : ordered → exact
  /-- The names that it is about; all resolved names are among them. -/
  Admits : String → Prop
  admits_normalize : ∀ name, Admits (GraphName.normalize name)
  map_join : ∀ {base}, Admits base →
    ∀ name, map (GraphName.join base name) = GraphName.join (map base) name
  map_inj : ∀ {a b}, Admits a → Admits b → map a = map b → a = b
  isBelow_map : ∀ {base name}, Admits base → base ≠ "/" → Admits name →
    GraphName.isBelow (map base) (map name) = GraphName.isBelow base name

namespace Renaming

/-- Every name stays. -/
def same : Renaming where
  map := id
  exact := True
  ordered := True
  exact_of_ordered _ := trivial
  Admits _ := True
  admits_normalize _ := trivial
  map_join _ _ := rfl
  map_inj _ _ h := h
  isBelow_map _ _ _ := rfl

/-- Every name stays, arguments may change their order. -/
def reordered : Renaming :=
  { same with ordered := False, exact_of_ordered := False.elim }

/-- Every name stays, arguments may be bound in another way to the same values. -/
def rebound : Renaming :=
  { same with exact := False, ordered := False, exact_of_ordered := id }

theorem map_rebound : rebound.map = id := rfl

/-- Every name moves under `ns`. -/
def under (ns : String) (hns : GraphName.IsAbsolute ns) : Renaming where
  map := GraphName.reroot ns
  exact := True
  ordered := True
  exact_of_ordered _ := trivial
  Admits := GraphName.IsAbsolute
  admits_normalize := GraphName.isAbsolute_normalize
  map_join hbase name := GraphName.reroot_join hns hbase name
  map_inj ha hb h := GraphName.reroot_inj hns ha hb h
  isBelow_map hbase hroot hname := GraphName.isBelow_reroot hns hbase hroot hname

/-- All joined names go along with a renaming. -/
theorem admits_join (f : Renaming) (base name : String) : f.Admits (GraphName.join base name) :=
  GraphName.join_eq_normalize base name ▸ f.admits_normalize _

/-- A name and what it becomes. -/
structure Sends (f : Renaming) (name name' : String) : Prop where
  eq : name' = f.map name
  admits : f.Admits name

namespace Sends

variable {f : Renaming} {a a' b b' : String}

/-- What lies below two names that go along goes along. -/
theorem join (h : f.Sends a a') (name : String) :
    f.Sends (GraphName.join a name) (GraphName.join a' name) :=
  ⟨by rw [h.eq, f.map_join h.admits], f.admits_join a name⟩

/-- So it is with names further below. -/
theorem joinAll (h : f.Sends a a') (keys : List String) :
    f.Sends (GraphName.joinAll a keys) (GraphName.joinAll a' keys) := by
  induction keys generalizing a a' with
  | nil => exact h
  | cons key keys ih => exact ih (h.join key)

/-- Names that go along are the same on one side just if they are on the other. -/
theorem eq_iff (ha : f.Sends a a') (hb : f.Sends b b') : a' = b' ↔ a = b := by
  rw [ha.eq, hb.eq]
  exact ⟨f.map_inj ha.admits hb.admits, congrArg f.map⟩

end Sends
end Renaming

/-! ## What is recorded -/

namespace ParamSpec

/-- A setting of the renamed parameter. -/
def mapNames (f : String → String) (spec : ParamSpec) : ParamSpec :=
  { spec with name := f spec.name }

theorem mapNames_id : mapNames id = id := rfl

end ParamSpec

namespace RosparamCommand

/-- A command about the renamed name. -/
def mapNames (f : String → String) (command : RosparamCommand) : RosparamCommand :=
  { command with ns := f command.ns }

theorem mapNames_id : mapNames id = id := rfl

end RosparamCommand

namespace NodeSpec

/-- A node under its renamed name, in its renamed namespace and with renamed parameters. -/
def mapNames (f : String → String) (spec : NodeSpec) : NodeSpec :=
  { spec with
    name := f spec.name
    ns := f spec.ns
    remaps := spec.remaps.map (Prod.map f f)
    params := spec.params.map f }

theorem mapNames_id : mapNames id = id :=
  funext fun n => by simp [mapNames]

end NodeSpec

namespace Effect

/-- An effect with all its names renamed. -/
def mapNames (f : String → String) : Effect → Effect
  | .param spec => .param (spec.mapNames f)
  | .rosparam command => .rosparam (command.mapNames f)
  | .machine spec => .machine spec
  | .node spec => .node (spec.mapNames f)

theorem mapNames_id : mapNames id = id := by
  funext effect
  cases effect with
  | param | rosparam | machine => rfl
  | node spec => rw [mapNames, NodeSpec.mapNames_id, id_eq, id_eq]

/-- A renaming is about the names in an effect that are compared with others. -/
def Admitted (f : Renaming) : Effect → Prop
  | .param spec => f.Admits spec.name
  | .node spec => f.Admits spec.name ∧ spec.name ≠ "/"
  | _ => True

end Effect

namespace Log

/-- A log with all its names renamed. -/
def mapNames (f : String → String) (log : Log) : Log :=
  log.map (Effect.mapNames f)

theorem mapNames_id (log : Log) : log.mapNames id = log := by
  rw [mapNames, Effect.mapNames_id, List.map_id]

/-- The settings of a renamed log are renamed settings. -/
theorem params_mapNames (f : String → String) (log : Log) :
    Log.params (log.mapNames f) = (Log.params log).map (ParamSpec.mapNames f) := by
  rw [mapNames, params, params, List.filterMap_map, List.map_filterMap]
  exact congrArg (List.filterMap · log) (funext fun effect => by cases effect <;> rfl)

/-- The commands of a renamed log are renamed commands. -/
theorem commands_mapNames (f : String → String) (log : Log) :
    Log.commands (log.mapNames f) = (Log.commands log).map (RosparamCommand.mapNames f) := by
  rw [mapNames, commands, commands, List.filterMap_map, List.map_filterMap]
  exact congrArg (List.filterMap · log) (funext fun effect => by cases effect <;> rfl)

/-- Machines have no names that are renamed. -/
theorem machines_mapNames (f : String → String) (log : Log) :
    Log.machines (log.mapNames f) = Log.machines log := by
  rw [mapNames, machines, machines, List.filterMap_map]
  exact congrArg (List.filterMap · log) (funext fun effect => by cases effect <;> rfl)

/-- The nodes of a renamed log are renamed nodes. -/
theorem nodes_mapNames (f : String → String) (log : Log) :
    Log.nodes (log.mapNames f) = (Log.nodes log).map (NodeSpec.mapNames f) := by
  rw [mapNames, nodes, nodes, List.filterMap_map, List.map_filterMap]
  exact congrArg (List.filterMap · log) (funext fun effect => by cases effect <;> rfl)

/-- The names of settings in a log are admitted if its effects are. -/
theorem admits_of_mem_params {f : Renaming} {log : Log} (h : ∀ e ∈ log, e.Admitted f)
    {spec : ParamSpec} (hspec : spec ∈ Log.params log) : f.Admits spec.name := by
  obtain ⟨effect, hmem, heffect⟩ := List.mem_filterMap.1 hspec
  cases effect with
  | param spec' => cases heffect; exact h _ hmem
  | rosparam | machine | node => cases heffect

/-- The names of nodes in a log are admitted, and none is the root. -/
theorem admits_of_mem_nodes {f : Renaming} {log : Log} (h : ∀ e ∈ log, e.Admitted f)
    {spec : NodeSpec} (hspec : spec ∈ Log.nodes log) : f.Admits spec.name ∧ spec.name ≠ "/" := by
  obtain ⟨effect, hmem, heffect⟩ := List.mem_filterMap.1 hspec
  cases effect with
  | node spec' => cases heffect; exact h _ hmem
  | param | rosparam | machine => cases heffect

end Log

/-! ## Values under a name -/

namespace ParamSpec

/-- Settings under renamed names. -/
structure Renamed (f : Renaming) (specs specs' : List ParamSpec) : Prop where
  eq : specs' = specs.map (mapNames f.map)
  admits : ∀ spec ∈ specs, f.Admits spec.name

theorem Renamed.nil (f : Renaming) : Renamed f [] [] :=
  ⟨rfl, fun _ h => absurd h List.not_mem_nil⟩

/-- The leaves of a value lie below names that go along if the value does. -/
theorem Renamed.ofValue {f : Renaming} {name name' : String} (h : f.Sends name name')
    (value : ParamValue) (location : Location) :
    Renamed f (ofValue name value location) (ofValue name' value location) := by
  rw [ParamSpec.ofValue, ParamSpec.ofValue, value.unfold_eq, value.unfold_eq, List.map_map,
    List.map_map]
  constructor
  · rw [List.map_map]
    exact List.map_congr_left fun leaf _ =>
      congrArg (ParamSpec.mk · leaf.2 location) (h.joinAll leaf.1).eq
  · intro spec hspec
    obtain ⟨leaf, -, rfl⟩ := List.mem_map.1 hspec
    exact (h.joinAll leaf.1).admits

end ParamSpec

/-! ## Models -/

namespace Model

/-- A model with all its names renamed. -/
def mapNames (f : String → String) (m : Model) : Model :=
  { m with
    nodes := m.nodes.map (NodeSpec.mapNames f)
    parameters := m.parameters.map (ParamSpec.mapNames f)
    commands := m.commands.map (RosparamCommand.mapNames f) }

/-- Renaming nothing changes nothing. -/
theorem mapNames_id (m : Model) : m.mapNames id = m := by
  simp only [mapNames, NodeSpec.mapNames_id, ParamSpec.mapNames_id, RosparamCommand.mapNames_id,
    List.map_id]

/-- A setting takes the place of the same settings under other names. -/
theorem withParam_mapNames (f : Renaming) {parameters : List ParamSpec} {spec : ParamSpec}
    (hparameters : ∀ p ∈ parameters, f.Admits p.name) (hspec : f.Admits spec.name) :
    withParam (parameters.map (ParamSpec.mapNames f.map)) (spec.mapNames f.map) =
      (withParam parameters spec).map (ParamSpec.mapNames f.map) := by
  have hkept : ∀ p ∈ parameters, (f.map p.name != f.map spec.name) = (p.name != spec.name) := by
    intro p hp
    rw [Bool.eq_iff_iff, bne_iff_ne, bne_iff_ne]
    exact not_congr ⟨f.map_inj (hparameters p hp) hspec, congrArg f.map⟩
  rw [withParam, withParam, List.map_append, List.filter_map]
  exact congrArg (fun kept => kept.map (ParamSpec.mapNames f.map) ++ [spec.mapNames f.map])
    (List.filter_congr hkept)

/-- A setting that is added or replaced keeps all names admitted. -/
theorem admits_of_mem_withParam {f : Renaming} {parameters : List ParamSpec} {spec : ParamSpec}
    (hparameters : ∀ p ∈ parameters, f.Admits p.name) (hspec : f.Admits spec.name) :
    ∀ p ∈ withParam parameters spec, f.Admits p.name := by
  intro p hp
  rcases List.mem_append.1 hp with hp | hp
  · exact hparameters p (List.mem_filter.1 hp).1
  · rw [List.mem_singleton.1 hp]
    exact hspec

/-- Settings that follow one another amount to the same under other names. -/
theorem foldl_withParam_mapNames (f : Renaming) :
    ∀ {specs parameters : List ParamSpec}, (∀ p ∈ specs, f.Admits p.name) →
      (∀ p ∈ parameters, f.Admits p.name) →
      (specs.map (ParamSpec.mapNames f.map)).foldl withParam
          (parameters.map (ParamSpec.mapNames f.map)) =
        (specs.foldl withParam parameters).map (ParamSpec.mapNames f.map)
  | [], _, _, _ => rfl
  | spec :: specs, parameters, hspecs, hparameters => by
    have hspec := hspecs spec List.mem_cons_self
    rw [List.map_cons, List.foldl_cons, List.foldl_cons, withParam_mapNames f hparameters hspec]
    exact foldl_withParam_mapNames f (fun p hp => hspecs p (List.mem_cons_of_mem _ hp))
      (admits_of_mem_withParam hparameters hspec)

/-- What is left of settings was among them, or was there before. -/
theorem mem_of_mem_foldl_withParam {p : ParamSpec} :
    ∀ {specs parameters : List ParamSpec},
      p ∈ specs.foldl withParam parameters → p ∈ specs ∨ p ∈ parameters
  | [], _, h => .inr h
  | spec :: specs, parameters, h => by
    rw [List.foldl_cons] at h
    rcases mem_of_mem_foldl_withParam h with h | h
    · exact .inl (List.mem_cons_of_mem _ h)
    · rcases List.mem_append.1 h with h | h
      · exact .inr (List.mem_filter.1 h).1
      · exact .inl (List.mem_singleton.1 h ▸ List.mem_cons_self)

/-- A node lists the same parameters under other names. -/
theorem paramsBelow_mapNames (f : Renaming) {parameters : List ParamSpec} {node : String}
    (hparameters : ∀ p ∈ parameters, f.Admits p.name) (hnode : f.Admits node)
    (hroot : node ≠ "/") :
    paramsBelow (parameters.map (ParamSpec.mapNames f.map)) (f.map node) =
      (paramsBelow parameters node).map f.map := by
  have hbelow : ∀ p ∈ parameters.map ParamSpec.name,
      GraphName.isBelow (f.map node) (f.map p) = GraphName.isBelow node p := by
    intro name hname
    obtain ⟨p, hp, rfl⟩ := List.mem_map.1 hname
    exact f.isBelow_map hnode hroot (hparameters p hp)
  rw [paramsBelow, paramsBelow, List.map_map,
    show ParamSpec.name ∘ ParamSpec.mapNames f.map = f.map ∘ ParamSpec.name from rfl,
    ← List.map_map, List.filter_map]
  exact congrArg (List.map f.map) (List.filter_congr hbelow)

/-- **A renamed log amounts to the renamed model.** -/
theorem ofLog_mapNames (f : Renaming) {log : Log} (hlog : ∀ e ∈ log, e.Admitted f)
    (args : Dict ArgBinding) :
    ofLog (log.mapNames f.map) args = (ofLog log args).mapNames f.map := by
  have hparams : ∀ p ∈ log.params, f.Admits p.name := fun p => Log.admits_of_mem_params hlog
  have hall : ∀ p ∈ log.params.foldl withParam [], f.Admits p.name := fun p hp =>
    (mem_of_mem_foldl_withParam hp).elim (hparams p) (absurd · List.not_mem_nil)
  have hfold := foldl_withParam_mapNames f hparams (fun _ hspec => absurd hspec List.not_mem_nil)
  rw [List.map_nil] at hfold
  simp only [ofLog, Log.params_mapNames, Log.commands_mapNames, Log.machines_mapNames,
    Log.nodes_mapNames, attachParams, recordArgs, mapNames, hfold, List.map_map, Model.mk.injEq,
    and_true]
  refine List.map_congr_left fun n hn => ?_
  obtain ⟨hname, hroot⟩ := Log.admits_of_mem_nodes hlog hn
  simp only [Function.comp_apply, NodeSpec.mapNames, paramsBelow_mapNames f hall hname hroot]

end Model
end LaunchFile
