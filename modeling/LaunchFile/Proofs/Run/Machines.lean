import LaunchFile.Proofs.Distinct
import LaunchFile.Proofs.Machine
import LaunchFile.Proofs.Walk.Records
import LaunchFile.Proofs.Walk.Trail
import LaunchFile.Proofs.Walk.View

/-!
# Proofs/Run/Machines — the machines of a model, and those that nodes run on

The machines of a model are those that the elements of the run declare, the first one of each name
(`declaredInRun`), and later declarations agree with these. A node runs on the machine that it
names, else on the default one: that is the last one on its trail that was declared as default
(`defaultMachine`), so it does not depend on what is inside of earlier siblings or in other files.
-/

namespace LaunchFile

open Moment (InRun Trail)

section

variable {w : World} {parent : String} {scope behind : Scope} {e root : Element}
  {es rest : List Element} {s t : WalkState} {onward : Onward} {registry : AnonRegistry}
  {levels : Nat} {trail : List Moment} {m : Moment} {spec : MachineSpec}

/-! ## Default machines -/

/-- The run launches this node because of an element that it comes to past these moments. -/
def LaunchedPast (w : World) (scope : Scope) (root : Element) (registry : AnonRegistry)
    (trail : List Moment) (e : Element) (node : NodeSpec) : Prop :=
  ∃ levels parent around rest s spec behind,
    Trail w scope root registry levels trail (.children parent around (e :: rest) s) ∧
      (Moment.children parent around (e :: rest) s).Launches w (walkFile w levels) spec behind ∧
        node = { spec with params := node.params }

/-- All nodes of a model are launched by elements of the run. -/
theorem exists_launchedPast {args : Dict ArgBinding} {node : NodeSpec}
    (h : node ∈ (Model.ofLog (walked w scope root registry).2.log args).nodes) :
    ∃ trail e, LaunchedPast w scope root registry trail e node := by
  obtain ⟨spec, hspec, rfl⟩ := List.mem_map.1 h
  obtain ⟨levels, m, log, effects, hm, hemits, hmem⟩ :=
    InRun.exists_emits (Log.mem_nodes.1 hspec)
  obtain ⟨last, hlaunches⟩ := hemits.launches hmem
  cases hlaunches with
  | mk isTest hpart henter hinside =>
    obtain ⟨trail, htrail⟩ := hm.hasTrail
    exact ⟨trail, _, levels, _, _, _, _, _, _, htrail, .mk isTest hpart henter hinside, rfl⟩

end

end LaunchFile
