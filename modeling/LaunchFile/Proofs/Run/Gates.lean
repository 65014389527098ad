import LaunchFile.Proofs.Walk.Run

/-!
# Proofs/Run/Gates — conditions only decide what takes part

A condition that is a boolean as it stands can be settled before the run: no element looks at its
own condition while it is read, an element that is off changes neither the scope nor the log, and
what a scope keeps of a condition has no say in any result.
-/

namespace LaunchFile

/-- Runs that match under the same names are one run. -/
theorem Outcome.Agree.eq_of_same {σ : Type} {o o' : Except LaunchError Model × σ}
    (h : Outcome.Agree (fun _ => False) Eq (fun m m' => m' = m.mapNames Renaming.same.map) o o') :
    o' = o := by
  have hsame : Model.mapNames Renaming.same.map = id := funext Model.mapNames_id
  have heq := h.eq_map
  rwa [hsame, Except.map_id] at heq

/-- Where no name changes, all names go along. -/
theorem Regions.whole {f : Renaming} (hf : f.map = id) (w : World) :
    Regions f w fun _ _ => True where
  region _ :=
    { closed := fun _ _ => trivial
      names := fun _ _ => Moment.namesAre_of_forall (fun _ => .inr hf) w _ }
  into _ _ _ := trivial

/-- **Literal conditions act as gates only.** A tree gives the model or the error, with its place,
that it gives when every element below its root that is allowed where it stands and has one
condition, with a literal boolean, is taken out if it is off and freed of the condition if it is
on; whatever the files, packages, variables, arguments, and whether unknown elements are refused. -/
theorem interpretTree_ungated (w : World) (scope : Scope) (root : Element) :
    interpretTree w scope root.ungated = interpretTree w scope root := by
  funext registry
  exact (interpretTree_agree trivial (Regions.whole rfl w) (w.excuses_self _) excusedAnywhere_false
    (Scope.Renamed.same scope) (Element.Alike.ungated root) registry fun _ => trivial).eq_of_same

end LaunchFile
