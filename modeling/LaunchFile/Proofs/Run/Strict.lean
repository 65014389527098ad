import LaunchFile.Proofs.Run.Gates

/-!
# Proofs/Run/Strict — runs that refuse unknown elements and runs that skip them

Whether an element that its parent does not allow is an error decides nothing else. A run that
refuses such elements follows the run that skips them up to the first of them that it comes to, and
stops there with the error of that element; if it comes to none, the two runs are the same.
-/

namespace LaunchFile

open Moment (InRun)

/-- Runs that match under the same names are one run, or the first has an excused error. -/
theorem Outcome.Agree.eq_or_excused {σ : Type} {excused : LaunchError → Prop}
    {o o' : Except LaunchError Model × σ}
    (h : Outcome.Agree excused Eq (fun m m' => m' = m.mapNames Renaming.same.map) o o') :
    o = o' ∨ ∃ err, o.1 = .error err ∧ excused err := by
  rcases o with ⟨err | m, s⟩ <;> rcases o' with ⟨err' | m', s'⟩
  · rcases h with hexcused | ⟨rfl, rfl⟩
    · exact .inr ⟨err, rfl, hexcused⟩
    · exact .inl rfl
  · exact .inr ⟨err, rfl, h⟩
  · exact h.elim
  · obtain ⟨rfl, rfl⟩ := h
    exact .inl (congrArg (fun m => (Except.ok m, s)) m.mapNames_id.symm)

/-- The error of an element that some moment of the run of a tree refuses. -/
def World.RefusedInRun (w : World) (scope : Scope) (root : Element) (registry : AnonRegistry)
    (err : LaunchError) : Prop :=
  ∃ levels, Moment.RefusedIn w (InRun w scope root registry levels) err

/-- A refused element is of a tag that its parent does not allow, and the error says so and where
the element stands. -/
theorem World.RefusedInRun.exists_element {w : World} {scope : Scope} {root : Element}
    {registry : AnonRegistry} {err : LaunchError} (h : w.RefusedInRun scope root registry err) :
    ∃ parent e, Element.Refused parent e err := by
  obtain ⟨_, m, _, hrefuses⟩ := h
  match m, hrefuses with
  | .children parent _ (e :: _) _, .inl hself => exact ⟨parent, e, hself⟩
  | .children _ _ (_ :: _) _, .inr ⟨_, _, c, _, hchild⟩ => exact ⟨"include", c, hchild⟩

/-- The error of a refused element has a place, and no other is put upon it. -/
theorem World.excusedAnywhere_refusedInRun (w : World) (scope : Scope) (root : Element)
    (registry : AnonRegistry) : ExcusedAnywhere (w.RefusedInRun scope root registry) := by
  intro location err h
  obtain ⟨_, _, _, rfl⟩ := h.exists_element
  exact h

/-- What is said of the moments of a run is handed on from one to the next. -/
theorem Regions.inRun (w : World) (scope : Scope) (root : Element) (registry : AnonRegistry) :
    Regions .same w (InRun w scope root registry) where
  region _ :=
    { closed := .within
      names := fun _ _ => Moment.namesAre_of_forall (fun _ => .inr rfl) w _ }
  into := .into

/-- A tree that is walked strictly and leniently. -/
theorem interpretTree_strict_or (w : World) (scope : Scope) (root : Element)
    (registry : AnonRegistry) :
    let strict := outcome (interpretTree { w with strict := true } scope root) registry
    strict = outcome (interpretTree { w with strict := false } scope root) registry ∨
      ∃ err, strict.1 = .error err ∧
        World.RefusedInRun { w with strict := true } scope root registry err := by
  let v : World := { w with strict := true }
  have hexcuses : v.Excuses false (v.RefusedInRun scope root registry)
      (v.RefusedInRun scope root registry) := .inr ⟨rfl, fun _ => id⟩
  exact (interpretTree_agree trivial (Regions.inRun v scope root registry) hexcuses
    (v.excusedAnywhere_refusedInRun scope root registry) (.same scope) (.refl root) registry
    .start).eq_or_excused

/-- **Strict and lenient runs** of trees and of texts. A run that refuses unknown elements ends as
the run that skips them does, in the same model or in the same error with the same place, or it ends
in the error of an element that it comes to and that its parent does not allow, at the place of that
element. -/
theorem interpret_strict (w : World) :
    (∀ scope root registry,
      let strict := outcome (interpretTree { w with strict := true } scope root) registry
      strict = outcome (interpretTree { w with strict := false } scope root) registry ∨
        ∃ err, strict.1 = .error err ∧
          World.RefusedInRun { w with strict := true } scope root registry err) ∧
    (∀ file args source registry,
      let strict := outcome (interpretText { w with strict := true } file args source) registry
      strict = outcome (interpretText { w with strict := false } file args source) registry ∨
        ∃ root err, Element.parse source file = .ok root ∧ strict.1 = .error err ∧
          World.RefusedInRun { w with strict := true } (topScope file args) root registry err) := by
  refine ⟨interpretTree_strict_or w, fun file args source registry => ?_⟩
  cases hparse : Element.parse source file with
  | error err =>
    rw [interpretText_of_error hparse, interpretText_of_error hparse]
    exact .inl rfl
  | ok root =>
    rw [interpretText_of_ok hparse, interpretText_of_ok hparse]
    refine (interpretTree_strict_or w (topScope file args) root registry).imp_right ?_
    exact fun ⟨err, herr, hrefused⟩ => ⟨root, err, rfl, herr, hrefused⟩

end LaunchFile
