import LaunchFile.Proofs.Walk.Ending
import LaunchFile.Proofs.Walk.Scopes

/-!
# Proofs/Walk/Trail — what a run passed on its way to an element

The trail of a moment holds the moments of the same file that the run went past on its way there:
those at the earlier siblings of the element at hand and of the elements around it. Going into an
element keeps the trail, an included file begins with an empty one, and nothing that is inside of an
earlier sibling is on it.
-/

namespace LaunchFile

open Moment (InRun)

/-- The run comes to a moment past these moments of the same file. -/
inductive Moment.Trail (w : World) (scope : Scope) (root : Element) (registry : AnonRegistry) :
    Nat → List Moment → Moment → Prop
  | start {inner s} :
    outcome (WalkT.enterRoot w scope root) (.start registry scope) = (.ok (some inner), s) →
    Trail w scope root registry (w.files.size + 1) [] (.children root.tag inner root.children s)
  | past {levels trail parent around e rest s behind t} :
    Trail w scope root registry levels trail (.children parent around (e :: rest) s) →
    outcome (walkElement w (walkFile w levels) parent around e) s = (.ok behind, t) →
    Trail w scope root registry levels (trail ++ [.children parent around (e :: rest) s])
      (.children parent behind rest t)
  | inside {levels trail parent around e rest s inner finish t} :
    Trail w scope root registry levels trail (.children parent around (e :: rest) s) →
    outcome (e.front w parent around) s = (.ok (.inside inner finish), t) →
    Trail w scope root registry levels trail (.children e.tag inner e.children t)
  | file {levels trail parent around e rest s path top t tree inner u} :
    Trail w scope root registry (levels + 1) trail (.children parent around (e :: rest) s) →
    outcome (e.front w parent around) s = (.ok (.file path top), t) →
    readTree w path = .ok tree →
    outcome (WalkT.enterRoot w top tree) (t.opened path) = (.ok (some inner), u) →
    Trail w scope root registry levels [] (.children tree.tag inner tree.children u)

section

variable {w : World} {scope : Scope} {root : Element} {registry : AnonRegistry} {levels : Nat}
  {trail : List Moment} {m : Moment}

namespace Moment.Trail

/-- A trail leads to a moment of the run. -/
theorem inRun (h : Trail w scope root registry levels trail m) :
    InRun w scope root registry levels m := by
  induction h with
  | start hroot => exact .start hroot
  | past _ hwalk ih => exact ih.within (.past hwalk)
  | inside _ hfront ih => exact ih.within (.of_front hfront rfl)
  | file _ hfront htree hroot ih => exact .into (ih.within (.of_front hfront rfl)) htree hroot

end Moment.Trail

/-- The run comes to the opening of a file from an include that a trail leads to. -/
def Moment.HasTrail (w : World) (scope : Scope) (root : Element) (registry : AnonRegistry)
    (levels : Nat) : Moment → Prop
  | .children parent around es s =>
    ∃ trail, Trail w scope root registry levels trail (.children parent around es s)
  | .opening path top t => ∃ trail parent around e rest s,
    Trail w scope root registry levels trail (.children parent around (e :: rest) s) ∧
      outcome (e.front w parent around) s = (.ok (.file path top), t)

/-- **Every moment of a run has a trail.** -/
theorem Moment.InRun.hasTrail (h : InRun w scope root registry levels m) :
    m.HasTrail w scope root registry levels := by
  induction h with
  | start hroot => exact ⟨_, .start hroot⟩
  | @within levels m m' _ hleads ih =>
    cases m with
    | opening => cases hleads
    | children parent around es s =>
      obtain ⟨trail, htrail⟩ := ih
      cases es with
      | nil => cases hleads
      | cons e rest =>
        rcases hleads.past_or_front with ⟨behind, t, hwalk, rfl⟩ | ⟨onward, t, hfront, hm⟩
        · exact ⟨_, htrail.past hwalk⟩
        · cases onward with
          | done behind => cases hm
          | inside inner finish =>
            cases hm
            exact ⟨_, htrail.inside hfront⟩
          | file path top =>
            cases hm
            exact ⟨trail, parent, around, e, rest, s, htrail, hfront⟩
  | into _ htree hroot ih =>
    obtain ⟨_, _, _, _, _, _, htrail, hfront⟩ := ih
    exact ⟨_, htrail.file hfront htree hroot⟩

end
end LaunchFile
