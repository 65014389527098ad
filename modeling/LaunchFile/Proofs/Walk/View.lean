import LaunchFile.Proofs.Walk.Course
import LaunchFile.Proofs.Walk.Ending
import LaunchFile.Proofs.Walk.Readings

/-!
# Proofs/Walk/View — what a run comes to by going through its course

What elements record by themselves depends on the moment only. A part of the log that is made of
that alone (`Log.View`) is, behind a walk, what going through the course of the walk makes of it
(`View.of_walked`).
-/

namespace LaunchFile

/-! ## Views -/

/-- A part of logs that elements make by themselves only: what an element makes of it at a
moment. -/
structure Log.View {β : Type} (w : World) (view : Log → β) (step : β → Moment → β) : Prop where
  front : ∀ {parent scope e rest s onward t}, outcome (e.front w parent scope) s = (.ok onward, t) →
    view t.log = step (view s.log) (.children parent scope (e :: rest) s)
  node : ∀ log spec, view (log ++ [.node spec]) = view log
  idle : ∀ b parent scope s, step b (.children parent scope [] s) = b
  opening : ∀ b path top s, step b (.opening path top s) = b

/-- What is made going through a course. -/
def Course.through {β : Type} (step : β → Moment → β) (c : Course) (b : β) : β :=
  c.foldl (fun b p => step b p.2) b

section

variable {β : Type} {w : World} {view : Log → β} {step : β → Moment → β} {levels : Nat}
  {inFile : FileCourse} {parent : String} {scope inner behind : Scope} {e root : Element}
  {s t : WalkState} {registry : AnonRegistry} {finish : Scope → Log} {b : β} {c c' : Course}
  {m : Moment}

theorem Course.through_cons : through step ((levels, m) :: c) b = through step c (step b m) := rfl

theorem Course.through_append :
    through step (c ++ c') b = through step c' (through step c b) :=
  List.foldl_append

/-- Behind its children an element records a node at most. -/
theorem Element.finish_of_front
    (h : outcome (e.front w parent scope) s = (.ok (.inside inner finish), t)) (behind : Scope) :
    finish behind = [] ∨ ∃ spec, finish behind = [.node spec] := by
  obtain ⟨found, _, _, h⟩ := outcome_bind_eq_ok h
  cases found with
  | none => cases h
  | some tag =>
    cases tag with
    | arg | remap | env | machine | param | rosparam | «include» =>
      obtain ⟨_, _, _, h⟩ := outcome_bind_eq_ok h
      cases h
    | group =>
      obtain ⟨_, _, _, h⟩ := outcome_bind_eq_ok h
      cases h
      exact .inl rfl
    | node | test =>
      obtain ⟨node, _, _, h⟩ := outcome_bind_eq_ok h
      cases h
      exact .inr ⟨_, rfl⟩

theorem log_of_enterRoot {found : Option Scope}
    (h : outcome (WalkT.enterRoot w scope root) s = (.ok found, t)) : t.log = s.log := by
  obtain ⟨_, u, hcheck, hrest⟩ := outcome_bind_eq_ok h
  obtain ⟨_, rfl⟩ := eq_ok_of_outcome hcheck
  obtain ⟨active, v, hactive, hfound⟩ := outcome_bind_eq_ok hrest
  have hlog := WalkT.log_of_ofLaunch hactive
  cases active <;> cases hfound <;> exact hlog

namespace Log.View

/-- A way to walk included files comes to what their courses make. -/
def OfFiles (w : World) (view : Log → β) (step : β → Moment → β) (levels : Nat)
    (inFile : FileCourse) : Prop :=
  ∀ {path top s t}, outcome (walkFile w levels path top) s = (.ok (), t) →
    view t.log = (inFile path top s).through step (view s.log)

mutual

theorem of_walkElement (h : View w view step) (hfile : OfFiles w view step levels inFile) :
    ∀ (e : Element) (rest : List Element) {parent : String} {scope behind : Scope}
      {s t : WalkState},
      outcome (walkElement w (walkFile w levels) parent scope e) s = (.ok behind, t) →
      view t.log = (Course.ofElement w levels inFile parent scope s e).through step
        (step (view s.log) (.children parent scope (e :: rest) s))
  | .mk tag attrs children text location, rest, parent, scope, behind, s, t, hwalk => by
    obtain ⟨onward, u, hfront, hwalk⟩ := exists_front_of_walkElement hwalk
    rw [Course.ofElement_of_front hfront, ← h.front hfront]
    cases onward with
    | done behind =>
      cases hwalk
      rfl
    | inside inner finish =>
      obtain ⟨last, v, hinside, hwalk⟩ := outcome_bind_eq_ok hwalk
      cases hwalk
      -- A node is recorded behind its children only, but no view depends on nodes.
      have hfinish : view (v.log ++ finish last) = view v.log := by
        rcases Element.finish_of_front hfront last with hnone | ⟨spec, hnode⟩
        · rw [hnone, List.append_nil]
        · rw [hnode, h.node]
      exact hfinish.trans (of_walkChildren h hfile children hinside)
    | file path top =>
      obtain ⟨_, v, henter, hwalk⟩ := outcome_bind_eq_ok hwalk
      cases hwalk
      rw [Course.ofOnward, Course.through_cons, h.opening]
      exact hfile henter

/-- **A walk of some children comes to what their course makes.** The induction is on the tree. -/
theorem of_walkChildren (h : View w view step) (hfile : OfFiles w view step levels inFile) :
    ∀ (es : List Element) {parent : String} {scope behind : Scope} {s t : WalkState},
      outcome (walkChildren w (walkFile w levels) parent scope es) s = (.ok behind, t) →
      view t.log = (Course.ofChildren w levels inFile parent scope s es).through step (view s.log)
  | [], _, _, _, _, _, hwalk => by
    rw [walkChildren] at hwalk
    cases hwalk
    rw [Course.ofChildren, Course.through_cons, h.idle]
    rfl
  | e :: rest, _, _, _, _, _, hwalk => by
    rw [walkChildren] at hwalk
    obtain ⟨behind, u, helement, hwalk⟩ := outcome_bind_eq_ok hwalk
    rw [Course.ofChildren_of_ok helement, Course.through_cons, Course.through_append,
      ← of_walkElement h hfile e rest helement]
    exact of_walkChildren h hfile rest hwalk

end

theorem of_walkRoot (h : View w view step) (hfile : OfFiles w view step levels inFile)
    (hwalk : outcome (walkRoot w (walkFile w levels) scope root) s = (.ok behind, t)) :
    view t.log = (Course.ofRoot w levels inFile scope root s).through step (view s.log) := by
  obtain ⟨found, u, hroot, hwalk⟩ := outcome_bind_eq_ok hwalk
  rw [Course.ofRoot, hroot, ← log_of_enterRoot hroot]
  cases found with
  | none =>
    cases hwalk
    rfl
  | some inner => exact h.of_walkChildren hfile _ hwalk

/-- Included files come to what their courses make. The induction is on the levels. -/
theorem of_walkFile (h : View w view step) :
    ∀ levels, OfFiles w view step levels (Course.ofFile w levels)
  | 0, _, _, _, _, hwalk => nomatch hwalk
  | levels + 1, path, top, s, t, hwalk => by
    obtain ⟨tree, u, hread, hopen⟩ := outcome_bind_eq_ok hwalk
    obtain ⟨htree, rfl⟩ := eq_ok_of_outcome hread
    obtain ⟨behind, v, hwithin, hend⟩ := outcome_bind_eq_ok hopen
    cases hend
    rw [WalkT.outcome_within] at hwithin
    have hresult : (outcome (walkRoot w (walkFile w levels) top tree) (u.opened path)).1 =
        .ok behind := congrArg Prod.fst hwithin
    have hclosed : (outcome (walkRoot w (walkFile w levels) top tree) (u.opened path)).2.closed =
        t := congrArg Prod.snd hwithin
    have hlog := h.of_walkRoot (of_walkFile h levels) (Prod.ext hresult rfl)
    rw [← hclosed, Course.ofFile_of_ok htree]
    exact hlog

/-- **A run comes to what its course makes.** -/
theorem of_walked (h : View w view step) (hwalk : (walked w scope root registry).1 = .ok behind) :
    view (walked w scope root registry).2.log =
      (Course.ofRun w scope root registry).through step (view []) :=
  h.of_walkRoot (h.of_walkFile _) (Prod.ext hwalk rfl)

end Log.View

end
end LaunchFile
