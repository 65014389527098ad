import LaunchFile.Proofs.Walk.Onward

/-!
# Proofs/Walk/Course — the moments of a run in document order

The course of a walk lists the moments that it goes through in document order, each included file in
the place of its include (`Course.ofChildren`, `Course.ofFile`). The course of a run lists all of
its moments and nothing else (`Course.mem_ofRun`).
-/

namespace LaunchFile

open Moment (InRun)

/-- Moments in document order, each with the number of levels that files may still nest. -/
abbrev Course := List (Nat × Moment)

/-- How the course of an included file is listed, from its path, its top scope and the state. -/
abbrev FileCourse := Path → Scope → WalkState → Course

namespace Course

section

variable (w : World) (levels : Nat) (inFile : FileCourse)

mutual

/-- The course of what is left of an element. -/
def ofElement (parent : String) (scope : Scope) (s : WalkState) : Element → Course
  | .mk tag attrs children text location =>
    let e : Element := .mk tag attrs children text location
    match outcome (e.front w parent scope) s with
    | (.ok (.inside inner _), t) => ofChildren tag inner t children
    | (.ok (.file path top), t) => (levels, .opening path top t) :: inFile path top t
    | _ => []

/-- The course of some children: each of them, then what is left of it. -/
def ofChildren (parent : String) (scope : Scope) (s : WalkState) : List Element → Course
  | [] => [(levels, .children parent scope [] s)]
  | e :: rest =>
    (levels, .children parent scope (e :: rest) s) :: (ofElement parent scope s e ++
      match outcome (walkElement w (walkFile w levels) parent scope e) s with
      | (.ok behind, t) => ofChildren parent behind t rest
      | _ => [])

end

/-- The course of a whole tree. -/
def ofRoot (scope : Scope) (root : Element) (s : WalkState) : Course :=
  match outcome (WalkT.enterRoot w scope root) s with
  | (.ok (some inner), t) => ofChildren w levels inFile root.tag inner t root.children
  | _ => []

end

/-- The course of a file. -/
def ofFile (w : World) : Nat → FileCourse
  | 0 => fun _ _ _ => []
  | levels + 1 => fun path top s =>
    match readTree w path with
    | .ok tree => ofRoot w levels (ofFile w levels) top tree (s.opened path)
    | .error _ => []

/-- The course of a run. -/
def ofRun (w : World) (scope : Scope) (root : Element) (registry : AnonRegistry) : Course :=
  ofRoot w (w.files.size + 1) (ofFile w (w.files.size + 1)) scope root (.start registry scope)

section

variable {w : World} {levels : Nat} {inFile : FileCourse} {parent : String} {scope : Scope}
  {e root : Element} {es rest : List Element} {s t : WalkState} {onward : Onward} {m : Moment}
  {registry : AnonRegistry} {c c' : Course}

/-! ## Parts -/

/-- What is left of an element has a course. -/
def ofOnward (w : World) (levels : Nat) (inFile : FileCourse) (e : Element) (s : WalkState) :
    Onward → Course
  | .done _ => []
  | .inside inner _ => ofChildren w levels inFile e.tag inner s e.children
  | .file path top => (levels, .opening path top s) :: inFile path top s

/-- An element whose front is done goes on with what it leads to. -/
theorem ofElement_of_front (h : outcome (e.front w parent scope) s = (.ok onward, t)) :
    ofElement w levels inFile parent scope s e = ofOnward w levels inFile e t onward := by
  cases e
  rw [ofElement, h]
  cases onward <;> rfl

/-- Behind a child come its later siblings. -/
theorem ofChildren_of_ok {behind : Scope}
    (h : outcome (walkElement w (walkFile w levels) parent scope e) s = (.ok behind, t)) :
    ofChildren w levels inFile parent scope s (e :: rest) =
      (levels, .children parent scope (e :: rest) s) ::
        (ofElement w levels inFile parent scope s e ++
          ofChildren w levels inFile parent behind t rest) := by
  rw [ofChildren, h]

/-- A file that is read goes on with its root. -/
theorem ofFile_of_ok {path : Path} {top : Scope} {tree : Element}
    (htree : readTree w path = .ok tree) :
    ofFile w (levels + 1) path top s =
      ofRoot w levels (ofFile w levels) top tree (s.opened path) := by
  rw [ofFile]
  dsimp only
  rw [htree]

/-- A file that is not read has no course. -/
theorem ofFile_of_error {path : Path} {top : Scope} {err : LaunchError}
    (htree : readTree w path = .error err) : ofFile w (levels + 1) path top s = [] := by
  rw [ofFile]
  dsimp only
  rw [htree]

/-- The moment at some children is on their course. -/
theorem mem_ofChildren_self : (levels, .children parent scope es s) ∈
    ofChildren w levels inFile parent scope s es := by
  cases es <;> rw [ofChildren] <;> exact List.mem_cons_self

/-! ## Closed courses -/

/-- The moments of a course lead to moments of it, also into the files that are opened. -/
structure Closed (w : World) (c : Course) : Prop where
  leads : ∀ {levels m m'}, (levels, m) ∈ c → m.Leads w (walkFile w levels) m' → (levels, m') ∈ c
  into : ∀ {levels path top s tree inner t}, (levels + 1, .opening path top s) ∈ c →
    readTree w path = .ok tree →
    outcome (WalkT.enterRoot w top tree) (s.opened path) = (.ok (some inner), t) →
    (levels, .children tree.tag inner tree.children t) ∈ c

theorem Closed.nil : Closed w [] :=
  ⟨nofun, nofun⟩

/-- Closed courses may be put behind one another. -/
theorem Closed.append (h : Closed w c) (h' : Closed w c') : Closed w (c ++ c') where
  leads hm hleads := (List.mem_append.1 hm).elim
    (fun hm => List.mem_append_left _ (h.leads hm hleads))
    (fun hm => List.mem_append_right _ (h'.leads hm hleads))
  into hm htree hroot := (List.mem_append.1 hm).elim
    (fun hm => List.mem_append_left _ (h.into hm htree hroot))
    (fun hm => List.mem_append_right _ (h'.into hm htree hroot))

/-- A moment at the front leads to what follows it. -/
theorem Closed.cons (h : Closed w c)
    (hleads : ∀ m', m.Leads w (walkFile w levels) m' → (levels, m') ∈ c)
    (hinto : ∀ {below path top s tree inner t}, (levels, m) = (below + 1, .opening path top s) →
      readTree w path = .ok tree →
      outcome (WalkT.enterRoot w top tree) (s.opened path) = (.ok (some inner), t) →
      (below, .children tree.tag inner tree.children t) ∈ c) :
    Closed w ((levels, m) :: c) where
  leads hm hnext := by
    rcases List.mem_cons.1 hm with hm | hm
    · cases hm
      exact List.mem_cons_of_mem _ (hleads _ hnext)
    · exact List.mem_cons_of_mem _ (h.leads hm hnext)
  into hm htree hroot := by
    rcases List.mem_cons.1 hm with hm | hm
    · exact List.mem_cons_of_mem _ (hinto hm.symm htree hroot)
    · exact List.mem_cons_of_mem _ (h.into hm htree hroot)

/-- The courses of included files are closed, with the openings of the files. -/
def ClosedFiles (w : World) (levels : Nat) (inFile : FileCourse) : Prop :=
  ∀ path top s, Closed w ((levels, .opening path top s) :: inFile path top s)

mutual

/-- The course of an element is closed; the induction is on the tree. -/
theorem closed_ofElement (hfile : ClosedFiles w levels inFile) : ∀ (e : Element) {parent : String}
    {scope : Scope} {s : WalkState}, Closed w (ofElement w levels inFile parent scope s e)
  | .mk tag attrs children text location, parent, scope, s => by
    rw [ofElement]
    split
    · exact closed_ofChildren hfile children
    · exact hfile ..
    · exact .nil

theorem closed_ofChildren (hfile : ClosedFiles w levels inFile) : ∀ (es : List Element)
    {parent : String} {scope : Scope} {s : WalkState},
    Closed w (ofChildren w levels inFile parent scope s es)
  | [], _, _, _ => by
    rw [ofChildren]
    exact .cons .nil (fun _ hleads => nomatch hleads) (fun heq => nomatch heq)
  | e :: rest, parent, scope, s => by
    rw [ofChildren]
    refine .cons (.append (closed_ofElement hfile e) ?_) (fun m hleads => ?_)
      (fun heq => nomatch heq)
    · split
      · exact closed_ofChildren hfile rest
      · exact .nil
    · rcases hleads.past_or_front with ⟨behind, t, hwalk, rfl⟩ | ⟨onward, t, hfront, hm⟩
      · rw [hwalk]
        exact List.mem_append_right _ mem_ofChildren_self
      · refine List.mem_append_left _ ?_
        rw [ofElement_of_front hfront]
        cases onward with
        | done behind => cases hm
        | inside inner finish =>
          cases hm
          exact mem_ofChildren_self
        | file path top =>
          cases hm
          exact List.mem_cons_self

end

/-- The course of a root is closed. -/
theorem closed_ofRoot (hfile : ClosedFiles w levels inFile) :
    Closed w (ofRoot w levels inFile scope root s) := by
  rw [ofRoot]
  split
  · exact closed_ofChildren hfile _
  · exact .nil

/-- The courses of files are closed. The induction is on the levels. -/
theorem closed_ofFile : ∀ levels, ClosedFiles w levels (ofFile w levels)
  | 0, _, _, _ => .cons .nil (fun _ hleads => nomatch hleads) (fun heq => nomatch heq)
  | levels + 1, path, top, s => by
    have hclosed : Closed w (ofFile w (levels + 1) path top s) := by
      cases htree : readTree w path with
      | ok tree => exact ofFile_of_ok htree ▸ closed_ofRoot (closed_ofFile levels)
      | error err => exact ofFile_of_error htree ▸ .nil
    refine hclosed.cons (fun _ hleads => nomatch hleads) fun heq htree hroot => ?_
    cases heq
    rw [ofFile_of_ok htree, ofRoot, hroot]
    exact mem_ofChildren_self

/-! ## The moments of a run -/

/-- What is listed for included files are moments of the run. -/
def FilesInRun (w : World) (scope : Scope) (root : Element) (registry : AnonRegistry)
    (levels : Nat) (inFile : FileCourse) : Prop :=
  ∀ {path top s}, InRun w scope root registry levels (.opening path top s) →
    ∀ p ∈ inFile path top s, InRun w scope root registry p.1 p.2

mutual

/-- All moments on the course of an element are in the run that it is in. -/
theorem inRun_of_mem_ofElement (hfile : FilesInRun w scope root registry levels inFile) :
    ∀ (e : Element) {rest : List Element} {parent : String} {scope' : Scope} {s : WalkState},
      InRun w scope root registry levels (.children parent scope' (e :: rest) s) →
      ∀ p ∈ ofElement w levels inFile parent scope' s e, InRun w scope root registry p.1 p.2
  | .mk tag attrs children text location, rest, parent, scope', s, hm, p, hp => by
    rw [ofElement] at hp
    split at hp
    · rename_i hfront
      exact inRun_of_mem_ofChildren hfile children (hm.within (.of_front hfront rfl)) p hp
    · rename_i hfront
      have hopening := hm.within (.of_front hfront rfl)
      rcases List.mem_cons.1 hp with rfl | hp
      · exact hopening
      · exact hfile hopening p hp
    · cases hp

theorem inRun_of_mem_ofChildren (hfile : FilesInRun w scope root registry levels inFile) :
    ∀ (es : List Element) {parent : String} {scope' : Scope} {s : WalkState},
      InRun w scope root registry levels (.children parent scope' es s) →
      ∀ p ∈ ofChildren w levels inFile parent scope' s es, InRun w scope root registry p.1 p.2
  | [], parent, scope', s, hm, p, hp => by
    rw [ofChildren] at hp
    cases List.mem_singleton.1 hp
    exact hm
  | e :: rest, parent, scope', s, hm, p, hp => by
    rw [ofChildren] at hp
    rcases List.mem_cons.1 hp with rfl | hp
    · exact hm
    · rcases List.mem_append.1 hp with hp | hp
      · exact inRun_of_mem_ofElement hfile e hm p hp
      · split at hp
        · rename_i hwalk
          exact inRun_of_mem_ofChildren hfile rest (hm.within (.past hwalk)) p hp
        · cases hp

end

/-- All moments on the course of a file are in the run that opens it. -/
theorem filesInRun_ofFile : ∀ levels, FilesInRun w scope root registry levels (ofFile w levels)
  | 0, _, _, _, _, _, hp => nomatch hp
  | levels + 1, path, top, s, hm, p, hp => by
    cases htree : readTree w path with
    | error err =>
      rw [ofFile_of_error htree] at hp
      cases hp
    | ok tree =>
      rw [ofFile_of_ok htree, ofRoot] at hp
      split at hp
      · rename_i hroot
        exact inRun_of_mem_ofChildren (filesInRun_ofFile levels) _ (hm.into htree hroot) p hp
      · cases hp

/-- **The course of a run lists the moments of the run.** -/
theorem mem_ofRun : (levels, m) ∈ ofRun w scope root registry ↔
    InRun w scope root registry levels m := by
  constructor
  · intro hp
    rw [ofRun, ofRoot] at hp
    split at hp
    · rename_i hroot
      exact inRun_of_mem_ofChildren (filesInRun_ofFile _) _ (.start hroot) _ hp
    · cases hp
  · intro h
    have hclosed : Closed w (ofRun w scope root registry) := closed_ofRoot (closed_ofFile _)
    induction h with
    | start hroot =>
      rw [ofRun, ofRoot, hroot]
      exact mem_ofChildren_self
    | within _ hleads ih => exact hclosed.leads ih hleads
    | into _ htree hroot ih => exact hclosed.into ih htree hroot

end
end Course

end LaunchFile
