import LaunchFile.Proofs.Document
import LaunchFile.Proofs.Walk.Ending

/-!
# Proofs/Walk/Failing — the elements that fail, and where their errors end up

An element fails by itself if it does before anything inside of it is walked, or if the file that it
includes is not found; a file fails by itself if it has no launch tree or its root fails
(`Moment.Fails`). The error of what fails by itself is that of the whole run (`Fails.ends`); and if
a run fails, something that it comes to fails by itself (`enterRoot_or_failsInRun_of_walked`).
-/

namespace LaunchFile

open Moment (InRun)

/-! ## Failing -/

/-- A file is found, and is not looked into. -/
def WalkT.findFile (w : World) : Nat → EnterFile
  | 0 => refuseFile
  | _ + 1 => fun path _ => do
    let _ ← w.files.readText path

/-- A text is read, and its root is entered. -/
def WalkT.enterText (w : World) (scope : Scope) (text : String) (label : Option Path) :
    WalkM (Option Scope) := do
  let root ← Element.parse text label
  enterRoot w scope root

/-- What is next at a moment fails by itself, with this error. -/
inductive Moment.Fails (w : World) : Nat → Moment → LaunchError → Prop
  | front {levels parent scope e rest s err t} :
    outcome (e.front w parent scope) s = (.error err, t) →
    Fails w levels (.children parent scope (e :: rest) s) (err.locate e.location)
  /-- The file of an include is not found. -/
  | unfound {levels parent scope e rest s path top t err u} :
    outcome (e.front w parent scope) s = (.ok (.file path top), t) →
    outcome (WalkT.findFile w levels path top) t = (.error err, u) →
    Fails w levels (.children parent scope (e :: rest) s) (err.locate e.location)
  | text {levels path top s text err t} : w.files.readText path = .ok text →
    outcome (WalkT.enterText w top text (some path)) (s.opened path) = (.error err, t) →
    Fails w (levels + 1) (.opening path top s) err

section

variable {w : World} {levels : Nat} {parent : String} {scope top : Scope} {e root : Element}
  {rest : List Element} {s t : WalkState} {err : LaunchError} {registry : AnonRegistry}
  {path : Path} {text : String} {label : Option Path} {m : Moment}

/-! ## Places -/

/-- The error of what an element does by itself gets the place of the element or of a child. -/
theorem LaunchError.IsOwn.place_locate {chain : List Path} (h : err.IsOwn chain e) :
    ∃ x ∈ e :: e.children, (err.locate e.location).location = some x.location := by
  rw [location_locate]
  cases hplace : err.location with
  | none => exact ⟨e, List.mem_cons_self, rfl⟩
  | some place =>
    obtain ⟨x, hx, rfl⟩ := h.place hplace
    exact ⟨x, hx, rfl⟩

/-- The error of a root has a place. -/
theorem exists_place_of_enterRoot
    (h : outcome (WalkT.enterRoot w scope root) s = (.error err, t)) :
    ∃ place, err.location = some place := by
  rcases outcome_bind_eq_error h with hcheck | ⟨_, u, _, h⟩
  · have herror := (eq_error_of_outcome hcheck).1
    unfold Element.checkRoot at herror
    split at herror
    · cases herror
    · exact Except.error.inj herror ▸ ⟨_, rfl⟩
  · rcases outcome_bind_eq_error h with hactive | ⟨active, _, _, h⟩
    · obtain ⟨inner, _, rfl⟩ := outcome_adapt_eq_error (WalkT.error_of_ofLaunch hactive)
      exact ⟨_, inner.location_locate _⟩
    · cases active <;> cases h

/-- **A text that fails by itself fails at one of its elements**, or as it is not well formed. -/
theorem standsIn_of_enterText
    (h : outcome (WalkT.enterText w scope text label) s = (.error err, t)) :
    err.StandsIn text label := by
  rcases outcome_bind_eq_error h with hparse | ⟨root, u, hparse, h⟩
  · exact Element.standsIn_of_parse (eq_error_of_outcome hparse).1
  · have hroot := Element.ofText?_of_parse (eq_ok_of_outcome hparse).1
    obtain ⟨place, hplace⟩ := exists_place_of_enterRoot h
    obtain ⟨x, hx, rfl⟩ := (keeps_enterRoot.of_error (.refl u) h).place _ hplace
    rcases List.mem_cons.1 hx with rfl | hx
    · exact .element hroot .root hplace
    · exact .element hroot (.child .root hx) hplace

/-- A file that is not found is so without a place. -/
theorem location_of_findFile
    (h : outcome (WalkT.findFile w levels path top) s = (.error err, t)) : err.location = none := by
  cases levels with
  | zero =>
    cases h
    rfl
  | succ levels =>
    rcases outcome_bind_eq_error h with hread | ⟨_, _, _, h⟩
    · have herror := (eq_error_of_outcome hread).1
      unfold Files.readText at herror
      cases htext : w.files.text path <;> rw [htext] at herror
      · exact Except.error.inj herror ▸ rfl
      · cases herror
    · cases h

/-- **What fails by itself has a place.** -/
theorem Moment.Fails.exists_place (h : m.Fails w levels err) :
    ∃ place, err.location = some place := by
  cases h with
  | front _ => exact ⟨_, LaunchError.location_locate ..⟩
  | unfound _ _ => exact ⟨_, LaunchError.location_locate ..⟩
  | text _ h => exact (standsIn_of_enterText h).exists_location.imp fun _ => And.left

/-! ## Endings -/

/-- A file that is not found cannot be walked. -/
theorem outcome_walkFile_of_findFile
    (h : outcome (WalkT.findFile w levels path top) s = (.error err, t)) :
    outcome (walkFile w levels path top) s = (.error err, t) := by
  cases levels with
  | zero => exact h
  | succ levels =>
    rcases outcome_bind_eq_error h with hread | ⟨_, _, _, h⟩
    · obtain ⟨herror, rfl⟩ := eq_error_of_outcome hread
      rw [walkFile, walkNested, openFile, readTree, herror]
      rfl
    · cases h

theorem readTree_of_readText (hread : w.files.readText path = .ok text) :
    readTree w path = Element.parse text (some path) := by
  rw [readTree, hread]
  rfl

/-- Nor can a file whose text fails. -/
theorem outcome_walkFile_of_enterText (hread : w.files.readText path = .ok text)
    (h : outcome (WalkT.enterText w top text (some path)) (s.opened path) = (.error err, t)) :
    (outcome (walkFile w (levels + 1) path top) s).1 = .error err := by
  rw [walkFile, walkNested, openFile, readTree_of_readText hread]
  rcases outcome_bind_eq_error h with hparse | ⟨root, u, hparse, h⟩
  · rw [(eq_error_of_outcome hparse).1]
    rfl
  · obtain ⟨hroot, rfl⟩ := eq_ok_of_outcome hparse
    have hwithin : outcome (WalkT.within path (walkRoot w (walkFile w levels) top root)) s =
        (.error err, t.closed) := by
      rw [WalkT.outcome_within, walkRoot, outcome_bind_error h]
    rw [hroot]
    refine (congrArg Prod.fst (outcome_bind_ok (x := liftM (Except.ok root)) rfl _)).trans ?_
    exact congrArg Prod.fst (outcome_bind_error hwithin _)

/-- **The error of what fails by itself is passed on unchanged.** -/
theorem Moment.Fails.ends {α : Type} {o : Except LaunchError α × WalkState}
    (h : m.Fails w levels err) (hm : m.PassesOn w (walkFile w levels) o) : o.1 = .error err := by
  obtain ⟨place, hplace⟩ := h.exists_place
  have hstep : ∀ {parent scope e rest s},
      Moment.PassesOn w (walkFile w levels) o (.children parent scope (e :: rest) s) →
      (outcome (walkElement w (walkFile w levels) parent scope e) s).1 = .error err →
      o.1 = .error err :=
    fun hm hwalk => ((passesOn_walkChildren ..).trans hm).error err place hwalk hplace
  cases h with
  | front h =>
    refine hstep hm ?_
    rw [walkElement_front, WalkT.located, outcome_adapt, outcome_bind_error h]
    rfl
  | unfound hfront hfind =>
    refine hstep hm ?_
    rw [walkElement_front, WalkT.located, outcome_adapt, outcome_bind_ok hfront, Onward.walk,
      outcome_bind_error (outcome_walkFile_of_findFile hfind)]
    rfl
  | text hread h => exact hm.error err place (outcome_walkFile_of_enterText hread h) hplace

/-! ## Origins -/

/-- Something that a run comes to fails by itself, with this error. -/
def FailsInRun (w : World) (scope : Scope) (root : Element) (registry : AnonRegistry)
    (err : LaunchError) : Prop :=
  ∃ levels m, InRun w scope root registry levels m ∧ m.Fails w levels err

/-- No place is put on an error of what fails by itself. -/
theorem FailsInRun.locate (h : FailsInRun w scope root registry err) (location : Location) :
    FailsInRun w scope root registry (err.locate location) := by
  obtain ⟨levels, m, hm, hfails⟩ := h
  obtain ⟨place, hplace⟩ := hfails.exists_place
  rw [LaunchError.locate_of_location hplace]
  exact ⟨levels, m, hm, hfails⟩

/-- With these levels left, a file that fails is not found or has its error from something that
fails by itself. -/
def FilesFail (w : World) (scope : Scope) (root : Element) (registry : AnonRegistry)
    (levels : Nat) : Prop :=
  ∀ {path top s err t}, InRun w scope root registry levels (.opening path top s) →
    outcome (walkFile w levels path top) s = (.error err, t) →
    outcome (WalkT.findFile w levels path top) s = (.error err, t) ∨
      FailsInRun w scope root registry err

mutual

/-- An element that fails does so by itself, or inside. The induction is on the tree. -/
theorem failsInRun_of_walkElement (hfile : FilesFail w scope root registry levels) :
    ∀ (e : Element) {rest : List Element} {parent : String} {scope' : Scope} {s t : WalkState}
      {err : LaunchError},
      InRun w scope root registry levels (.children parent scope' (e :: rest) s) →
      outcome (walkElement w (walkFile w levels) parent scope' e) s = (.error err, t) →
      FailsInRun w scope root registry err
  | .mk tag attrs children text location, rest, parent, scope', s, t, err, hm, h => by
    rw [walkElement_front] at h
    obtain ⟨err, hown, rfl⟩ := outcome_adapt_eq_error h
    rcases outcome_bind_eq_error hown with hfront | ⟨onward, u, hfront, h⟩
    · exact ⟨levels, _, hm, .front hfront⟩
    · cases onward with
      | done behind => cases h
      | inside inner finish =>
        have hinside := hm.within (.of_front hfront rfl)
        rcases outcome_bind_eq_error h with hwalk | ⟨_, _, _, h⟩
        · exact (failsInRun_of_walkChildren hfile children hinside hwalk).locate location
        · cases h
      | file path top =>
        have hopening := hm.within (.of_front hfront rfl)
        rcases outcome_bind_eq_error h with henter | ⟨_, _, _, h⟩
        · rcases hfile hopening henter with hfind | hfails
          · exact ⟨levels, _, hm, .unfound hfront hfind⟩
          · exact hfails.locate location
        · cases h

theorem failsInRun_of_walkChildren (hfile : FilesFail w scope root registry levels) :
    ∀ (es : List Element) {parent : String} {scope' : Scope} {s t : WalkState}
      {err : LaunchError}, InRun w scope root registry levels (.children parent scope' es s) →
      outcome (walkChildren w (walkFile w levels) parent scope' es) s = (.error err, t) →
      FailsInRun w scope root registry err
  | [], _, _, _, _, _, _, h => by
    rw [walkChildren] at h
    cases h
  | e :: rest, parent, scope', s, t, err, hm, h => by
    rw [walkChildren] at h
    rcases outcome_bind_eq_error h with hwalk | ⟨behind, u, hwalk, h⟩
    · exact failsInRun_of_walkElement hfile e hm hwalk
    · exact failsInRun_of_walkChildren hfile rest (hm.within (.past hwalk)) h

end

/-- A tree fails at its root, or something that its run comes to fails by itself. -/
theorem enterRoot_or_failsInRun {top : Scope} {tree : Element}
    (hfile : FilesFail w scope root registry levels)
    (hchildren : ∀ {inner t}, outcome (WalkT.enterRoot w top tree) s = (.ok (some inner), t) →
      InRun w scope root registry levels (.children tree.tag inner tree.children t))
    (h : outcome (walkRoot w (walkFile w levels) top tree) s = (.error err, t)) :
    (∃ u, outcome (WalkT.enterRoot w top tree) s = (.error err, u)) ∨
      FailsInRun w scope root registry err := by
  rcases outcome_bind_eq_error h with hroot | ⟨found, u, hroot, h⟩
  · exact .inl ⟨t, hroot⟩
  · cases found with
    | none => cases h
    | some inner => exact .inr (failsInRun_of_walkChildren hfile _ (hchildren hroot) h)

/-- Included files fail so. The induction is on the levels. -/
theorem filesFail : ∀ levels, FilesFail w scope root registry levels
  | 0, _, _, _, _, _, _, h => .inl h
  | levels + 1, path, top, s, err, t, hm, h => by
    rw [walkFile, walkNested, openFile] at h
    cases htext : w.files.readText path with
    | error err' =>
      rw [readTree, htext] at h
      cases h
      refine .inl ?_
      rw [WalkT.findFile]
      dsimp only
      rw [htext]
      rfl
    | ok text =>
      refine .inr ?_
      have htree := readTree_of_readText htext
      rw [htree] at h
      have hfails : ∀ {u}, outcome (WalkT.enterText w top text (some path)) (s.opened path) =
          (.error err, u) → FailsInRun w scope root registry err :=
        fun henter => ⟨levels + 1, _, hm, .text htext henter⟩
      rcases outcome_bind_eq_error h with hparse | ⟨tree, u, hparse, hopen⟩
      · refine hfails (u := s.opened path) (outcome_bind_error ?_ _)
        rw [(eq_error_of_outcome hparse).1]
        rfl
      · obtain ⟨hparse, hu⟩ := eq_ok_of_outcome hparse
        rw [hu] at hopen
        rcases outcome_bind_eq_error hopen with hwithin | ⟨_, _, _, hnone⟩
        · rw [WalkT.outcome_within] at hwithin
          have hresult : (outcome (walkRoot w (walkFile w levels) top tree) (s.opened path)).1 =
              .error err := congrArg Prod.fst hwithin
          rcases enterRoot_or_failsInRun (filesFail levels) (hm.into (htree.trans hparse))
            (Prod.ext hresult rfl) with ⟨u, henter⟩ | hinside
          · refine hfails (u := u) ?_
            rw [WalkT.enterText, hparse]
            exact henter
          · exact hinside
        · cases hnone

/-- **A run that fails** does so at its root, or something that it comes to fails by itself. -/
theorem enterRoot_or_failsInRun_of_walked
    (h : (walked w scope root registry).1 = .error err) :
    (∃ u, outcome (WalkT.enterRoot w scope root) (.start registry scope) = (.error err, u)) ∨
      FailsInRun w scope root registry err :=
  enterRoot_or_failsInRun (filesFail _) .start (Prod.ext h rfl)

end
end LaunchFile
