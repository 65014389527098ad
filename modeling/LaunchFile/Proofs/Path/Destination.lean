import LaunchFile.Proofs.Path
import Mathlib.Algebra.Ring.Int.Defs

/-!
# Proofs/Path/Destination — where a path leads, before and after normalizing

A path leads from a directory to another, component by component (`destination`). Normalizing takes
each step up back together with the step before it, and that step may be a step up itself; then the
two are lost together. So a normalized path leads where the path leads from every directory exactly
if the path is absolute or never gets more than one directory above where it starts
(`destination_normalize_iff`).
-/

namespace LaunchFile.Path

/-! ## Destinations -/

/-- A directory: the names that lead to it from the root. -/
abbrev Directory := List (List Char)

/-- Where one component leads: an empty one and a dot stay, two dots lead up unless at the root,
and a name leads down. -/
def follow (directory : Directory) (component : List Char) : Directory :=
  if isIdle component then directory
  else if isUp component then directory.dropLast
  else directory ++ [component]

/-- Where a path leads from a directory; an absolute one leads from the root. -/
def destination (start : Directory) (p : Path) : Directory :=
  (Text.splitWhere (· == '/') p.text.toList).foldl follow (if p.isAbsolute then [] else start)

/-- How far a step leads down: one directory, or up by one. -/
def slope (step : List Char) : Int :=
  if isUp step then -1 else 1

/-- How far steps lead down on the whole. -/
def descent (steps : List (List Char)) : Int :=
  (steps.map slope).sum

/-- On no part of its way does a path lead more than one directory above where it starts. -/
def RisesAtMostOne (p : Path) : Prop :=
  ∀ taken, taken <+: stepsOf p.text.toList → -1 ≤ descent taken

@[simp] theorem descent_nil : descent [] = 0 := rfl

@[simp] theorem descent_cons (step : List Char) (steps : List (List Char)) :
    descent (step :: steps) = slope step + descent steps :=
  List.sum_cons

theorem descent_reverse (steps : List (List Char)) : descent steps.reverse = descent steps := by
  rw [descent, descent, List.map_reverse, List.sum_reverse]

theorem slope_of_isUp {step : List Char} (h : isUp step = true) : slope step = -1 :=
  if_pos h

theorem slope_of_isUp_eq_false {step : List Char} (h : isUp step = false) : slope step = 1 :=
  if_neg (by simp [h])

theorem follow_of_isUp {step : List Char} (h : isUp step = true) (directory : Directory) :
    follow directory step = directory.dropLast := by
  obtain rfl : step = ['.', '.'] := by simpa [isUp] using h
  rfl

theorem follow_of_isStep {step : List Char} (h : IsStep step) (hdown : isUp step = false)
    (directory : Directory) : follow directory step = directory ++ [step] := by
  rw [follow, h.1, hdown]
  rfl

/-- Components that are no steps lead nowhere. -/
theorem foldl_follow_stepsOf (cs : List Char) (start : Directory) :
    (Text.splitWhere (· == '/') cs).foldl follow start = (stepsOf cs).foldl follow start := by
  rw [stepsOf, List.foldl_filter]
  congr 1
  funext directory component
  cases hidle : isIdle component with
  | true => rw [follow, hidle]; rfl
  | false => rfl

theorem destination_eq (start : Directory) (p : Path) :
    destination start p =
      (stepsOf p.text.toList).foldl follow (if p.isAbsolute then [] else start) :=
  foldl_follow_stepsOf _ _

theorem destination_normalize (start : Directory) (p : Path) :
    destination start p.normalize =
      (keptSteps p.text.toList).foldl follow (if p.isAbsolute then [] else start) := by
  rw [destination_eq, normalize, isAbsolute, String.toList_ofList, stepsOf_normalizeChars,
    absoluteChars_normalizeChars]
  rfl

/-! ## One step of normalizing -/

/-- **What normalizing does with a step.** It keeps it, or takes back the name before it, or loses
two steps up. -/
theorem normalizeStep_cases {done : List (List Char)} (h : Kept done) (step : List Char) :
    normalizeStep done step = step :: done ∨
    (∃ name before, isUp step = true ∧ isUp name = false ∧ done = name :: before ∧
      normalizeStep done step = before) ∨
    ∃ up, isUp step = true ∧ isUp up = true ∧ done = [up] ∧ normalizeStep done step = [] := by
  unfold normalizeStep
  cases hstep : isUp step with
  | false => exact .inl rfl
  | true =>
    cases done with
    | nil => exact .inl rfl
    | cons last before =>
      cases hlast : isUp last with
      | false => exact .inr (.inl ⟨last, before, rfl, hlast, rfl, rfl⟩)
      | true =>
        obtain rfl : before = [] := by
          cases before with
          | nil => rfl
          | cons next rest => simp [h last List.mem_cons_self] at hlast
        exact .inr (.inr ⟨last, rfl, hlast, rfl, rfl⟩)

/-- Kept steps lead up by one directory at most. -/
theorem neg_one_le_descent : ∀ {done : List (List Char)}, Kept done → -1 ≤ descent done
  | [], _ => by decide
  | [step], _ => by
    rw [descent_cons, descent_nil, slope]
    split <;> omega
  | step :: last :: before, h => by
    have ih : -1 ≤ descent (last :: before) :=
      neg_one_le_descent fun s hs => h s (List.mem_cons_of_mem _ hs)
    rw [descent_cons, slope_of_isUp_eq_false (h step List.mem_cons_self)]
    omega

/-- **A step counts as it is as long as the way does not lead too far up**; if it does, two steps up
are lost. -/
theorem descent_normalizeStep {done : List (List Char)} (h : Kept done) (step : List Char) :
    descent (normalizeStep done step) = descent done + slope step ∧ -1 ≤ descent done + slope step ∨
      descent (normalizeStep done step) = descent done + slope step + 2 ∧
        descent done + slope step = -2 := by
  have hleast := neg_one_le_descent (h.normalizeStep step)
  rcases normalizeStep_cases h step with
    hkept | ⟨name, before, hup, hname, rfl, hback⟩ | ⟨up, hup, hup', rfl, hlost⟩
  · rw [hkept, descent_cons] at hleast ⊢
    omega
  · rw [hback] at hleast ⊢
    rw [descent_cons, slope_of_isUp hup, slope_of_isUp_eq_false hname]
    omega
  · rw [hlost, descent_cons, descent_nil, slope_of_isUp hup, slope_of_isUp hup']
    omega

/-- **A step leads from what was kept to what is kept**, unless two steps up are lost below the
root. -/
theorem foldl_follow_normalizeStep {done : List (List Char)} (h : Kept done)
    (hdone : ∀ s ∈ done, IsStep s) (step : List Char) {start : Directory}
    (hfar : start = [] ∨ -1 ≤ descent done + slope step) :
    (normalizeStep done step).reverse.foldl follow start =
      follow (done.reverse.foldl follow start) step := by
  rcases normalizeStep_cases h step with
    hkept | ⟨name, before, hup, hname, rfl, hback⟩ | ⟨up, hup, hup', rfl, hlost⟩
  · rw [hkept, List.reverse_cons, List.foldl_append]
    rfl
  · rw [hback, List.reverse_cons, List.foldl_append, follow_of_isUp hup]
    simp [follow_of_isStep (hdone name List.mem_cons_self) hname]
  · rcases hfar with rfl | hfar
    · simp [hlost, follow_of_isUp hup, follow_of_isUp hup']
    · simp [slope_of_isUp hup, slope_of_isUp hup'] at hfar

/-! ## All steps -/

/-- **Kept steps lead where the steps lead**, from the root or when the way never leads too far
up. -/
theorem foldl_follow_foldl : ∀ {steps done : List (List Char)}, Kept done →
    (∀ s ∈ done, IsStep s) → (∀ s ∈ steps, IsStep s) → ∀ {start : Directory},
    (start = [] ∨ ∀ taken, taken <+: steps → -1 ≤ descent done + descent taken) →
    (steps.foldl normalizeStep done).reverse.foldl follow start =
      steps.foldl follow (done.reverse.foldl follow start)
  | [], _, _, _, _, _, _ => rfl
  | step :: rest, done, h, hdone, hsteps, start, hfar => by
    have hfirst : start = [] ∨ -1 ≤ descent done + slope step :=
      hfar.imp_right fun hfar => by simpa using hfar [step] (by simp)
    have hmem : ∀ s ∈ normalizeStep done step, IsStep s := fun s hs =>
      (mem_foldl_normalizeStep hs : s ∈ [step] ∨ s ∈ done).elim
        (fun hs => List.mem_singleton.1 hs ▸ hsteps step List.mem_cons_self) (hdone s)
    have hrest : start = [] ∨ ∀ taken, taken <+: rest →
        -1 ≤ descent (normalizeStep done step) + descent taken := by
      refine hfar.imp_right fun hfar taken htaken => ?_
      have hwhole := hfar (step :: taken) (by simpa using htaken)
      rw [descent_cons] at hwhole
      rcases descent_normalizeStep h step with ⟨hnear, -⟩ | ⟨hlost, -⟩ <;> omega
    rw [List.foldl_cons, List.foldl_cons, foldl_follow_foldl (h.normalizeStep step) hmem
      (fun s hs => hsteps s (List.mem_cons_of_mem _ hs)) hrest,
      foldl_follow_normalizeStep h hdone step hfirst]

theorem descent_le_foldl : ∀ {steps done : List (List Char)}, Kept done →
    descent done + descent steps ≤ descent (steps.foldl normalizeStep done)
  | [], done, _ => by simp
  | step :: rest, done, h => by
    have hrest : _ + descent rest ≤ _ := descent_le_foldl (h.normalizeStep step)
    rw [List.foldl_cons, descent_cons]
    rcases descent_normalizeStep h step with ⟨hnear, -⟩ | ⟨hlost, -⟩ <;> omega

/-- **A way that leads too far up loses steps up.** -/
theorem descent_lt_foldl : ∀ {steps done taken : List (List Char)}, Kept done →
    taken <+: steps → descent done + descent taken < -1 →
    descent done + descent steps < descent (steps.foldl normalizeStep done)
  | _, done, [], h, _, hfar => by
    have := neg_one_le_descent h
    rw [descent_nil] at hfar
    omega
  | [], _, _ :: _, _, htaken, _ => absurd htaken (by simp)
  | step :: rest, done, first :: taken, h, htaken, hfar => by
    obtain ⟨rfl, hprefix⟩ := List.cons_prefix_cons.1 htaken
    rw [List.foldl_cons, descent_cons]
    rw [descent_cons] at hfar
    rcases descent_normalizeStep h first with ⟨hnear, -⟩ | ⟨hlost, -⟩
    · have ih := descent_lt_foldl (h.normalizeStep first) hprefix (by omega)
      omega
    · have hrest : _ + descent rest ≤ _ := descent_le_foldl (h.normalizeStep first)
      omega

/-- Deep enough below the root, each step counts. -/
theorem length_foldl_follow : ∀ {steps : List (List Char)} {start : Directory},
    (∀ s ∈ steps, IsStep s) → steps.length ≤ start.length →
    ((steps.foldl follow start).length : Int) = start.length + descent steps
  | [], start, _, _ => by simp
  | step :: rest, start, hsteps, hdeep => by
    have hrest : ∀ s ∈ rest, IsStep s := fun s hs => hsteps s (List.mem_cons_of_mem _ hs)
    rw [List.length_cons] at hdeep
    rw [List.foldl_cons, descent_cons]
    cases hup : isUp step with
    | true =>
      have hshorter : start.dropLast.length = start.length - 1 := List.length_dropLast
      rw [follow_of_isUp hup, slope_of_isUp hup, length_foldl_follow hrest (by omega), hshorter]
      omega
    | false =>
      have hlonger : (start ++ [step]).length = start.length + 1 := by simp
      rw [follow_of_isStep (hsteps step List.mem_cons_self) hup, slope_of_isUp_eq_false hup,
        length_foldl_follow hrest (by omega), hlonger]
      omega

/-! ## Whole paths -/

/-- A path that gets too far above where it starts leads elsewhere when it is normalized, from a
directory that is deep enough. -/
theorem exists_destination_normalize_ne {p : Path} (hrelative : p.isAbsolute = false)
    {taken : List (List Char)} (htaken : taken <+: stepsOf p.text.toList)
    (hfar : descent taken < -1) :
    ∃ start, destination start p.normalize ≠ destination start p := by
  let steps := stepsOf p.text.toList
  let kept := keptSteps p.text.toList
  have hlost : descent steps < descent kept := by
    have h := descent_lt_foldl kept_nil htaken (by simpa using hfar)
    rw [descent_nil, Int.zero_add] at h
    exact (descent_reverse _).symm ▸ h
  let start : Directory := List.replicate (steps.length + kept.length) ['d']
  have hsteps : ((steps.foldl follow start).length : Int) = start.length + descent steps :=
    length_foldl_follow (fun s hs => isStep_of_mem_stepsOf hs) (by simp [start])
  have hkept : ((kept.foldl follow start).length : Int) = start.length + descent kept :=
    length_foldl_follow (fun s hs => isStep_of_mem_keptSteps hs) (by simp [start])
  refine ⟨start, fun heq => ?_⟩
  rw [destination_normalize, destination_eq, if_neg (by simp [hrelative])] at heq
  rw [heq, hsteps] at hkept
  omega

/-- **Normalizing keeps where a path leads, from every directory, exactly if the path is absolute or
never gets more than one directory above where it starts.** -/
theorem destination_normalize_iff (p : Path) :
    (∀ start, destination start p.normalize = destination start p) ↔
      p.isAbsolute = true ∨ p.RisesAtMostOne := by
  constructor
  · intro hkeeps
    by_contra hnot
    obtain ⟨habsolute, hrises⟩ := not_or.1 hnot
    simp only [RisesAtMostOne, not_forall, Int.not_le] at hrises
    obtain ⟨taken, htaken, hfar⟩ := hrises
    obtain ⟨start, hne⟩ :=
      exists_destination_normalize_ne (by simpa using habsolute) htaken hfar
    exact hne (hkeeps start)
  · intro h start
    rw [destination_normalize, destination_eq, keptSteps]
    refine foldl_follow_foldl kept_nil (List.forall_mem_nil _)
      (fun s hs => isStep_of_mem_stepsOf hs) ?_
    rcases h with habsolute | hrises
    · exact .inl (if_pos habsolute)
    · exact .inr fun taken htaken => by simpa using hrises taken htaken

/-- Two steps up are lost: from `/a/b` they lead to the root, and what is left of them nowhere. -/
theorem destination_normalize_up_up :
    destination [['a'], ['b']] ⟨"../.."⟩ = [] ∧
      destination [['a'], ['b']] (normalize ⟨"../.."⟩) = [['a'], ['b']] := by
  decide

end LaunchFile.Path
