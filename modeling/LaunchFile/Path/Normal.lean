import LaunchFile.Path

/-!
# Path/Normal — a normalized path is its start and its steps

The steps of a path that was put together from steps are these steps (`stepsOf_written`), and the
steps that normalizing keeps are kept again (`foldl_normalizeStep_reverse`). So a normalized path
stays as it is, and two normalized paths with the same steps from the same start are one path.
-/

namespace LaunchFile.Path

/-! ## Steps -/

/-- A step leads somewhere and has no slash in it. -/
def IsStep (piece : List Char) : Prop :=
  isIdle piece = false ∧ '/' ∉ piece

/-- No step is empty. -/
theorem IsStep.ne_nil {piece : List Char} (h : IsStep piece) : piece ≠ [] := by
  rintro rfl
  exact absurd h.1 (by decide)

/-- The pieces of a path that are kept are steps. -/
theorem isStep_of_mem_stepsOf {cs piece : List Char} (h : piece ∈ stepsOf cs) : IsStep piece := by
  rw [stepsOf, Text.splitWhere_eq_splitOnP, List.mem_filter] at h
  exact ⟨by simpa using h.2, Text.notMem_of_mem_splitOnP h.1⟩

/-- Steps are all kept. -/
theorem filter_isIdle {steps : List (List Char)} (h : ∀ p ∈ steps, IsStep p) :
    steps.filter (! isIdle ·) = steps :=
  List.filter_eq_self.2 fun p hp => by rw [(h p hp).1, Bool.not_false]

/-- The steps of steps with slashes between them. -/
theorem stepsOf_intercalate {steps : List (List Char)} (h : ∀ p ∈ steps, IsStep p) :
    stepsOf (List.intercalate ['/'] steps) = steps := by
  cases steps with
  | nil => rfl
  | cons step rest =>
    rw [stepsOf, Text.splitWhere_eq_splitOnP, ← List.splitOn_eq_splitOnP,
      List.splitOn_intercalate '/' (fun p hp => (h p hp).2) (List.cons_ne_nil _ _),
      filter_isIdle h]

theorem stepsOf_slash_cons (cs : List Char) : stepsOf ('/' :: cs) = stepsOf cs := rfl

/-- **A path that was put together from steps has these steps.** -/
theorem stepsOf_written (absolute : Bool) {steps : List (List Char)} (h : ∀ p ∈ steps, IsStep p) :
    stepsOf (written absolute steps) = steps := by
  cases absolute with
  | true => exact (stepsOf_slash_cons _).trans (stepsOf_intercalate h)
  | false => exact stepsOf_intercalate h

/-- Steps that are written down are absolute as asked for. -/
theorem absoluteChars_written (absolute : Bool) {steps : List (List Char)}
    (h : ∀ p ∈ steps, IsStep p) : absoluteChars (written absolute steps) = absolute := by
  cases absolute with
  | true => rfl
  | false =>
    match steps with
    | [] => rfl
    | [] :: _ => exact absurd rfl (h [] List.mem_cons_self).ne_nil
    | (c :: cs) :: rest =>
      have hc : c ≠ '/' := fun heq => (h _ List.mem_cons_self).2 (heq ▸ List.mem_cons_self)
      cases rest <;> simp [written, absoluteChars, hc]

/-! ## Kept steps -/

/-- Steps that normalizing keeps, last one first: none but the first of them leads up. -/
def Kept (done : List (List Char)) : Prop :=
  ∀ step ∈ done.dropLast, isUp step = false

theorem kept_nil : Kept [] :=
  fun _ hmem => absurd hmem List.not_mem_nil

/-- A step more keeps the order of steps. -/
theorem Kept.normalizeStep {done : List (List Char)} (h : Kept done) (step : List Char) :
    Kept (normalizeStep done step) := by
  unfold Path.normalizeStep
  split
  · cases done with
    | nil => exact fun _ hmem => absurd hmem List.not_mem_nil
    | cons last before =>
      intro s hs
      cases before with
      | nil => exact absurd hs List.not_mem_nil
      | cons b rest => exact h s (List.mem_cons_of_mem _ hs)
  · rename_i hdown
    cases done with
    | nil => exact fun _ hmem => absurd hmem List.not_mem_nil
    | cons last before =>
      exact List.forall_mem_cons.2 ⟨by simpa using hdown, h⟩

theorem Kept.foldl {done : List (List Char)} (h : Kept done) (steps : List (List Char)) :
    Kept (steps.foldl Path.normalizeStep done) := by
  induction steps generalizing done with
  | nil => exact h
  | cons step rest ih => exact ih (h.normalizeStep step)

/-- **Kept steps are kept again.** -/
theorem foldl_normalizeStep_reverse {done : List (List Char)} (h : Kept done) :
    done.reverse.foldl normalizeStep [] = done := by
  induction done with
  | nil => rfl
  | cons step before ih =>
    cases before with
    | nil => simp [normalizeStep]
    | cons last rest =>
      have hdown : isUp step = false := h step List.mem_cons_self
      have hbefore : Kept (last :: rest) := fun s hs => h s (List.mem_cons_of_mem _ hs)
      rw [List.reverse_cons, List.foldl_append, ih hbefore]
      simp [normalizeStep, hdown]

/-- What is kept was a step before. -/
theorem mem_foldl_normalizeStep {p : List Char} : ∀ {steps done : List (List Char)},
    p ∈ steps.foldl normalizeStep done → p ∈ steps ∨ p ∈ done
  | [], _, h => .inr h
  | step :: rest, done, h => by
    rw [List.foldl_cons] at h
    rcases mem_foldl_normalizeStep h with h | h
    · exact .inl (List.mem_cons_of_mem _ h)
    · unfold normalizeStep at h
      split at h
      · cases done with
        | nil => exact .inl (List.mem_singleton.1 h ▸ List.mem_cons_self)
        | cons last before => exact .inr (List.mem_cons_of_mem _ h)
      · rcases List.mem_cons.1 h with rfl | h
        · exact .inl List.mem_cons_self
        · exact .inr h

/-! ## Normal form -/

/-- The steps that normalizing keeps, in order. -/
def keptSteps (cs : List Char) : List (List Char) :=
  ((stepsOf cs).foldl normalizeStep []).reverse

/-- What is kept of a path are steps. -/
theorem isStep_of_mem_keptSteps {cs p : List Char} (h : p ∈ keptSteps cs) : IsStep p := by
  rcases mem_foldl_normalizeStep (List.mem_reverse.1 h) with h | h
  · exact isStep_of_mem_stepsOf h
  · exact absurd h List.not_mem_nil

/-- The steps of a normal form are those that were kept. -/
theorem stepsOf_normalizeChars (cs : List Char) : stepsOf (normalizeChars cs) = keptSteps cs :=
  stepsOf_written _ fun _ => isStep_of_mem_keptSteps

/-- A normal form is absolute if the path is. -/
theorem absoluteChars_normalizeChars (cs : List Char) :
    absoluteChars (normalizeChars cs) = absoluteChars cs :=
  absoluteChars_written _ fun _ => isStep_of_mem_keptSteps

/-- **Normalizing twice is normalizing once.** -/
theorem normalizeChars_normalizeChars (cs : List Char) :
    normalizeChars (normalizeChars cs) = normalizeChars cs := by
  have hkept := kept_nil.foldl (stepsOf cs)
  conv => lhs; rw [normalizeChars]
  rw [absoluteChars_normalizeChars, stepsOf_normalizeChars, keptSteps,
    foldl_normalizeStep_reverse hkept, normalizeChars]

/-- A path in normal form. -/
def IsNormal (p : Path) : Prop :=
  p.normalize = p

/-- **Normalizing a normalized path changes nothing.** -/
theorem isNormal_normalize (p : Path) : IsNormal p.normalize := by
  rw [IsNormal, normalize, normalize, String.toList_ofList, normalizeChars_normalizeChars]

/-- A reference that is resolved is normal. -/
theorem isNormal_resolve (reference : String) (base : Option Path) :
    IsNormal (resolve reference base) := by
  unfold resolve
  split <;> exact isNormal_normalize _

/-- The text of a normalized path: its start and its steps. -/
theorem IsNormal.toList_eq {p : Path} (h : IsNormal p) :
    p.text.toList = written (absoluteChars p.text.toList) (stepsOf p.text.toList) := by
  have htext : p.text.toList = normalizeChars p.text.toList := by
    conv => lhs; rw [← h]
    rw [normalize, String.toList_ofList]
  conv => lhs; rw [htext, normalizeChars]
  conv => rhs; rw [htext, absoluteChars_normalizeChars, stepsOf_normalizeChars]
  rfl

/-- No step of a normalized path but the first leads up. -/
theorem IsNormal.isUp_of_mem_tail {p : Path} (h : IsNormal p) {step : List Char}
    (hstep : step ∈ (stepsOf p.text.toList).tail) : isUp step = false := by
  have hkept : stepsOf p.text.toList = keptSteps p.text.toList := by
    rw [← stepsOf_normalizeChars]
    conv => lhs; rw [← h]
    rw [normalize, String.toList_ofList]
  rw [hkept, keptSteps, List.tail_reverse, List.mem_reverse] at hstep
  exact kept_nil.foldl _ step hstep

/-- A path is absolute if it begins with a slash. -/
theorem absoluteChars_iff_lead (cs : List Char) : absoluteChars cs = true ↔ lead cs = ['/'] := by
  unfold absoluteChars lead
  split <;> split <;> simp_all

/-- A path is the same as itself. -/
theorem sameAs_self (p : Path) : p.sameAs p = true := by
  rw [sameAs, Bool.and_eq_true, beq_self_eq_true, beq_self_eq_true]
  exact ⟨rfl, rfl⟩

/-- **Normalized paths that lead the same way are one path.** -/
theorem sameAs_iff {p q : Path} (hp : IsNormal p) (hq : IsNormal q) :
    p.sameAs q = true ↔ p = q := by
  constructor
  · intro h
    rw [sameAs, Bool.and_eq_true, beq_iff_eq, beq_iff_eq] at h
    have habsolute : absoluteChars p.text.toList = absoluteChars q.text.toList := by
      rw [Bool.eq_iff_iff, absoluteChars_iff_lead, absoluteChars_iff_lead, h.1]
    have htext : p.text = q.text := by
      rw [← String.toList_inj, hp.toList_eq, hq.toList_eq, habsolute, h.2]
    cases p
    cases q
    exact congrArg Path.mk htext
  · rintro rfl
    exact sameAs_self p

theorem absoluteChars_iff_exists {cs : List Char} :
    absoluteChars cs = true ↔ ∃ rest, cs = '/' :: rest := by
  unfold absoluteChars
  split <;> simp_all

end LaunchFile.Path
