import LaunchFile.Expr.Eval

/-!
# Proofs/Expr/Booleans — booleans as numbers

Operators and comparisons ask an operand for its numeric view, in which a boolean is 0 or 1, unless
both operands are strings. The one place that looks at the operands themselves is the repetition of
strings, where the count has to be a number: there, and nowhere else, a boolean cannot stand for the
number that it counts as (`bool_counts_iff`).
-/

namespace LaunchFile.Expr

/-! ## Outcomes up to wording -/

/-- What kind of error an error is, whatever it says. -/
inductive ErrorKind where
  | invalid
  | unknownIdentifier
  | unknownFunction
  | arity
  | typeMismatch
  | divisionByZero
  | overflow
  | lookup
  | doubleUnderscore
  deriving DecidableEq

def EvalError.kind : EvalError → ErrorKind
  | .invalid .. => .invalid
  | .unknownIdentifier _ => .unknownIdentifier
  | .unknownFunction _ => .unknownFunction
  | .arity .. => .arity
  | .typeMismatch _ => .typeMismatch
  | .divisionByZero => .divisionByZero
  | .overflow => .overflow
  | .lookup _ => .lookup
  | .doubleUnderscore _ => .doubleUnderscore

/-- Both are the same result, or both are errors of one kind. -/
def SameOutcome {α : Type} (x y : Except EvalError α) : Prop :=
  x.mapError EvalError.kind = y.mapError EvalError.kind

/-! ## What a value counts as -/

/-- A value may count as itself, and a boolean as the number that it stands for. -/
inductive CountsAs : Value → Value → Prop where
  | self (v : Value) : CountsAs v v
  | bool (b : Bool) : CountsAs (.bool b) (.int (if b then 1 else 0))

def Value.isString : Value → Bool
  | .str _ => true
  | _ => false

/-- A string is repeated, and the boolean that was its count has become a number. -/
def RepeatsByBool (op : BinaryOp) (v v' w w' : Value) : Prop :=
  op = .mul ∧ (v.isString ∧ w ≠ w' ∨ w.isString ∧ v ≠ v')

variable {v v' w w' : Value}

namespace CountsAs

theorem number?_eq (h : CountsAs v v') : v.number? = v'.number? := by
  cases h <;> rfl

theorem truthy_eq (h : CountsAs v v') : v.truthy = v'.truthy := by
  rcases h with v | ⟨_ | _⟩ <;> rfl

theorem isString_eq (h : CountsAs v v') : v.isString = v'.isString := by
  cases h <;> rfl

/-- A string counts as nothing but itself. -/
theorem eq_of_isString (h : CountsAs v v') (hv : v.isString) : v = v' := by
  cases h with
  | self => rfl
  | bool b => cases hv

end CountsAs

/-! ## Operators -/

theorem sameOutcome_numericBinary (op : BinaryOp) (hv : v.number? = v'.number?)
    (hw : w.number? = w'.number?) :
    SameOutcome (numericBinary op v w) (numericBinary op v' w') := by
  unfold numericBinary
  rw [hv, hw]
  split <;> rfl

/-- Only two strings that are joined, and a string that is repeated, are not asked for numbers. -/
theorem applyBinary_eq_numericBinary {op : BinaryOp} (hjoins : ¬ (v.isString ∧ w.isString))
    (hrepeats : ¬ (op = .mul ∧ (v.isString ∨ w.isString))) :
    applyBinary op v w = numericBinary op v w := by
  unfold applyBinary
  split
  · exact absurd ⟨rfl, rfl⟩ hjoins
  · exact absurd ⟨rfl, .inl rfl⟩ hrepeats
  · exact absurd ⟨rfl, .inr rfl⟩ hrepeats
  · rfl

/-- A repetition fails for its length alone. -/
theorem mapError_repeated_ne (s : String) (count : Int64) :
    (repeated s count).mapError EvalError.kind ≠ .error .typeMismatch := fun h => by
  unfold repeated at h
  simp only at h
  split at h
  · cases h
  · split at h <;> cases h

/-- A boolean is no count: the number that it counts as would repeat the string. -/
theorem not_sameOutcome_mul (hv : CountsAs v v') (hw : CountsAs w w')
    (h : RepeatsByBool .mul v v' w w') :
    ¬ SameOutcome (applyBinary .mul v w) (applyBinary .mul v' w') := by
  rcases h.2 with ⟨hstring, hne⟩ | ⟨hstring, hne⟩
  · obtain rfl := hv.eq_of_isString hstring
    cases v with
    | str s =>
      cases hw with
      | self => exact absurd rfl hne
      | bool b => exact fun h => mapError_repeated_ne s _ h.symm
    | _ => cases hstring
  · obtain rfl := hw.eq_of_isString hstring
    cases w with
    | str s =>
      cases hv with
      | self => exact absurd rfl hne
      | bool b => exact fun h => mapError_repeated_ne s _ h.symm
    | _ => cases hstring

theorem sameOutcome_applyBinary {op : BinaryOp} (hv : CountsAs v v') (hw : CountsAs w w')
    (h : ¬ RepeatsByBool op v v' w w') :
    SameOutcome (applyBinary op v w) (applyBinary op v' w') := by
  by_cases hsame : v = v' ∧ w = w'
  · obtain ⟨rfl, rfl⟩ := hsame
    rfl
  -- some operand is a boolean that has become a number, so that they are not two strings
  have hjoins : ¬ (v.isString ∧ w.isString) :=
    fun hstrings => hsame ⟨hv.eq_of_isString hstrings.1, hw.eq_of_isString hstrings.2⟩
  have hrepeats : ¬ (op = .mul ∧ (v.isString ∨ w.isString)) := by
    rintro ⟨rfl, hstring | hstring⟩
    · exact h ⟨rfl, .inl ⟨hstring, fun hw => hsame ⟨hv.eq_of_isString hstring, hw⟩⟩⟩
    · exact h ⟨rfl, .inr ⟨hstring, fun hv => hsame ⟨hv, hw.eq_of_isString hstring⟩⟩⟩
  rw [applyBinary_eq_numericBinary hjoins hrepeats]
  rw [hv.isString_eq, hw.isString_eq] at hjoins hrepeats
  rw [applyBinary_eq_numericBinary hjoins hrepeats]
  exact sameOutcome_numericBinary op hv.number?_eq hw.number?_eq

theorem sameOutcome_applyUnary (op : UnaryOp) (hv : CountsAs v v') :
    SameOutcome (applyUnary op v) (applyUnary op v') := by
  unfold applyUnary
  rw [hv.number?_eq, hv.truthy_eq]
  split <;> rfl

/-! ## Comparisons -/

/-- Values that are not both strings stand to each other as their numbers do. -/
theorem rank_of_number? (h : ¬ (v.isString ∧ w.isString)) : rank v w =
    match v.number?, w.number? with
    | some (.int a), some (.int b) => .ordered (compare a.toInt b.toInt)
    | some a, some b => rankFloats a.toFloat b.toFloat
    | _, _ => .unrelated := by
  unfold rank
  split
  · exact absurd ⟨rfl, rfl⟩ h
  · rfl

theorem CountsAs.rank_eq (hv : CountsAs v v') (hw : CountsAs w w') : rank v w = rank v' w' := by
  by_cases h : v.isString ∧ w.isString
  · rw [hv.eq_of_isString h.1, hw.eq_of_isString h.2]
  · rw [rank_of_number? h, hv.number?_eq, hw.number?_eq]
    rw [hv.isString_eq, hw.isString_eq] at h
    rw [rank_of_number? h]

theorem sameOutcome_compareValues (op : CompareOp) (hv : CountsAs v v') (hw : CountsAs w w') :
    SameOutcome (compareValues op v w) (compareValues op v' w') := by
  unfold compareValues
  rw [hv.rank_eq hw]
  split <;> rfl

/-! ## All operators -/

/-- **A boolean counts as its number for every comparison and every operator but one**: exactly
where a string is repeated, a boolean is refused and its number is taken. -/
theorem bool_counts_iff (hv : CountsAs v v') (hw : CountsAs w w') :
    (∀ op, SameOutcome (applyBinary op v w) (applyBinary op v' w') ↔
      ¬ RepeatsByBool op v v' w w') ∧
    (∀ op, SameOutcome (applyUnary op v) (applyUnary op v')) ∧
    ∀ op, SameOutcome (compareValues op v w) (compareValues op v' w') := by
  refine ⟨fun op => ⟨fun hsame h => ?_, sameOutcome_applyBinary hv hw⟩,
    fun op => sameOutcome_applyUnary op hv, fun op => sameOutcome_compareValues op hv hw⟩
  obtain rfl := h.1
  exact not_sameOutcome_mul hv hw h hsame

/-- Two booleans are divided as their numbers are, the divisor being 0. -/
theorem bool_counts_iff_mod :
    CountsAs (.bool true) (.int 1) ∧ CountsAs (.bool false) (.int 0) ∧
    ¬ RepeatsByBool .mod (.bool true) (.int 1) (.bool false) (.int 0) ∧
    SameOutcome (applyBinary .mod (.bool true) (.bool false))
      (applyBinary .mod (.int 1) (.int 0)) := by
  have hone : CountsAs (.bool true) (.int 1) := .bool true
  have hzero : CountsAs (.bool false) (.int 0) := .bool false
  have hnot : ¬ RepeatsByBool .mod (.bool true) (.int 1) (.bool false) (.int 0) := nofun
  exact ⟨hone, hzero, hnot, ((bool_counts_iff hone hzero).1 .mod).2 hnot⟩

/-- A string times 1 is the string, and times the boolean that counts as 1 it is an error. -/
theorem bool_repeats_nothing :
    applyBinary .mul (.str "ab") (.int 1) = .ok (.str "ab") ∧
    ¬ SameOutcome (applyBinary .mul (.str "ab") (.bool true))
      (applyBinary .mul (.str "ab") (.int 1)) := by
  have hone : applyBinary .mul (.str "ab") (.int 1) = .ok (.str "ab") := rfl
  refine ⟨hone, fun h => ?_⟩
  rw [hone] at h
  cases h

end LaunchFile.Expr
