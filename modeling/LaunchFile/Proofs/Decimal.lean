import LaunchFile.Decimal.Float
import Mathlib.Algebra.Ring.Int.Defs
import Mathlib.Data.Bool.AllAny
import Mathlib.Data.List.TakeDrop
import Mathlib.Data.List.TakeWhile

/-!
# Proofs/Decimal — words and numerals

A number is a 64-bit word or beyond one of the two ends of them. A numeral is what decimals are
without their sign: digits, a point with digits behind it, and a power of ten. The reader of
decimals accepts numerals and nothing else (`exists_numeral`), and reads them part by part
(`IsNumeral.readScientific?`).
-/

namespace LaunchFile.Decimal

/-! ## Words -/

section

variable {n : Int} {w : Int64}

/-- Beyond the words there is none. -/
theorem toInt64?_of_lt (h : n < -2 ^ 63 ∨ 2 ^ 63 ≤ n) : toInt64? n = none :=
  if_neg (by rw [Int64.toInt_minValue, Int64.toInt_maxValue]; omega)

/-- A word is that of its own value. -/
@[simp]
theorem toInt64?_toInt (w : Int64) : toInt64? w.toInt = some w := by
  have hrange : Int64.minValue.toInt ≤ w.toInt ∧ w.toInt ≤ Int64.maxValue.toInt :=
    ⟨Int64.minValue_le_toInt w, Int64.toInt_le w⟩
  rw [toInt64?, if_pos hrange, Int64.ofInt_toInt]

/-- A word is that of its value alone. -/
theorem toInt64?_eq_some_iff : toInt64? n = some w ↔ w.toInt = n := by
  constructor
  · intro h
    obtain ⟨hrange, hw⟩ := Option.ite_none_right_eq_some.1 h
    rw [Int64.toInt_minValue, Int64.toInt_maxValue] at hrange
    rw [← Option.some.inj hw, Int64.toInt_ofInt_of_le hrange.1 (by omega)]
  · rintro rfl
    exact toInt64?_toInt w

/-- A number is no word if none has its value. -/
theorem toInt64?_eq_none_iff : toInt64? n = none ↔ ∀ w : Int64, w.toInt ≠ n := by
  simp only [Option.eq_none_iff_forall_ne_some, ne_eq, toInt64?_eq_some_iff]

/-- A number is a word or beyond both ends. -/
theorem toInt64?_cases (n : Int) :
    (∃ w : Int64, w.toInt = n) ∨ (n < -2 ^ 63 ∨ 2 ^ 63 ≤ n) := by
  by_cases h : n < -2 ^ 63 ∨ 2 ^ 63 ≤ n
  · exact .inr h
  · exact .inl ⟨Int64.ofInt n, Int64.toInt_ofInt_of_le (by omega) (by omega)⟩

end

/-! ## Digits -/

/-- All characters are digits. -/
def IsDigits (cs : List Char) : Prop :=
  ∀ c ∈ cs, c.isDigit = true

instance (cs : List Char) : Decidable (IsDigits cs) :=
  inferInstanceAs (Decidable (∀ c ∈ cs, _))

/-- No digit stands at the start of the text. -/
def NoDigit (cs : List Char) : Prop :=
  ∀ c ∈ cs.head?, c.isDigit = false

variable {cs digits rest whole fraction power : List Char}

/-- Digits are taken up to the first other character. -/
theorem takeWhile_digits (h : IsDigits digits) (hrest : NoDigit rest) :
    (digits ++ rest).takeWhile Char.isDigit = digits := by
  rw [List.takeWhile_append_of_pos h]
  cases rest with
  | nil => rw [List.takeWhile_nil, List.append_nil]
  | cons c rest =>
    have hc : ¬c.isDigit = true := by simp [hrest c rfl]
    rw [List.takeWhile_cons_of_neg hc, List.append_nil]

/-- A text falls into digits and what does not begin with one. -/
theorem span_digits (h : IsDigits digits) (hrest : NoDigit rest) :
    (digits ++ rest).span Char.isDigit = (digits, rest) := by
  have htaken := takeWhile_digits h hrest
  have hall := List.takeWhile_append_dropWhile (p := Char.isDigit) (l := digits ++ rest)
  rw [htaken] at hall
  rw [List.span_eq_takeWhile_dropWhile, htaken, List.append_cancel_left hall]

/-- Every text begins with as many digits as it has at its front. -/
theorem span_isDigit (cs : List Char) : ∃ digits rest, cs = digits ++ rest ∧ IsDigits digits ∧
    NoDigit rest ∧ cs.span Char.isDigit = (digits, rest) := by
  refine ⟨_, _, List.takeWhile_append_dropWhile.symm, fun c => List.mem_takeWhile_imp, ?_,
    List.span_eq_takeWhile_dropWhile _ _⟩
  intro c hc
  have hhead := List.head?_dropWhile_not Char.isDigit cs
  rw [hc] at hhead
  simpa using hhead

/-- The digits there are. -/
def decimalDigits : List Char :=
  "0123456789".toList

theorem mem_decimalDigits {c : Char} (h : c.isDigit = true) : c ∈ decimalDigits := by
  have hrange : 48 ≤ c.toNat ∧ c.toNat ≤ 57 := by
    simpa [Char.isDigit, UInt32.le_iff_toNat_le] using h
  have hall : ∀ n < 10, Char.ofNat (48 + n) ∈ decimalDigits := by decide
  have hmem := hall (c.toNat - 48) (by omega)
  rwa [show 48 + (c.toNat - 48) = c.toNat by omega, Char.ofNat_toNat] at hmem

/-- Digits are read as their value, and nothing else is read. -/
theorem readDigits?_eq_some_iff {n : Nat} :
    readDigits? cs = some n ↔ cs ≠ [] ∧ IsDigits cs ∧ digitsValue cs = n := by
  rw [readDigits?, Option.ite_none_left_eq_some, Option.some_inj, ← and_assoc]
  simp [IsDigits, and_assoc]

/-- No digit and no point is a sign. -/
theorem ne_sign {c : Char} (h : c ∈ '.' :: decimalDigits) : c ≠ '+' ∧ c ≠ '-' :=
  List.all_iff_forall_prop.1
    (by decide : (('.' :: decimalDigits).all fun c => decide (c ≠ '+' ∧ c ≠ '-')) = true) c h

/-- No digit is a sign. -/
theorem ne_sign_of_isDigit {c : Char} (h : c.isDigit = true) : c ≠ '+' ∧ c ≠ '-' :=
  ne_sign (List.mem_cons_of_mem _ (mem_decimalDigits h))

/-- Digits begin with no sign. -/
theorem readInt?_of_isDigits (hne : cs ≠ []) (h : IsDigits cs) :
    readInt? cs = (readDigits? cs).map Int.ofNat := by
  obtain ⟨c, rest, rfl⟩ := List.exists_cons_of_ne_nil hne
  obtain ⟨hplus, hminus⟩ := ne_sign_of_isDigit (h c List.mem_cons_self)
  rw [readInt?.eq_3 _ (by simp [hplus]) (by simp [hminus])]

/-- How a sign may be written. -/
def signs : List (List Char) :=
  [[], ['+'], ['-']]

/-- A numeral has one of three signs. -/
theorem mem_signs {sign : List Char} :
    sign ∈ signs ↔ sign = [] ∨ sign = ['+'] ∨ sign = ['-'] := by
  simp [signs]

/-- Whole numbers are a sign and digits. -/
theorem readInt?_eq_some_iff {n : Int} :
    readInt? cs = some n ↔ ∃ sign ∈ signs, ∃ digits m, cs = sign ++ digits ∧
      readDigits? digits = some m ∧ n = if sign = ['-'] then -(m : Int) else m := by
  constructor
  · intro h
    unfold readInt? at h
    split at h <;> obtain ⟨m, hm, rfl⟩ := Option.map_eq_some_iff.1 h
    · exact ⟨['+'], by decide, _, m, rfl, hm, rfl⟩
    · exact ⟨['-'], by decide, _, m, rfl, hm, rfl⟩
    · exact ⟨[], by decide, _, m, rfl, hm, rfl⟩
  · rintro ⟨sign, hsign, digits, m, rfl, hm, rfl⟩
    obtain ⟨hne, hdigits, -⟩ := readDigits?_eq_some_iff.1 hm
    rcases mem_signs.1 hsign with rfl | rfl | rfl
    · rw [List.nil_append, readInt?_of_isDigits hne hdigits, hm]
      rfl
    · simp [readInt?, hm]
    · simp [readInt?, hm]

/-! ## Numerals -/

theorem NoDigit.append (hcs : NoDigit cs) (hrest : NoDigit rest) : NoDigit (cs ++ rest) := by
  cases cs with
  | nil => exact hrest
  | cons c cs => exact hcs

/-- A point with digits behind it, or nothing. -/
inductive IsFraction : List Char → Prop where
  | none : IsFraction []
  | point {places : List Char} (h : IsDigits places) : IsFraction ('.' :: places)

/-- A letter, a sign and one digit or more, or nothing. -/
inductive IsPower : List Char → Prop where
  | none : IsPower []
  | letter {c : Char} {sign digits : List Char} (hletter : c ∈ ['e', 'E']) (hsign : sign ∈ signs)
    (hne : digits ≠ []) (hdigits : IsDigits digits) : IsPower (c :: (sign ++ digits))

/-- The parts of a decimal: there is a digit before the power of ten. -/
structure IsNumeral (whole fraction power : List Char) : Prop where
  isDigits : IsDigits whole
  isFraction : IsFraction fraction
  isPower : IsPower power
  some_digit : whole ≠ [] ∨ fraction.tail ≠ []

/-- A fraction begins with its point. -/
theorem IsFraction.noDigit (h : IsFraction cs) : NoDigit cs := by
  cases h with
  | none => nofun
  | point => simp [NoDigit]

/-- An exponent begins with its letter. -/
theorem IsPower.noDigit (h : IsPower cs) : NoDigit cs := by
  cases h with
  | none => nofun
  | @letter c sign digits hletter =>
    have hall : ∀ c ∈ ['e', 'E'], c.isDigit = false := by simp
    simpa [NoDigit] using hall c hletter

/-- A text that is read as an exponent has the form of one. -/
theorem exists_power {e : Int} (h : readExponent? cs = some e) : IsPower cs := by
  unfold readExponent? at h
  split at h
  · exact .none
  · obtain ⟨sign, hsign, digits, m, rfl, hdigits, -⟩ := readInt?_eq_some_iff.1 h
    obtain ⟨hne, hdigits, -⟩ := readDigits?_eq_some_iff.1 hdigits
    exact .letter (by decide) hsign hne hdigits
  · obtain ⟨sign, hsign, digits, m, rfl, hdigits, -⟩ := readInt?_eq_some_iff.1 h
    obtain ⟨hne, hdigits, -⟩ := readDigits?_eq_some_iff.1 hdigits
    exact .letter (by decide) hsign hne hdigits
  · cases h

/-- A fraction is cut off in front of the exponent. -/
theorem IsFraction.fraction_append (h : IsFraction cs) (hpower : IsPower power) :
    Decimal.fraction (cs ++ power) = (cs.tail, power) := by
  cases h with
  | none =>
    cases hpower with
    | none => rfl
    | letter hletter =>
      simp only [List.mem_cons, List.not_mem_nil, or_false] at hletter
      rcases hletter with rfl | rfl <;> rfl
  | point hplaces => exact span_digits hplaces hpower.noDigit

/-- A numeral begins with a digit, or with a point in front of one. -/
theorem IsNumeral.head (h : IsNumeral whole fraction power) :
    ∃ c rest, whole ++ fraction ++ power = c :: rest ∧
      (c.isDigit = true ∨ c = '.' ∧ ∃ d ∈ rest.head?, d.isDigit = true) := by
  cases whole with
  | cons c whole => exact ⟨c, _, rfl, .inl (h.isDigits c List.mem_cons_self)⟩
  | nil =>
    have hplaces := h.some_digit.resolve_left (· rfl)
    cases h.isFraction with
    | none => exact absurd rfl hplaces
    | @point places hdigits =>
      obtain ⟨d, rest, rfl⟩ := List.exists_cons_of_ne_nil hplaces
      exact ⟨'.', d :: (rest ++ power), rfl, .inr ⟨rfl, d, rfl, hdigits d List.mem_cons_self⟩⟩

/-- A numeral begins with a digit or with a point. -/
theorem mem_of_numeral_head {c : Char}
    (h : c.isDigit = true ∨ c = '.' ∧ ∃ d ∈ rest.head?, d.isDigit = true) :
    c ∈ '.' :: decimalDigits := by
  rcases h with hdigit | ⟨rfl, -⟩
  · exact List.mem_cons_of_mem _ (mem_decimalDigits hdigit)
  · exact List.mem_cons_self

/-- The characters of numerals. -/
def numeralChars : List Char :=
  '.' :: 'e' :: 'E' :: '+' :: '-' :: decimalDigits

theorem mem_numeralChars_of_sign {sign : List Char} (hsign : sign ∈ signs) {c : Char}
    (hc : c ∈ sign) : c ∈ numeralChars := by
  rcases mem_signs.1 hsign with rfl | rfl | rfl
  · cases hc
  · rw [List.mem_singleton.1 hc]
    decide
  · rw [List.mem_singleton.1 hc]
    decide

/-- A numeral is written with the characters of numerals. -/
theorem IsNumeral.mem_numeralChars (h : IsNumeral whole fraction power) {c : Char}
    (hc : c ∈ whole ++ fraction ++ power) : c ∈ numeralChars := by
  have hdigit {ds : List Char} (hds : IsDigits ds) (hc : c ∈ ds) : c ∈ numeralChars :=
    List.mem_append_right ['.', 'e', 'E', '+', '-'] (mem_decimalDigits (hds c hc))
  rw [List.mem_append, List.mem_append] at hc
  rcases hc with (hc | hc) | hc
  · exact hdigit h.isDigits hc
  · cases h.isFraction with
    | none => cases hc
    | point hplaces =>
      rcases List.mem_cons.1 hc with rfl | hc
      · decide
      · exact hdigit hplaces hc
  · cases h.isPower with
    | none => cases hc
    | @letter letter sign digits hletter hsign hne hdigits =>
      have hletters : ['e', 'E'] ⊆ numeralChars := by simp [numeralChars]
      rw [List.mem_cons, List.mem_append] at hc
      rcases hc with rfl | hc | hc
      · exact hletters hletter
      · exact mem_numeralChars_of_sign hsign hc
      · exact hdigit hdigits hc

/-- A double is a sign and what is read without it. -/
theorem exists_sign_of_readFloat? {x : Float} (h : readFloat? cs = some x) :
    ∃ sign ∈ signs, ∃ u, cs = sign ++ u ∧ readMagnitude? (sign = ['-']) u = some x := by
  unfold readFloat? at h
  split at h
  · exact ⟨['+'], by decide, _, rfl, h⟩
  · exact ⟨['-'], by decide, _, rfl, h⟩
  · exact ⟨[], by decide, _, rfl, h⟩

/-- What a numeral with this power of ten stands for. -/
def numeralValue (negative : Bool) (whole fraction : List Char) (exponent : Int) : Scientific :=
  ⟨negative, digitsValue (whole ++ fraction.tail), exponent - fraction.tail.length⟩

/-- **A numeral is read part by part.** -/
theorem IsNumeral.readScientific? (h : IsNumeral whole fraction power) (negative : Bool) :
    readScientific? negative (whole ++ fraction ++ power) =
      (readExponent? power).map (numeralValue negative whole fraction) := by
  have hspan := span_digits h.isDigits (h.isFraction.noDigit.append h.isPower.noDigit)
  have hdigit : ¬(whole.isEmpty && fraction.tail.isEmpty) = true := by
    rw [Bool.and_eq_true, List.isEmpty_iff, List.isEmpty_iff]
    have := h.some_digit
    tauto
  rw [List.append_assoc, Decimal.readScientific?, hspan]
  simp only [h.isFraction.fraction_append h.isPower, if_neg hdigit]
  rfl

/-- Every text begins with a fraction, which may be empty. -/
theorem exists_fraction (cs : List Char) : ∃ front rest, cs = front ++ rest ∧ IsFraction front ∧
    Decimal.fraction cs = (front.tail, rest) := by
  unfold Decimal.fraction
  split
  · rename_i cs
    obtain ⟨places, rest, rfl, hplaces, -, hspan⟩ := span_isDigit cs
    exact ⟨'.' :: places, rest, rfl, .point hplaces, hspan⟩
  · exact ⟨[], _, rfl, .none, rfl⟩

/-- A numeral is none of the words for infinity and for no number. -/
theorem IsNumeral.readMagnitude? (h : IsNumeral whole fraction power) (negative : Bool) :
    readMagnitude? negative (whole ++ fraction ++ power) =
      (Decimal.readScientific? negative (whole ++ fraction ++ power)).map Scientific.toFloat := by
  obtain ⟨c, rest, heq, hc⟩ := h.head
  have hall : ∀ c ∈ '.' :: decimalDigits, c.toLower ≠ 'i' ∧ c.toLower ≠ 'n' :=
    List.all_iff_forall_prop.1 (by decide)
  obtain ⟨hi, hn⟩ := hall c (mem_of_numeral_head hc)
  have hword (word : String) (hword : word.toList.head? ≠ some c.toLower) :
      ¬(String.ofList ((c :: rest).map Char.toLower) == word) = true := fun hbeq =>
    hword (by rw [← eq_of_beq hbeq, String.toList_ofList]; rfl)
  have hinf := hword "inf" (by simpa using hi.symm)
  have hinfinity := hword "infinity" (by simpa using hi.symm)
  have hnan := hword "nan" (by simpa using hn.symm)
  rw [heq, Decimal.readMagnitude?]
  simp only [hinf, hinfinity, hnan, Bool.or_self, Bool.false_eq_true, if_false]

/-- A numeral is read with its sign. -/
theorem IsNumeral.readFloat? (h : IsNumeral whole fraction power) {sign : List Char}
    (hsign : sign ∈ signs) : readFloat? (sign ++ (whole ++ fraction ++ power)) =
      (Decimal.readScientific? (sign = ['-']) (whole ++ fraction ++ power)).map
        Scientific.toFloat := by
  rcases mem_signs.1 hsign with rfl | rfl | rfl
  · obtain ⟨c, rest, heq, hc⟩ := h.head
    obtain ⟨hplus, hminus⟩ := ne_sign (mem_of_numeral_head hc)
    have hread := h.readMagnitude? false
    rw [List.nil_append]
    rw [heq] at hread ⊢
    rw [readFloat?.eq_3 _ (by simp [hplus]) (by simp [hminus]), hread]
    rfl
  · exact h.readMagnitude? false
  · exact h.readMagnitude? true

/-- **What is read as a decimal is a numeral.** -/
theorem exists_numeral {negative : Bool} {s : Scientific}
    (h : readScientific? negative cs = some s) :
    ∃ whole fraction power, cs = whole ++ fraction ++ power ∧ IsNumeral whole fraction power := by
  obtain ⟨whole, rest, rfl, hwhole, -, hspan⟩ := span_isDigit cs
  obtain ⟨front, power, rfl, hfront, hfraction⟩ := exists_fraction rest
  rw [readScientific?, hspan] at h
  simp only [hfraction] at h
  obtain ⟨hdigit, h⟩ := Option.ite_none_left_eq_some.1 h
  obtain ⟨e, hexponent, -⟩ := Option.map_eq_some_iff.1 h
  rw [Bool.and_eq_true, List.isEmpty_iff, List.isEmpty_iff] at hdigit
  refine ⟨whole, front, power, by rw [List.append_assoc], hwhole, hfront,
    exists_power hexponent, ?_⟩
  tauto

end LaunchFile.Decimal
