import LaunchFile.Proofs.Decimal
import LaunchFile.Proofs.Decimal.Shortest

/-!
# Proofs/Decimal/Layout — what a layout writes is read back

Whole numbers are read back from their digits (`readInt?_toString`). The digits of a finite double
come to its shortest decimal, however a layout arranges them (`Layout.readsAs_finite`). Since that
decimal belongs to one double, no two doubles are written alike (`Layout.IsLegible.eq_of_write_eq`).
-/

namespace LaunchFile.Decimal

variable {digits whole places : List Char} {exponent : Int}

/-! ## Whole numbers -/

theorem isDigits_toDigits (n : Nat) : IsDigits (Nat.toDigits 10 n) := fun _ hc =>
  Nat.isDigit_of_mem_toDigits (by decide) (by decide) hc

/-- The decimal digits of a number have it as their value. -/
theorem digitsValue_toDigits (n : Nat) : digitsValue (Nat.toDigits 10 n) = n :=
  Nat.ofDigitChars_ten_toDigits

/-- A zero behind the digits is a factor of ten. -/
theorem digitsValue_append_zeros (digits : List Char) (n : Nat) :
    digitsValue (digits ++ List.replicate n '0') = digitsValue digits * 10 ^ n := by
  rw [Nat.mul_comm]
  exact (Nat.ofDigitChars_append 0).trans Nat.ofDigitChars_replicate_zero

/-- Zeros in front count for nothing. -/
theorem digitsValue_zeros_append (n : Nat) (digits : List Char) :
    digitsValue (List.replicate n '0' ++ digits) = digitsValue digits := by
  have hzeros : digitsValue (List.replicate n '0') = 0 := Nat.ofDigitChars_replicate_zero
  change Nat.ofDigitChars 10 _ 0 = _
  rw [Nat.ofDigitChars_append]
  exact congrArg (Nat.ofDigitChars 10 digits) hzeros

/-- The decimal digits of a number are read as it. -/
theorem readDigits?_toDigits (n : Nat) : readDigits? (Nat.toDigits 10 n) = some n :=
  readDigits?_eq_some_iff.2 ⟨Nat.toDigits_ne_nil, isDigits_toDigits n, digitsValue_toDigits n⟩

/-- A whole number is written as its digits behind its sign. -/
theorem toList_toString (n : Int) : (toString n).toList =
    if 0 ≤ n then Nat.toDigits 10 n.natAbs else '-' :: Nat.toDigits 10 n.natAbs := by
  rw [Int.toString_eq_repr, Int.repr_eq_if]
  split
  · rw [Nat.toList_repr, show n.toNat = n.natAbs by omega]
  · rw [String.toList_append, Nat.toList_repr, show (-n).toNat = n.natAbs by omega]
    rfl

/-- **A whole number is read back from its text.** -/
theorem readInt?_toString (n : Int) : readInt? (toString n).toList = some n := by
  rw [toList_toString]
  split
  · rw [readInt?_of_isDigits Nat.toDigits_ne_nil (isDigits_toDigits _), readDigits?_toDigits,
      Option.map_some, Int.ofNat_eq_natCast, Int.natAbs_of_nonneg ‹_›]
  · rw [readInt?, readDigits?_toDigits, Option.map_some, Int.ofNat_eq_natCast]
    congr 1
    omega

theorem readInt?_plus_toString {n : Int} (h : 0 ≤ n) :
    readInt? ('+' :: (toString n).toList) = some n := by
  rw [toList_toString, if_pos h, readInt?, readDigits?_toDigits, Option.map_some,
    Int.ofNat_eq_natCast, Int.natAbs_of_nonneg h]

/-! ## Doubles without their sign -/

/-- The text is a decimal without a sign and comes to this number. -/
def ReadsAs (cs : List Char) (value : ℚ) : Prop :=
  ∃ s, readScientific? false cs = some s ∧ amount (s.coefficient, s.exponent) = value

/-- A numeral is read as the amount of its digits and its exponent. -/
theorem readsAs_numeral {fraction power : List Char} (h : IsNumeral whole fraction power) {e : Int}
    (hpower : readExponent? power = some e) : ReadsAs (whole ++ fraction ++ power)
      (amount (digitsValue (whole ++ fraction.tail), e - fraction.tail.length)) := by
  refine ⟨numeralValue false whole fraction e, ?_, rfl⟩
  rw [h.readScientific?, hpower, Option.map_some]

/-- Digits alone are a whole amount. -/
theorem readsAs_digits (hne : whole ≠ []) (h : IsDigits whole) :
    ReadsAs whole (amount (digitsValue whole, 0)) := by
  have hread := readsAs_numeral ⟨h, .none, .none, .inl hne⟩ rfl
  rwa [List.append_nil, List.append_nil, List.tail_nil, List.append_nil] at hread

/-- A point divides the digits by as many tens as there are places. -/
theorem readsAs_point (hne : whole ≠ []) (h : IsDigits whole) (hplaces : IsDigits places) :
    ReadsAs (whole ++ '.' :: places) (amount (digitsValue (whole ++ places), -places.length)) := by
  have hread := readsAs_numeral ⟨h, .point hplaces, .none, .inl hne⟩ rfl
  rwa [List.append_nil, List.tail_cons, zero_sub] at hread

/-- Tens may be moved from the count to the exponent. -/
theorem amount_mul_pow (count n : Nat) (ten : Int) :
    amount (count * 10 ^ n, ten) = amount (count, ten + n) := by
  rw [amount, amount, zpow_add₀ (by norm_num), zpow_natCast]
  push_cast
  ring

theorem IsDigits.append (h : IsDigits whole) (hplaces : IsDigits places) :
    IsDigits (whole ++ places) := fun c hc =>
  (List.mem_append.1 hc).elim (h c) (hplaces c)

theorem isDigits_zeros (n : Nat) : IsDigits (List.replicate n '0') := fun c hc => by
  rw [List.eq_of_mem_replicate hc]
  rfl

/-- Digits in their places are the digits times a power of ten. -/
theorem readsAs_positional (hne : digits ≠ []) (h : IsDigits digits) (exponent : Int) :
    ReadsAs (positional digits exponent)
      (amount (digitsValue digits, exponent + 1 - digits.length)) := by
  have hlength := List.length_pos_iff.2 hne
  unfold positional
  split
  · -- zeros after the point
    have hread := readsAs_point (List.cons_ne_nil '0' []) (isDigits_zeros 1)
      ((isDigits_zeros ((-exponent).toNat - 1)).append h)
    rw [← List.append_assoc, ← List.replicate_one, List.replicate_append_replicate,
      digitsValue_zeros_append, List.length_append, List.length_replicate] at hread
    rwa [show -(((-exponent).toNat - 1 + digits.length : Nat) : Int) =
      exponent + 1 - digits.length by omega] at hread
  · dsimp only
    split
    · -- zeros in front of the point
      have hwhole := h.append (isDigits_zeros (exponent.toNat + 1 - digits.length))
      have hne' := List.append_ne_nil_of_left_ne_nil hne
        (List.replicate (exponent.toNat + 1 - digits.length) '0')
      have hvalue : amount (digitsValue digits, exponent + 1 - digits.length) =
          amount (digitsValue
            (digits ++ List.replicate (exponent.toNat + 1 - digits.length) '0'), 0) := by
        rw [digitsValue_append_zeros, amount_mul_pow]
        congr 2
        omega
      rw [hvalue]
      split
      · have hread := readsAs_point hne' hwhole (isDigits_zeros 1)
        rwa [digitsValue_append_zeros, amount_mul_pow, List.length_replicate,
          neg_add_cancel] at hread
      · rw [List.append_nil]
        exact readsAs_digits hne' hwhole
    · -- a point among the digits
      have hwhole : IsDigits (digits.take (exponent.toNat + 1)) := fun c hc =>
        h c (List.mem_of_mem_take hc)
      have hplaces : IsDigits (digits.drop (exponent.toNat + 1)) := fun c hc =>
        h c (List.mem_of_mem_drop hc)
      have hread := readsAs_point (by simpa using hne) hwhole hplaces
      rw [List.take_append_drop, List.length_drop] at hread
      rwa [show -((digits.length - (exponent.toNat + 1) : Nat) : Int) =
        exponent + 1 - digits.length by omega] at hread

/-- An exponent is read back, with its sign or without. -/
theorem readExponent?_exponent (plus : Bool) (exponent : Int) :
    readExponent? ('e' :: (if plus && exponent ≥ 0 then ['+'] else []) ++
      (toString exponent).toList) = some exponent := by
  split
  · exact readInt?_plus_toString (by simp_all)
  · exact readInt?_toString exponent

/-- **The layout with an exponent is read as the same amount.** -/
theorem readsAs_withExponent (hne : digits ≠ []) (h : IsDigits digits) (plus : Bool)
    (exponent : Int) : ReadsAs (withExponent plus digits exponent)
      (amount (digitsValue digits, exponent + 1 - digits.length)) := by
  have hread := readExponent?_exponent plus exponent
  have hpower := exists_power hread
  match digits, hne with
  | [d], _ =>
    have hdecimal := readsAs_numeral ⟨h, .none, hpower, .inl (List.cons_ne_nil d [])⟩ hread
    simpa [withExponent] using hdecimal
  | d :: first :: rest, _ =>
    have hplaces : IsDigits (first :: rest) := fun c hc => h c (List.mem_cons_of_mem d hc)
    have hwhole : IsDigits [d] := fun c hc => h c (List.mem_singleton.1 hc ▸ List.mem_cons_self)
    have hdecimal := readsAs_numeral
      ⟨hwhole, .point hplaces, hpower, .inl (List.cons_ne_nil d [])⟩ hread
    have hcount : exponent + 1 - ((d :: first :: rest).length : Int) =
        exponent - (first :: rest).length := by
      simp only [List.length_cons]
      push_cast
      ring
    rw [hcount]
    simpa [withExponent] using hdecimal

/-- **The digits of a double come to its shortest decimal.** -/
theorem Layout.readsAs_finite (l : Layout) (x : Float) :
    ReadsAs (l.finite x) (amount (shortest l.tie x)) := by
  rcases hpair : shortest l.tie x with ⟨count, ten⟩
  have hdigits := isDigits_toDigits count
  have hne : Nat.toDigits 10 count ≠ [] := Nat.toDigits_ne_nil
  have hten : Int.ofNat (Nat.toDigits 10 count).length - 1 + ten + 1 -
      (Nat.toDigits 10 count).length = ten := by
    rw [Int.ofNat_eq_natCast]
    ring
  simp only [finite, hpair]
  split
  · have hread := readsAs_positional hne hdigits
      (Int.ofNat (Nat.toDigits 10 count).length - 1 + ten)
    rwa [digitsValue_toDigits, hten] at hread
  · have hread := readsAs_withExponent hne hdigits l.plus
      (Int.ofNat (Nat.toDigits 10 count).length - 1 + ten)
    rwa [digitsValue_toDigits, hten] at hread

/-! ## Marks

No whole number has the text of a double if the layout writes an exponent from `10 ^ 16` on. -/

/-- Below the limit a point is written, even behind a whole number. -/
theorem point_mem_positional (digits : List Char) (h : exponent < 16) :
    '.' ∈ positional digits exponent := by
  unfold positional
  split
  · exact List.mem_cons_of_mem _ List.mem_cons_self
  dsimp only
  split
  · exact List.mem_append_right _ List.mem_cons_self
  · exact List.mem_append_right _ List.mem_cons_self

/-- With an exponent its letter is written. -/
theorem letter_mem_withExponent (plus : Bool) (digits : List Char) (exponent : Int) :
    'e' ∈ withExponent plus digits exponent :=
  List.mem_append_left _ (List.mem_append_right _ List.mem_cons_self)

/-- A number is never written as an integer is. -/
theorem Layout.mark_mem_finite {l : Layout} (hlimit : l.limit = some 16) (x : Float) :
    '.' ∈ l.finite x ∨ 'e' ∈ l.finite x := by
  rcases hpair : shortest l.tie x with ⟨count, ten⟩
  simp only [finite, hpair]
  split
  · rename_i hpositional
    refine .inl (point_mem_positional _ ?_)
    rw [Bool.or_eq_true, beq_iff_eq] at hpositional
    obtain rfl | hpositional := hpositional
    · cases (shortest_eq_zero (congrArg Prod.fst hpair)).symm.trans hpair
      decide
    · rw [isPositional, hlimit, Bool.and_eq_true] at hpositional
      exact of_decide_eq_true hpositional.2
  · exact .inr (letter_mem_withExponent _ _ _)

/-- An integer holds neither a point nor an exponent. -/
theorem not_mark_mem_of_readInt? {cs : List Char} {n : Int} (h : readInt? cs = some n) :
    '.' ∉ cs ∧ 'e' ∉ cs := by
  obtain ⟨sign, hsign, digits, m, rfl, hdigits, -⟩ := readInt?_eq_some_iff.1 h
  have hdigits := (readDigits?_eq_some_iff.1 hdigits).2.1
  have hmarks : ∀ sign ∈ signs, '.' ∉ sign ∧ 'e' ∉ sign := by decide
  refine ⟨fun hmem => ?_, fun hmem => ?_⟩
  · obtain hmem | hmem := List.mem_append.1 hmem
    · exact (hmarks sign hsign).1 hmem
    · cases hdigits _ hmem
  · obtain hmem | hmem := List.mem_append.1 hmem
    · exact (hmarks sign hsign).2 hmem
    · cases hdigits _ hmem

/-! ## Doubles with their sign -/

/-- A decimal that has no plus sign. -/
def readSigned? : List Char → Option Scientific
  | '-' :: cs => readScientific? true cs
  | cs => readScientific? false cs

/-- What is read without a sign is read with none. -/
theorem readSigned?_of_readScientific? {cs : List Char} {s : Scientific}
    (h : readScientific? false cs = some s) : readSigned? cs = some s := by
  obtain ⟨whole, fraction, power, rfl, hnumeral⟩ := exists_numeral h
  obtain ⟨c, rest, heq, hc⟩ := hnumeral.head
  have hminus := (ne_sign (mem_of_numeral_head hc)).2
  rw [heq] at h ⊢
  rw [readSigned?.eq_2 _ (by simp [hminus])]
  exact h

/-- The sign only changes which way the amount is taken. -/
theorem readScientific?_negative (negative : Bool) (cs : List Char) :
    readScientific? negative cs =
      (readScientific? false cs).map fun s => { s with negative } := by
  unfold readScientific?
  dsimp only
  split
  · rfl
  · rw [Option.map_map]
    rfl

/-- The text of a double that is a number. -/
def Layout.number (l : Layout) (x : Float) : List Char :=
  (if isNegative x then ['-'] else []) ++ l.finite x

/-- **A finite double is written with its sign and its shortest decimal.** -/
theorem Layout.exists_readSigned? (l : Layout) (x : Float) : ∃ s,
    readSigned? (l.number x) = some s ∧ s.negative = isNegative x ∧
      amount (s.coefficient, s.exponent) = amount (shortest l.tie x) := by
  obtain ⟨s, hread, hvalue⟩ := l.readsAs_finite x
  refine ⟨{ s with negative := isNegative x }, ?_, rfl, hvalue⟩
  have hsigned : readScientific? (isNegative x) (l.finite x) =
      some { s with negative := isNegative x } := by
    rw [readScientific?_negative, hread, Option.map_some]
  unfold number
  cases hsign : isNegative x <;> rw [hsign] at hsigned
  · exact readSigned?_of_readScientific? hsigned
  · exact hsigned

/-- **No two numbers are laid out alike.** -/
theorem Layout.eq_of_number_eq {l : Layout} {x y : Float} (h : l.number x = l.number y) :
    x = y := by
  obtain ⟨s, hs, hsign, hvalue⟩ := l.exists_readSigned? x
  obtain ⟨s', hs', hsign', hvalue'⟩ := l.exists_readSigned? y
  rw [h, hs'] at hs
  cases hs
  exact eq_of_amount_shortest (hvalue.symm.trans hvalue') (hsign.symm.trans hsign')

/-! ## Infinity and no number -/

section

open Float.Model.UnpackedFloat

/-- The exponent of a word stands in the eleven bits below its sign. -/
theorem toNat_unpackExponent (bits : BitVec 64) :
    (@unpackExponent .binary64 bits).toNat = bits.toNat / 2 ^ 52 % 2 ^ 11 := by
  simp [unpackExponent, Nat.shiftRight_eq_div_pow]

/-- The mantissa of a word stands in its lowest bits. -/
theorem toNat_unpackMantissa (bits : BitVec 64) :
    (@unpackMantissa .binary64 bits).toNat = bits.toNat % 2 ^ 52 := by
  simp [unpackMantissa]

/-- Infinity has all bits of the field and none of the fraction. -/
theorem magnitude_of_isInf {x : Float} (h : x.isInf = true) :
    magnitude x.toBits = 2047 * 2 ^ 52 := by
  have hlt := x.toBits.toNat_lt
  have hunpack : (unpack .binary64 x.toBits.toBitVec).isInf = true := h
  unfold unpack at hunpack
  dsimp only at hunpack
  by_cases hfield : @unpackExponent .binary64 x.toBits.toBitVec = -1#_
  · rw [if_pos hfield] at hunpack
    by_cases hfraction : @unpackMantissa .binary64 x.toBits.toBitVec = 0#_
    · have hfield := congrArg BitVec.toNat hfield
      have hfraction := congrArg BitVec.toNat hfraction
      rw [toNat_unpackExponent] at hfield
      rw [toNat_unpackMantissa] at hfraction
      change x.toBits.toNat / 2 ^ 52 % 2 ^ 11 = 2047 at hfield
      change x.toBits.toNat % 2 ^ 52 = 0 at hfraction
      rw [magnitude]
      omega
    · rw [if_neg hfraction] at hunpack
      cases hunpack
  · rw [if_neg hfield] at hunpack
    by_cases hzero : @unpackExponent .binary64 x.toBits.toBitVec = 0#_
    · rw [if_pos hzero] at hunpack
      by_cases hfraction : @unpackMantissa .binary64 x.toBits.toBitVec = 0#_
      · rw [dif_pos hfraction] at hunpack
        cases hunpack
      · rw [dif_neg hfraction] at hunpack
        cases hunpack
    · rw [if_neg hzero] at hunpack
      cases hunpack

/-- All doubles but the one that is no number equal themselves. -/
theorem beq_self_of_not_isNaN {x : Float} (h : ¬x.isNaN = true) : (x == x) = true := by
  have hunpack : ¬x.toModel.unpack.isNaN = true := h
  change (x.toModel.unpack.compare x.toModel.unpack == some .eq) = true
  rw [beq_iff_eq]
  generalize x.toModel.unpack = u at *
  cases u with
  | notANumber => exact absurd rfl hunpack
  | infinity sign => cases sign <;> rfl
  | zero sign => rfl
  | finite sign mantissa exponent =>
    have horder : (compare exponent exponent).then (compare mantissa mantissa) = .eq := by
      rw [Std.compare_self, Std.compare_self]
      rfl
    cases sign with
    | negative => exact congrArg (some ·.swap) horder
    | positive => exact congrArg some horder

end

/-- What is no finite double. -/
inductive Special where
  | nan
  | infinite (negative : Bool)

/-- What a special word stands for. -/
def Special.Holds (x : Float) : Special → Prop
  | .nan => x.isNaN = true
  | .infinite negative => x.isInf = true ∧ isNegative x = negative

/-- The word that a layout has for it. -/
def Layout.word (l : Layout) : Special → String
  | .nan => l.nan
  | .infinite false => l.infinity
  | .infinite true => l.negativeInfinity

/-- A special word stands for one float, or for all that are no numbers. -/
theorem Special.Holds.eq {x y : Float} {special : Special} (hx : special.Holds x)
    (hy : special.Holds y) : x.isNaN = true ∧ y.isNaN = true ∨ x = y := by
  cases special with
  | nan => exact .inl ⟨hx, hy⟩
  | infinite negative =>
    refine .inr (eq_of_magnitude_eq ?_ (hx.2.trans hy.2.symm))
    rw [magnitude_of_isInf hx.1, magnitude_of_isInf hy.1]

/-- A double is written as a word or as a number. -/
theorem Layout.write_cases (l : Layout) (x : Float) :
    (∃ special : Special, special.Holds x ∧ l.write x = l.word special) ∨
      l.write x = String.ofList (l.number x) := by
  unfold write number
  by_cases hnan : x.isNaN = true
  · exact .inl ⟨.nan, hnan, if_pos hnan⟩
  rw [if_neg hnan]
  by_cases hinf : x.isInf = true
  · rw [if_pos hinf]
    refine .inl ⟨.infinite (isNegative x), ⟨hinf, rfl⟩, ?_⟩
    cases isNegative x <;> rfl
  · exact .inr (if_neg hinf)

/-- The words of a layout differ from one another, and none of them is a number. -/
structure Layout.IsLegible (l : Layout) : Prop where
  word_injective : Function.Injective l.word
  word_unread : ∀ special, readSigned? (l.word special).toList = none

/-- A special word is no numeral. -/
theorem Layout.IsLegible.word_ne {l : Layout} (h : l.IsLegible) (special : Special) (x : Float) :
    l.word special ≠ String.ofList (l.number x) := by
  intro heq
  obtain ⟨s, hs, -⟩ := l.exists_readSigned? x
  have hnone := h.word_unread special
  rw [heq, String.toList_ofList, hs] at hnone
  cases hnone

/-- **No two doubles are written alike.** -/
theorem Layout.IsLegible.eq_of_write_eq {l : Layout} (h : l.IsLegible) {x y : Float}
    (hwrite : l.write x = l.write y) : x.isNaN = true ∧ y.isNaN = true ∨ x = y := by
  obtain ⟨special, hx, hword⟩ | hnumber := l.write_cases x <;>
    obtain ⟨special', hy, hword'⟩ | hnumber' := l.write_cases y
  · rw [hword, hword'] at hwrite
    cases h.word_injective hwrite
    exact hx.eq hy
  · rw [hword, hnumber'] at hwrite
    exact absurd hwrite (h.word_ne special y)
  · rw [hnumber, hword'] at hwrite
    exact absurd hwrite.symm (h.word_ne special' x)
  · rw [hnumber, hnumber'] at hwrite
    exact .inr (eq_of_number_eq (String.ofList_injective hwrite))

end LaunchFile.Decimal
