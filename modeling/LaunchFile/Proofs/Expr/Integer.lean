import LaunchFile.Expr.Eval
import LaunchFile.Proofs.Decimal
import LaunchFile.Proofs.Lockstep
import Mathlib.Data.Rat.Floor
import Mathlib.Tactic.Ring

/-!
# Proofs/Expr/Integer — arithmetic on whole numbers

Every result on whole numbers is the exact one where that is a word, and an overflow where it is
not: `integer_arithmetic`. Two inputs are refused although their result is a word, the least word's
remainder by minus one and the powers of 0, 1 and -1 with an exponent beyond 32 bits.
-/

namespace LaunchFile.Expr

open Decimal

namespace Integer

variable {a b : Int64}

/-! ## Division -/

/-- What may be left of a division by `b`: nearer to zero than `b`, and of its sign. -/
def IsRemainder (b r : Int) : Prop :=
  0 ≤ r ∧ r < b ∨ b < r ∧ r ≤ 0

/-- The quotient with a remainder of this kind is the exact one, rounded down. -/
theorem floor_div {a b q r : Int} (h : a = b * q + r) (hr : IsRemainder b r) :
    ⌊(a : ℚ) / b⌋ = q := by
  have ha : (a : ℚ) = b * q + r := by exact_mod_cast h
  rw [Int.floor_eq_iff]
  rcases hr with ⟨hnonneg, hlt⟩ | ⟨hlt, hnonpos⟩
  · have hb : (0 : ℚ) < b := by exact_mod_cast hnonneg.trans_lt hlt
    have hnonneg : (0 : ℚ) ≤ r := by exact_mod_cast hnonneg
    have hlt : (r : ℚ) < b := by exact_mod_cast hlt
    rw [le_div_iff₀ hb, div_lt_iff₀ hb]
    constructor <;> linarith
  · have hb : (b : ℚ) < 0 := by exact_mod_cast hlt.trans_le hnonpos
    have hnonpos : (r : ℚ) ≤ 0 := by exact_mod_cast hnonpos
    have hlt : (b : ℚ) < r := by exact_mod_cast hlt
    rw [le_div_iff_of_neg hb, div_lt_iff_of_neg hb]
    constructor <;> linarith

/-- The division of words is undefined by zero, and of the least word by minus one. -/
theorem divides_eq_true_iff :
    divides a b = true ↔ b ≠ 0 ∧ ¬(a = Int64.minValue ∧ b = -1) := by
  simp [divides, imp_iff_not_or]

/-- The steps of a division that nothing checks give the numbers that they stand for. -/
structure ExactSteps (a b : Int64) : Prop where
  quotient : (a / b).toInt = a.toInt.tdiv b.toInt
  remainder : (a % b).toInt = a.toInt.tmod b.toInt
  lowered : a % b ≠ 0 → ¬(a < 0 ↔ b < 0) → (a / b - 1).toInt = (a / b).toInt - 1
  raised : a % b ≠ 0 → ¬(a % b < 0 ↔ b < 0) → (a % b + b).toInt = (a % b).toInt + b.toInt

/-- Above the least word, one less is no wrap. -/
theorem toInt_sub_one (h : -2 ^ 63 < a.toInt) : (a - 1).toInt = a.toInt - 1 := by
  have hlt := Int64.toInt_lt a
  rw [Int64.toInt_sub, show (1 : Int64).toInt = 1 from rfl]
  exact Int.bmod_eq_of_le (by omega) (by omega)

/-- The sum of two words with different signs is no wrap. -/
theorem toInt_add_of_neg_iff (h : ¬(a < 0 ↔ b < 0)) :
    (a + b).toInt = a.toInt + b.toInt := by
  have ha := Int64.le_toInt a
  have hb := Int64.le_toInt b
  have ha' := Int64.toInt_lt a
  have hb' := Int64.toInt_lt b
  rw [Int64.lt_iff_toInt_lt, Int64.lt_iff_toInt_lt, show (0 : Int64).toInt = 0 from rfl] at h
  rw [Int64.toInt_add]
  exact Int.bmod_eq_of_le (by omega) (by omega)

/-- What is left of a division toward zero has the sign of the dividend. -/
theorem tmod_bounds (a : Int) {b : Int} (hb : b ≠ 0) :
    (a.tmod b).natAbs < b.natAbs ∧ (0 ≤ a → 0 ≤ a.tmod b) ∧ (a ≤ 0 → a.tmod b ≤ 0) := by
  refine ⟨?_, Int.tmod_nonneg b, fun ha => ?_⟩
  · rw [Int.natAbs_tmod]
    exact Nat.mod_lt _ (Int.natAbs_pos.2 hb)
  · have hneg := Int.tmod_nonneg b (Int.neg_nonneg.2 ha)
    rw [Int.neg_tmod] at hneg
    omega

/-- **No step of a division wraps.** A quotient that is lowered is not the least word: it belongs to
a divisor other than 1 and -1. -/
theorem exactSteps (h : divides a b = true) : ExactSteps a b := by
  obtain ⟨hb, hleast⟩ := divides_eq_true_iff.1 h
  have hquotient : (a / b).toInt = a.toInt.tdiv b.toInt := by
    by_cases ha : a = Int64.minValue
    · exact Int64.toInt_div_of_ne_right a b fun hb => hleast ⟨ha, hb⟩
    · exact Int64.toInt_div_of_ne_left a b ha
  have hremainder := Int64.toInt_mod a b
  refine ⟨hquotient, hremainder, fun hr _ => toInt_sub_one ?_, fun hr => ?_⟩
  · have hb : b.toInt ≠ 0 := fun h => hb (Int64.toInt_inj.1 h)
    have hr : a.toInt.tmod b.toInt ≠ 0 := fun h => hr (Int64.toInt_inj.1 (hremainder.trans h))
    have hbounds := tmod_bounds a.toInt hb
    have hsum := Int.mul_tdiv_add_tmod a.toInt b.toInt
    have hle := Int64.le_toInt (a / b)
    have ha := Int64.le_toInt a
    have ha' := Int64.toInt_lt a
    by_contra hlow
    have hlow : a.toInt.tdiv b.toInt = -2 ^ 63 := by omega
    rw [hlow] at hsum
    omega
  · exact fun hsigns => toInt_add_of_neg_iff hsigns

/-- Where words divide, the quotient is corrected by one if the signs differ and something remains.
-/
theorem floorDiv?_eq (h : divides a b = true) : floorDiv? a b =
    some (if a % b ≠ 0 ∧ ¬(a < 0 ↔ b < 0) then a / b - 1 else a / b) := by
  simp [floorDiv?, h]

/-- So is the remainder. -/
theorem floorMod?_eq (h : divides a b = true) : floorMod? a b =
    some (if a % b ≠ 0 ∧ ¬(a % b < 0 ↔ b < 0) then a % b + b else a % b) := by
  simp [floorMod?, h]

/-- Quotient and remainder are words with the sum and the sign that they must have. -/
theorem exists_floorDiv? (h : divides a b = true) :
    ∃ q r, floorDiv? a b = some q ∧ floorMod? a b = some r ∧
      a.toInt = b.toInt * q.toInt + r.toInt ∧ IsRemainder b.toInt r.toInt := by
  have steps := exactSteps h
  have hb : b.toInt ≠ 0 := fun hb => (divides_eq_true_iff.1 h).1 (Int64.toInt_inj.1 hb)
  have hbounds := tmod_bounds a.toInt hb
  have hsum := Int.mul_tdiv_add_tmod a.toInt b.toInt
  rw [← steps.remainder] at hbounds
  rw [← steps.quotient, ← steps.remainder] at hsum
  have hneg (w : Int64) : w < 0 ↔ w.toInt < 0 := Int64.lt_iff_toInt_lt
  have hne (w : Int64) : w ≠ 0 ↔ w.toInt ≠ 0 := (not_congr Int64.toInt_inj).symm
  -- with something left, dividend and remainder have one sign, and both results are corrected or
  -- none is
  have hsame (hr : a % b ≠ 0) : a < 0 ↔ a % b < 0 := by
    rw [hne] at hr
    rw [hneg, hneg]
    omega
  by_cases hsigns : a % b ≠ 0 ∧ ¬(a % b < 0 ↔ b < 0)
  · obtain ⟨hr, hsigns⟩ := hsigns
    have hlowered := steps.lowered hr (by rwa [hsame hr])
    have hraised := steps.raised hr hsigns
    refine ⟨a / b - 1, a % b + b, ?_, ?_, ?_, ?_⟩
    · rw [floorDiv?_eq h, if_pos ⟨hr, by rwa [hsame hr]⟩]
    · rw [floorMod?_eq h, if_pos ⟨hr, hsigns⟩]
    · rw [hlowered, hraised, ← hsum]
      ring
    · rw [hneg, hneg] at hsigns
      rw [hne] at hr
      rw [hraised]
      unfold IsRemainder
      omega
  · refine ⟨a / b, a % b, ?_, ?_, hsum.symm, ?_⟩
    · rw [floorDiv?_eq h, if_neg fun hlow => hsigns ⟨hlow.1, by rw [← hsame hlow.1]; exact hlow.2⟩]
    · rw [floorMod?_eq h, if_neg hsigns]
    · rw [hne, hneg, hneg] at hsigns
      unfold IsRemainder
      omega

/-- The quotient of the least word by minus one is no word. -/
theorem floor_least_div : ⌊(Int64.minValue.toInt : ℚ) / (-1 : Int64).toInt⌋ = 2 ^ 63 :=
  floor_div (by decide) (.inr ⟨by decide, le_rfl⟩)

/-- **The quotient is rounded downward**, and it is none when it is no word. -/
theorem floorDiv?_eq_toInt64? (hb : b ≠ 0) :
    floorDiv? a b = toInt64? ⌊(a.toInt : ℚ) / b.toInt⌋ := by
  by_cases h : divides a b = true
  · obtain ⟨q, r, hq, -, hsum, hr⟩ := exists_floorDiv? h
    rw [hq, floor_div hsum hr, toInt64?_toInt]
  · obtain ⟨rfl, rfl⟩ : a = Int64.minValue ∧ b = -1 := by
      rw [divides_eq_true_iff] at h
      tauto
    rw [floor_least_div, toInt64?_of_lt (.inr le_rfl)]
    rfl

/-- The remainder is what the quotient, rounded downward, leaves of the dividend. -/
theorem floorMod?_eq_toInt64? (h : divides a b = true) :
    floorMod? a b = toInt64? (a.toInt - b.toInt * ⌊(a.toInt : ℚ) / b.toInt⌋) := by
  obtain ⟨q, r, -, hmod, hsum, hr⟩ := exists_floorDiv? h
  rw [hmod, floor_div hsum hr, ← toInt64?_toInt r]
  congr 1
  omega

/-! ## Powers -/

/-- A positive multiple of a number that is no word is none. -/
theorem toInt64?_mul_of_none {n k : Int} (h : n < -2 ^ 63 ∨ 2 ^ 63 ≤ n) (hk : 0 < k) :
    toInt64? (n * k) = none := by
  refine toInt64?_of_lt (h.imp (fun h => ?_) fun h => ?_)
  · nlinarith
  · nlinarith

/-- The square of a word is beyond the least word as well when it is no word: none is `2 ^ 63`. -/
theorem two_pow_lt_mul_self {n : Int} (h : 2 ^ 63 ≤ n * n) : 2 ^ 63 < n * n := by
  have habs : n * n = |n| * |n| := (abs_mul_abs_self n).symm
  rw [habs] at h ⊢
  rcases le_or_gt |n| 3037000499 with hle | hlt
  · have hnonneg := abs_nonneg n
    nlinarith
  · nlinarith

/-- A base whose square is no word is used once more at least, and its product is not zero. -/
theorem bind_square {product base : Int64} {m : Nat} (hm : m ≠ 0)
    (hzero : product.toInt = 0 → base.toInt = 0)
    (ih : ∀ square : Int64, (product.toInt = 0 → square.toInt = 0) →
      powerFrom? product square m = toInt64? (product.toInt * square.toInt ^ m)) :
    ((toInt64? (base.toInt * base.toInt)).bind fun square => powerFrom? product square m) =
      toInt64? (product.toInt * (base.toInt * base.toInt) ^ m) := by
  rcases toInt64?_cases (base.toInt * base.toInt) with ⟨square, hsquare⟩ | hbeyond
  · rw [← hsquare, toInt64?_toInt, Option.bind_some]
    exact ih square fun h => by rw [hsquare, hzero h, mul_zero]
  · have hlarge : 2 ^ 63 < base.toInt * base.toInt :=
      two_pow_lt_mul_self (hbeyond.resolve_left (by have := mul_self_nonneg base.toInt; omega))
    have hproduct : product.toInt ≠ 0 := fun h => by simp [hzero h] at hlarge
    obtain ⟨k, rfl⟩ := Nat.exists_eq_succ_of_ne_zero hm
    rw [toInt64?_of_lt hbeyond, Option.bind_none, pow_succ', ← mul_assoc]
    refine (toInt64?_mul_of_none ?_ (pow_pos (by omega) k)).symm
    rcases hproduct.lt_or_gt with hneg | hpos
    · exact .inl (by nlinarith)
    · exact .inr (by nlinarith)

/-- **Repeated squaring gives the power or refuses one that is no word.** A product that is zero
belongs to the base zero. -/
theorem powerFrom?_eq (product base : Int64) (exponent : Nat)
    (hzero : product.toInt = 0 → base.toInt = 0) :
    powerFrom? product base exponent = toInt64? (product.toInt * base.toInt ^ exponent) := by
  induction product, base, exponent using powerFrom?.induct with
  | case1 product base => rw [powerFrom?, if_pos rfl, pow_zero, mul_one, toInt64?_toInt]
  | case2 product base exponent hpos hodd ih =>
    have hpower : product.toInt * base.toInt ^ exponent =
        product.toInt * base.toInt * (base.toInt * base.toInt) ^ (exponent / 2) := by
      conv_lhs => rw [show exponent = 2 * (exponent / 2) + 1 by omega, pow_succ, pow_mul]
      ring
    rw [powerFrom?, if_neg hpos, if_pos hodd, hpower]
    rcases toInt64?_cases (product.toInt * base.toInt) with ⟨next, hnext⟩ | hbeyond
    · rw [← hnext, toInt64?_toInt]
      by_cases hone : exponent = 1
      · subst hone
        simp
      · have hzero : next.toInt = 0 → base.toInt = 0 := fun h =>
          (mul_eq_zero.1 (hnext ▸ h)).elim hzero id
        simpa [hone] using bind_square (by omega) hzero (ih next hone)
    · rw [toInt64?_of_lt hbeyond, toInt64?_mul_of_none hbeyond]
      · rfl
      · have hbase : base.toInt ≠ 0 := fun h => by simp [h] at hbeyond
        exact pow_pos (mul_self_pos.2 hbase) _
  | case3 product base exponent hpos heven ih =>
    have hpower : product.toInt * base.toInt ^ exponent =
        product.toInt * (base.toInt * base.toInt) ^ (exponent / 2) := by
      conv_lhs => rw [show exponent = 2 * (exponent / 2) by omega, pow_mul, pow_two]
    rw [powerFrom?, if_neg hpos, if_neg heven, hpower]
    have hone : exponent ≠ 1 := fun h => heven (by rw [h])
    simpa [hone] using bind_square (by omega) hzero (ih product hone)

/-- The powers of a base other than 0, 1 and -1 leave the words at the exponent 64. -/
theorem toInt64?_pow_of_two_le {n : Int} (hn : 2 ≤ |n|) {k : Nat} (hk : 64 ≤ k) :
    toInt64? (n ^ k) = none := by
  have habs : 2 ^ 64 ≤ |n ^ k| :=
    calc (2 : Int) ^ 64 ≤ 2 ^ k := pow_le_pow_right₀ (by decide) hk
      _ ≤ |n| ^ k := pow_le_pow_left₀ (by decide) hn k
      _ = |n ^ k| := (abs_pow n k).symm
  exact toInt64?_of_lt ((le_abs.1 habs).symm.imp (fun h => by omega) fun h => by omega)

/-- **Powers are exact** for the exponents of 32 bits, and for all of a base that grows. -/
theorem power?_eq_toInt64? (hb : 0 ≤ b.toInt) (h : b.toInt < 2 ^ 32 ∨ 2 ≤ |a.toInt|) :
    power? a b = toInt64? (a.toInt ^ b.toInt.toNat) := by
  unfold power?
  split_ifs with hlarge
  · have hmax : maxExponent = 2 ^ 32 - 1 := rfl
    exact (toInt64?_pow_of_two_le (h.resolve_left (by omega)) (by omega)).symm
  · rw [powerFrom?_eq 1 a _ fun h => absurd h (by decide), show (1 : Int64).toInt = 1 from rfl,
      one_mul]

end Integer

/-! ## Results -/

/-- The exact result of an operator on whole numbers, where it has one that is a whole number: the
quotient rounded downward, the remainder that it leaves, and powers with an exponent that is not
negative. -/
def exactResult? (op : BinaryOp) (a b : Int) : Option Int :=
  match op with
  | .add => some (a + b)
  | .sub => some (a - b)
  | .mul => some (a * b)
  | .floorDiv => if b = 0 then none else some ⌊(a : ℚ) / b⌋
  | .mod => if b = 0 then none else some (a - b * ⌊(a : ℚ) / b⌋)
  | .pow => if b < 0 then none else some (a ^ b.toNat)
  | .div | .and | .or => none

/-- The result is a number, or an overflow when the number is no word. -/
structure IsExact (result : Except EvalError Value) (n : Int) : Prop where
  word : ∀ w : Int64, w.toInt = n → result = .ok (.int w)
  overflow : (∀ w : Int64, w.toInt ≠ n) → result = .error .overflow

/-- What is refused as an overflow although its result is a word. -/
def Refused (op : BinaryOp) (a b : Int64) : Prop :=
  op = .mod ∧ a = Int64.minValue ∧ b = -1 ∨ op = .pow ∧ 2 ^ 32 ≤ b.toInt ∧ |a.toInt| ≤ 1

variable {result : Except EvalError Value} {n : Int}

/-- A result is exact if it is the checked one. -/
theorem isExact_iff : IsExact result n ↔ result = checked n := by
  unfold checked
  constructor
  · intro h
    rcases toInt64?_cases n with ⟨w, rfl⟩ | hbeyond
    · rw [toInt64?_toInt]
      exact h.word w rfl
    · have hnone := toInt64?_of_lt hbeyond
      rw [hnone]
      exact h.overflow (toInt64?_eq_none_iff.1 hnone)
  · rintro rfl
    refine ⟨fun w hw => ?_, fun h => ?_⟩
    · rw [← hw, toInt64?_toInt]
      rfl
    · rw [toInt64?_eq_none_iff.2 h]
      rfl

variable {op : BinaryOp} {a b : Int64}

/-- Two words are operated on as words. -/
theorem applyBinary_int (op : BinaryOp) (a b : Int64) :
    applyBinary op (.int a) (.int b) = intBinary op a b := by
  cases op <;> rfl

/-- **Where an operation is not refused, its result is the exact one if that is a word.** -/
theorem applyBinary_of_exactResult? (h : exactResult? op a.toInt b.toInt = some n)
    (hr : ¬Refused op a b) : applyBinary op (.int a) (.int b) = checked n := by
  rw [applyBinary_int]
  cases op with
  | add | sub | mul => exact congrArg checked (Option.some.inj h)
  | div | and | or => cases h
  | floorDiv =>
    obtain ⟨hb, ⟨⟩⟩ := Option.ite_none_left_eq_some.1 h
    have hb : b ≠ 0 := fun h => hb (by rw [h]; rfl)
    simp only [intBinary, checked, beq_iff_eq, if_neg hb, Integer.floorDiv?_eq_toInt64? hb]
  | mod =>
    obtain ⟨hb, ⟨⟩⟩ := Option.ite_none_left_eq_some.1 h
    have hb : b ≠ 0 := fun h => hb (by rw [h]; rfl)
    have hdivides : Integer.divides a b = true :=
      Integer.divides_eq_true_iff.2 ⟨hb, fun hleast => hr (.inl ⟨rfl, hleast⟩)⟩
    simp only [intBinary, checked, beq_iff_eq, if_neg hb, Integer.floorMod?_eq_toInt64? hdivides]
  | pow =>
    obtain ⟨hb, ⟨⟩⟩ := Option.ite_none_left_eq_some.1 h
    have hb' : ¬b < 0 := fun h => hb (Int64.lt_iff_toInt_lt.1 h)
    have hsmall : b.toInt < 2 ^ 32 ∨ 2 ≤ |a.toInt| := by
      by_contra hlarge
      exact hr (.inr ⟨rfl, by omega, by omega⟩)
    simp only [intBinary, checked, if_neg hb', Integer.power?_eq_toInt64? (by omega) hsmall]

/-- What is refused is an overflow. -/
theorem Refused.overflow (h : Refused op a b) :
    applyBinary op (.int a) (.int b) = .error .overflow := by
  obtain ⟨rfl, rfl, rfl⟩ | ⟨rfl, hb, -⟩ := h
  · rfl
  · have hneg : ¬b < 0 := by
      rw [Int64.lt_iff_toInt_lt, show (0 : Int64).toInt = 0 from rfl]
      omega
    have hmax : Integer.maxExponent = 2 ^ 32 - 1 := rfl
    rw [applyBinary_int, intBinary, if_neg hneg, Integer.power?, if_pos (by omega)]
    rfl

/-- The least word has no remainder by minus one. -/
theorem exactResult?_least_mod :
    exactResult? .mod Int64.minValue.toInt (-1 : Int64).toInt = some 0 := by
  rw [exactResult?, Integer.floor_least_div, if_neg (by decide)]
  rfl

/-- The exact result of what is refused is 0, 1 or -1. -/
theorem Refused.exists_word (h : Refused op a b) (hn : exactResult? op a.toInt b.toInt = some n) :
    ∃ w : Int64, w.toInt = n := by
  obtain ⟨rfl, rfl, rfl⟩ | ⟨rfl, hb, ha⟩ := h
  · rw [exactResult?_least_mod] at hn
    exact ⟨0, Option.some.inj hn⟩
  · obtain ⟨-, ⟨⟩⟩ := Option.ite_none_left_eq_some.1 hn
    obtain h | h | h : a.toInt = 0 ∨ a.toInt = 1 ∨ a.toInt = -1 := by
      rw [abs_le] at ha
      omega
    · exact ⟨0, by rw [h, zero_pow (by omega)]; rfl⟩
    · exact ⟨1, by rw [h, one_pow]; rfl⟩
    · rw [h]
      rcases neg_one_pow_eq_or Int b.toInt.toNat with h | h <;> rw [h]
      exacts [⟨1, rfl⟩, ⟨-1, rfl⟩]

/-- What is refused has no exact result that is given. -/
theorem Refused.not_isExact (h : Refused op a b) (hn : exactResult? op a.toInt b.toInt = some n) :
    ¬IsExact (applyBinary op (.int a) (.int b)) n := fun hexact => by
  obtain ⟨w, hw⟩ := h.exists_word hn
  have hword := hexact.word w hw
  rw [h.overflow] at hword
  cases hword

/-- An overflow is no division by zero. -/
theorem orOverflow_ne_divisionByZero (w : Option Int64) :
    orOverflow w ≠ .error .divisionByZero := by
  cases w <;> simp [orOverflow]

/-- A division by zero is reported just where one is asked for. -/
theorem applyBinary_eq_divisionByZero_iff (hdiv : op ≠ .div) (hpow : op = .pow → 0 ≤ b) :
    applyBinary op (.int a) (.int b) = .error .divisionByZero ↔
      (op = .floorDiv ∨ op = .mod) ∧ b = 0 := by
  rw [applyBinary_int]
  cases op with
  | div => exact absurd rfl hdiv
  | add | sub | mul => simp [intBinary, checked, orOverflow_ne_divisionByZero]
  | and | or => simp [intBinary]
  | floorDiv | mod =>
    by_cases hb : b = 0 <;> simp [intBinary, hb, orOverflow_ne_divisionByZero]
  | pow =>
    have hb : ¬b < 0 := by simpa using hpow rfl
    simp [intBinary, hb, orOverflow_ne_divisionByZero]

/-- A negated word is exact. -/
theorem applyUnary_neg_int (a : Int64) : IsExact (applyUnary .neg (.int a)) (-a.toInt) :=
  isExact_iff.2 rfl

/-- So is an absolute value. -/
theorem outcome_abs_int {σ : Type} (bindings : Bindings σ) (state : σ) (a : Int64) :
    outcome (applyCall bindings "abs" [.int a]) state = (checked |a.toInt|, state) := by
  rw [Int.abs_eq_natAbs]
  rfl

/-- A word is found just if there is one. -/
theorem orOverflow_eq_ok {word : Option Int64} {w : Int64} :
    orOverflow word = .ok (.int w) ↔ word = some w := by
  cases word <;> simp [orOverflow]

/-- Quotient and remainder that are both given belong together. -/
theorem floorDiv_mod_belong {q r : Int64}
    (hq : applyBinary .floorDiv (.int a) (.int b) = .ok (.int q))
    (hr : applyBinary .mod (.int a) (.int b) = .ok (.int r)) :
    a.toInt = q.toInt * b.toInt + r.toInt ∧ Integer.IsRemainder b.toInt r.toInt := by
  rw [applyBinary_int] at hq hr
  by_cases hb : b = 0
  · subst hb
    cases hq
  · simp only [intBinary, beq_iff_eq, if_neg hb, orOverflow_eq_ok] at hq hr
    have hdivides : Integer.divides a b = true := by
      by_contra h
      rw [Integer.floorDiv?, if_neg h] at hq
      cases hq
    obtain ⟨_, _, hq', hr', hsum, hremainder⟩ := Integer.exists_floorDiv? hdivides
    cases hq.symm.trans hq'
    cases hr.symm.trans hr'
    exact ⟨by rw [hsum, mul_comm], hremainder⟩

/-- **Arithmetic on whole numbers is exact, or says that it is not**: every operation gives its
exact result when that is a word and an overflow when it is not, apart from what is `Refused`;
nothing but a quotient or a remainder by zero is a division by zero; quotient and remainder belong
together; and no step on the way wraps. -/
theorem integer_arithmetic {σ : Type} (bindings : Bindings σ) (state : σ) (a b : Int64) :
    (∀ op n, exactResult? op a.toInt b.toInt = some n →
      (IsExact (applyBinary op (.int a) (.int b)) n ↔ ¬Refused op a b)) ∧
    (∀ op, Refused op a b → applyBinary op (.int a) (.int b) = .error .overflow) ∧
    (∀ op, op ≠ .div → (op = .pow → 0 ≤ b) →
      (applyBinary op (.int a) (.int b) = .error .divisionByZero ↔
        (op = .floorDiv ∨ op = .mod) ∧ b = 0)) ∧
    (∀ q r, applyBinary .floorDiv (.int a) (.int b) = .ok (.int q) →
      applyBinary .mod (.int a) (.int b) = .ok (.int r) →
      a.toInt = q.toInt * b.toInt + r.toInt ∧ Integer.IsRemainder b.toInt r.toInt) ∧
    (Integer.divides a b = true → Integer.ExactSteps a b) ∧
    IsExact (applyUnary .neg (.int a)) (-a.toInt) ∧
    ∃ result, IsExact result |a.toInt| ∧
      outcome (applyCall bindings "abs" [.int a]) state = (result, state) := by
  refine ⟨fun op n hn => ⟨fun hexact hr => hr.not_isExact hn hexact, fun hr =>
      isExact_iff.2 (applyBinary_of_exactResult? hn hr)⟩,
    fun op hr => hr.overflow, fun op => applyBinary_eq_divisionByZero_iff,
    fun _ _ => floorDiv_mod_belong, Integer.exactSteps, applyUnary_neg_int a, checked |a.toInt|,
    isExact_iff.2 rfl,
    outcome_abs_int bindings state a⟩

/-- The signs of quotients and remainders, one word that is refused, and a division by zero. -/
theorem integer_arithmetic_signs :
    IsExact (applyBinary .floorDiv (.int (-7)) (.int 2)) (-4) ∧
    applyBinary .mod (.int Int64.minValue) (.int (-1)) = .error .overflow ∧
    applyBinary .mod (.int (-7)) (.int 0) = .error .divisionByZero ∧
    (-7 = -4 * 2 + 1 ∧ Integer.IsRemainder 2 1) ∧
    Integer.ExactSteps (-7) 2 := by
  have nothing : Bindings Unit :=
    ⟨fun _ => .ok none, fun _ => pure none, fun _ => pure none, none, pure⟩
  have h := integer_arithmetic nothing () (-7) 2
  have hfloor : ⌊((-7 : Int64).toInt : ℚ) / (2 : Int64).toInt⌋ = -4 :=
    Integer.floor_div (r := 1) (by decide) (.inl ⟨by decide, by decide⟩)
  have hexact : exactResult? .floorDiv (-7 : Int64).toInt (2 : Int64).toInt = some (-4) := by
    rw [exactResult?, hfloor, if_neg (by decide)]
  refine ⟨(h.1 .floorDiv (-4) hexact).2 (by simp [Refused]), ?_, ?_, ?_, h.2.2.2.2.1 (by decide)⟩
  · exact (integer_arithmetic nothing () Int64.minValue (-1)).2.1 .mod (.inl ⟨rfl, rfl, rfl⟩)
  · exact ((integer_arithmetic nothing () (-7) 0).2.2.1 .mod (by decide) (by decide)).2
      ⟨.inr rfl, rfl⟩
  · exact h.2.2.2.1 (-4) 1 rfl rfl

/-- The remainder of the least word by minus one is 0, and the powers of 1 are 1. -/
theorem overflow_at_words :
    exactResult? .mod Int64.minValue.toInt (-1 : Int64).toInt = some 0 ∧
    applyBinary .mod (.int Int64.minValue) (.int (-1)) = .error .overflow ∧
    exactResult? .pow (1 : Int64).toInt (4294967296 : Int64).toInt = some 1 ∧
    applyBinary .pow (.int 1) (.int 4294967296) = .error .overflow := by
  refine ⟨exactResult?_least_mod, rfl, ?_, Refused.overflow (.inr ⟨rfl, by decide, by decide⟩)⟩
  rw [exactResult?, if_neg (by decide), show (1 : Int64).toInt = 1 from rfl, one_pow]

end LaunchFile.Expr
