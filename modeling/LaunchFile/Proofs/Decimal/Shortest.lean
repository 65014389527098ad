import LaunchFile.Decimal.Layout
import Mathlib.Algebra.Order.Field.Power
import Mathlib.Data.Rat.Cast.Order
import Mathlib.Order.Monotone.Basic
import Mathlib.Tactic.Linarith
import Mathlib.Tactic.NormNum
import Mathlib.Tactic.Positivity
import Mathlib.Tactic.Ring

/-!
# Proofs/Decimal/Shortest — the double of which a decimal is the shortest

The intervals of two doubles have at most an end in common, which then belongs to one of them only
(`eq_of_mem_reals`). With seventeen digits the decimals lie closer than any interval is wide, so
that the search ends within the interval (`amount_shortest_mem`). A decimal is therefore the
shortest one of one double only, its sign left out (`eq_of_amount_shortest`).
-/

namespace LaunchFile.Decimal

/-! ## Intervals in units

The doubles without their sign are numbered in order. In quarters of the least positive double the
ends of their intervals are natural numbers. -/

/-- The number of a double, its sign left out. -/
def magnitude (bits : UInt64) : Nat :=
  bits.toNat % 2 ^ 63

/-- The digits of a magnitude in binary, the leading one included if it is normal. -/
def significand (n : Nat) : Nat :=
  if n / 2 ^ 52 = 0 then n % 2 ^ 52 else 2 ^ 52 + n % 2 ^ 52

/-- The power of two by which a unit in the last place is larger than the least one. -/
def shift (n : Nat) : Nat :=
  n / 2 ^ 52 - 1

/-- How far below a double its interval begins, in quarters of its unit in the last place. -/
def gapBelow (n : Nat) : Nat :=
  if n % 2 ^ 52 = 0 ∧ 1 < n / 2 ^ 52 then 1 else 2

/-- The lower end of the interval, in least units. -/
def lowUnits (n : Nat) : Nat :=
  (4 * significand n - gapBelow n) * 2 ^ shift n

/-- The upper end of the interval, in least units. -/
def highUnits (n : Nat) : Nat :=
  (4 * significand n + 2) * 2 ^ shift n

/-- The interval of the double with this number. -/
def intervalOf (n : Nat) : Interval :=
  ⟨4 * significand n, 4 * significand n - gapBelow n, 4 * significand n + 2, shift n - 1076,
    significand n % 2 == 0⟩

/-- The interval of a word is that of its magnitude; the sign is no part of it. -/
theorem intervalOfBits_eq (bits : UInt64) :
    intervalOfBits bits = intervalOf (magnitude bits) := by
  have hfield : bits.toNat / 2 ^ 52 % 2 ^ 11 = magnitude bits / 2 ^ 52 := by
    rw [magnitude]
    omega
  have hfraction : bits.toNat % 2 ^ 52 = magnitude bits % 2 ^ 52 := by
    rw [magnitude]
    omega
  simp only [intervalOfBits, Nat.pow_eq, hfield, hfraction]
  simp only [intervalOf, significand, gapBelow, shift, beq_iff_eq, Bool.and_eq_true,
    decide_eq_true_eq, gt_iff_lt]
  split <;> simp_all <;> omega

/-- **Each interval ends where the next one begins.** -/
theorem highUnits_eq_lowUnits_succ (n : Nat) : highUnits n = lowUnits (n + 1) := by
  by_cases hlast : n % 2 ^ 52 + 1 = 2 ^ 52
  · -- the significand starts again with the next field
    have hfield : (n + 1) / 2 ^ 52 = n / 2 ^ 52 + 1 := by omega
    have hfraction : (n + 1) % 2 ^ 52 = 0 := by omega
    simp only [highUnits, lowUnits, significand, gapBelow, shift, hfield, hfraction]
    cases hn : n / 2 ^ 52 with
    | zero =>
      simp
      omega
    | succ f =>
      have hcount : 4 * (2 ^ 52 + n % 2 ^ 52) + 2 = (4 * 2 ^ 52 - 1) * 2 := by omega
      simp only [Nat.add_eq_zero_iff, one_ne_zero, and_false, if_false, Nat.add_sub_cancel,
        add_zero, true_and, Nat.lt_add_left_iff_pos, Nat.zero_lt_succ, if_true]
      rw [hcount, Nat.mul_assoc, ← Nat.pow_succ']
  · -- the significand goes on, and the field stays
    have hfield : (n + 1) / 2 ^ 52 = n / 2 ^ 52 := by omega
    have hfraction : (n + 1) % 2 ^ 52 = n % 2 ^ 52 + 1 := by omega
    simp only [highUnits, lowUnits, significand, gapBelow, shift, hfield, hfraction]
    congr 1
    split <;> simp <;> omega

/-- No interval is empty. -/
theorem lowUnits_lt_highUnits (n : Nat) : lowUnits n < highUnits n := by
  have hgap : gapBelow n ≤ 2 ∧ 0 < gapBelow n := by
    unfold gapBelow
    split <;> decide
  exact Nat.mul_lt_mul_of_pos_right (by omega) (Nat.two_pow_pos _)

/-- Ends of intervals grow with the magnitude. -/
theorem strictMono_highUnits : StrictMono highUnits :=
  strictMono_nat_of_lt_succ fun n =>
    highUnits_eq_lowUnits_succ n ▸ lowUnits_lt_highUnits (n + 1)

/-! ## Intervals of numbers -/

/-- The numbers in an interval. -/
def Interval.reals (i : Interval) : Set ℚ :=
  if i.closed then Set.Icc (i.low * 2 ^ i.power) (i.high * 2 ^ i.power)
  else Set.Ioo (i.low * 2 ^ i.power) (i.high * 2 ^ i.power)

/-- All numbers of an interval lie between its ends. -/
theorem Interval.reals_subset_Icc (i : Interval) :
    i.reals ⊆ Set.Icc (i.low * 2 ^ i.power : ℚ) (i.high * 2 ^ i.power) := by
  unfold reals
  split
  · exact subset_rfl
  · exact Set.Ioo_subset_Icc_self

variable {n m : Nat} {x : ℚ}

/-- A quarter of the least positive double. -/
def leastUnit : ℚ :=
  2 ^ (-1076 : Int)

theorem leastUnit_pos : 0 < leastUnit := by
  rw [leastUnit]
  exact zpow_pos two_pos (-1076)

theorem mul_zpow_sub (count k : Nat) (e : Int) :
    (count * 2 ^ (k - e : Int) : ℚ) = (count * 2 ^ k : Nat) * 2 ^ (-e) := by
  rw [sub_eq_add_neg, zpow_add₀ two_ne_zero, zpow_natCast]
  push_cast
  ring

/-- The unit of an interval is a power of two of the least unit. -/
theorem mul_shift_eq (count n : Nat) :
    (count * 2 ^ (shift n - 1076 : Int) : ℚ) = (count * 2 ^ shift n : Nat) * leastUnit :=
  mul_zpow_sub count (shift n) 1076

/-- The ends of an interval in the least unit. -/
theorem mem_reals_bounds (h : x ∈ (intervalOf n).reals) :
    lowUnits n * leastUnit ≤ x ∧ x ≤ highUnits n * leastUnit := by
  have hbounds := (intervalOf n).reals_subset_Icc h
  simp only [intervalOf, mul_shift_eq] at hbounds
  exact hbounds

/-- An interval with one of its ends has an even significand. -/
theorem even_of_mem_reals (h : x ∈ (intervalOf n).reals)
    (hend : x = lowUnits n * leastUnit ∨ x = highUnits n * leastUnit) :
    significand n % 2 = 0 := by
  by_contra hodd
  have hopen : (intervalOf n).closed = false := by simpa [intervalOf] using hodd
  rw [Interval.reals, hopen, if_neg Bool.false_ne_true] at h
  simp only [intervalOf, mul_shift_eq] at h
  obtain rfl | rfl := hend
  · exact lt_irrefl _ h.1
  · exact lt_irrefl _ h.2

theorem significand_mod_two (n : Nat) : significand n % 2 = n % 2 := by
  unfold significand
  split <;> omega

/-- **Intervals of different magnitudes have no number in common.** Where two of them meet, their
common end belongs to the even one only. -/
theorem not_mem_reals_of_lt (h : n < m) (hn : x ∈ (intervalOf n).reals)
    (hm : x ∈ (intervalOf m).reals) : False := by
  obtain ⟨m, rfl⟩ : ∃ k, m = k + 1 := ⟨m - 1, by omega⟩
  have hhigh := (mem_reals_bounds hn).2
  have hlow := (mem_reals_bounds hm).1
  rw [← highUnits_eq_lowUnits_succ] at hlow
  have hle : highUnits m ≤ highUnits n := by
    exact_mod_cast le_of_mul_le_mul_right (hlow.trans hhigh) leastUnit_pos
  -- only the end between two neighbours is left, and one of them is odd
  obtain rfl : n = m :=
    le_antisymm (by omega) (strictMono_highUnits.le_iff_le.1 hle)
  have hend : x = highUnits n * leastUnit := le_antisymm hhigh hlow
  have heven := even_of_mem_reals hn (.inr hend)
  have hnext := even_of_mem_reals hm (.inl (by rw [← highUnits_eq_lowUnits_succ, hend]))
  rw [significand_mod_two] at heven hnext
  omega

/-- **No number belongs to the intervals of two doubles.** -/
theorem eq_of_mem_reals (hn : x ∈ (intervalOf n).reals) (hm : x ∈ (intervalOf m).reals) :
    n = m := by
  obtain h | h | h := lt_trichotomy n m
  · exact (not_mem_reals_of_lt h hn hm).elim
  · exact h
  · exact (not_mem_reals_of_lt h hm hn).elim

/-! ## The grid -/

/-- The number that a coefficient and a power of ten come to. -/
def amount (pair : Nat × Int) : ℚ :=
  pair.1 * 10 ^ pair.2

theorem zpow_mul_pow_neg {b : ℚ} (hb : b ≠ 0) (e : Int) :
    b ^ e * b ^ (-e).toNat = b ^ e.toNat := by
  rw [← zpow_natCast b (-e).toNat, ← zpow_natCast b e.toNat, ← zpow_add₀ hb]
  congr 1
  omega

/-- What both the interval and the grid are multiplied by. -/
def commonScale (power ten : Int) : ℚ :=
  2 ^ (-power).toNat * 10 ^ (-ten).toNat

/-- What both sides are scaled by is not zero. -/
theorem commonScale_pos (power ten : Int) : 0 < commonScale power ten := by
  unfold commonScale
  positivity

/-- The step of the grid, scaled. -/
theorem Interval.grid_step (i : Interval) (ten : Int) :
    ((i.grid ten).step : ℚ) = commonScale i.power ten * 10 ^ ten := by
  rw [grid, commonScale, mul_assoc, mul_comm (10 ^ _ : ℚ), zpow_mul_pow_neg (by norm_num)]
  simp only [Nat.pow_eq]
  push_cast
  rfl

theorem commonScale_mul_zpow (power ten : Int) :
    ((Nat.pow 2 power.toNat * Nat.pow 10 (-ten).toNat : Nat) : ℚ) =
      commonScale power ten * 2 ^ power := by
  rw [commonScale, mul_right_comm, mul_comm (2 ^ _ : ℚ) (2 ^ power),
    zpow_mul_pow_neg two_ne_zero]
  simp only [Nat.pow_eq]
  push_cast
  rfl

/-- The lower end of the grid, scaled. -/
theorem Interval.grid_low (i : Interval) (ten : Int) :
    ((i.grid ten).low : ℚ) = commonScale i.power ten * (i.low * 2 ^ i.power) := by
  rw [grid, Nat.cast_mul, commonScale_mul_zpow]
  ring

/-- The upper end of the grid, scaled. -/
theorem Interval.grid_high (i : Interval) (ten : Int) :
    ((i.grid ten).high : ℚ) = commonScale i.power ten * (i.high * 2 ^ i.power) := by
  rw [grid, Nat.cast_mul, commonScale_mul_zpow]
  ring

theorem Interval.grid_point (i : Interval) (ten : Int) (count : Nat) :
    ((count * (i.grid ten).step : Nat) : ℚ) =
      commonScale i.power ten * amount (count, ten) := by
  rw [Nat.cast_mul, grid_step, amount]
  ring

/-- A point of the grid that holds is a number of the interval. -/
theorem Interval.mem_reals_of_holds {i : Interval} {ten : Int} {count : Nat}
    (h : (i.grid ten).holds count = true) : amount (count, ten) ∈ i.reals := by
  have hscale := commonScale_pos i.power ten
  have hclosed : (i.grid ten).closed = i.closed := rfl
  rw [Grid.holds, hclosed] at h
  rw [reals]
  split at h
  · rw [if_pos ‹_›, Set.mem_Icc]
    simp only [Bool.and_eq_true, decide_eq_true_eq] at h
    rw [← @Nat.cast_le ℚ, ← @Nat.cast_le ℚ, grid_low, grid_high, grid_point] at h
    exact ⟨le_of_mul_le_mul_left h.1 hscale, le_of_mul_le_mul_left h.2 hscale⟩
  · rw [if_neg ‹_›, Set.mem_Ioo]
    simp only [Bool.and_eq_true, decide_eq_true_eq] at h
    rw [← @Nat.cast_lt ℚ, ← @Nat.cast_lt ℚ, grid_low, grid_high, grid_point] at h
    exact ⟨lt_of_mul_lt_mul_left h.1 hscale.le, lt_of_mul_lt_mul_left h.2 hscale.le⟩

/-- The nearest point holds, or no neighbour does. -/
theorem Grid.nearest?_cases (tie : Tie) (g : Grid) :
    (g.nearest? tie = none ∧ g.holds (g.value / g.step) = false ∧
      g.holds (g.value / g.step + 1) = false) ∨
    ∃ count, g.nearest? tie = some count ∧ g.holds count = true := by
  cases hbelow : g.holds (g.value / g.step) <;>
    cases habove : g.holds (g.value / g.step + 1) <;> simp only [nearest?, hbelow, habove]
  case false.false => exact .inl ⟨trivial, trivial, trivial⟩
  case false.true => exact .inr ⟨_, rfl, habove⟩
  case true.false => exact .inr ⟨_, rfl, hbelow⟩
  case true.true =>
    refine .inr ?_
    split
    · exact ⟨_, rfl, hbelow⟩
    split
    · exact ⟨_, rfl, habove⟩
    cases tie with
    | up => exact ⟨_, rfl, habove⟩
    | toEven => exact ⟨_, rfl, by split <;> assumption⟩

/-- A point that is chosen holds. -/
theorem Grid.holds_of_nearest? {tie : Tie} {g : Grid} {count : Nat}
    (h : g.nearest? tie = some count) : g.holds count = true := by
  obtain ⟨hnone, -⟩ | ⟨count', hsome, hholds⟩ := g.nearest?_cases tie
  · cases hnone.symm.trans h
  · cases hsome.symm.trans h
    exact hholds

/-- A grid with a step below the width of the interval has a point in it. -/
theorem Grid.nearest?_ne_none (tie : Tie) {g : Grid} (hlow : g.low < g.value)
    (hhigh : g.value < g.high) (hstep : 0 < g.step) (hwidth : g.step < g.high - g.low) :
    g.nearest? tie ≠ none := by
  have hbelow : g.value / g.step * g.step ≤ g.value := Nat.div_mul_le_self _ _
  have habove : g.value < g.value / g.step * g.step + g.step := by
    rw [← Nat.succ_mul, Nat.mul_comm]
    exact Nat.lt_mul_div_succ _ hstep
  have hsome : g.holds (g.value / g.step) = true ∨ g.holds (g.value / g.step + 1) = true := by
    simp only [holds, Nat.add_mul, Nat.one_mul]
    split <;> simp only [Bool.and_eq_true, decide_eq_true_eq] <;> omega
  obtain ⟨-, hno⟩ | ⟨count, hcount, -⟩ := g.nearest?_cases tie
  · rw [hno.1, hno.2] at hsome
    exact absurd hsome (by decide)
  · rw [hcount]
    exact Option.some_ne_none count

/-! ## Seventeen digits -/

theorem digitCount_pos (n : Nat) : 0 < digitCount n :=
  Nat.length_toDigits_pos

/-- A number has as many digits as its size says. -/
theorem pow_digitCount_le (hn : 0 < n) : 10 ^ (digitCount n - 1) ≤ n := by
  by_contra hlt
  obtain hone | hmore : digitCount n = 1 ∨ 0 < digitCount n - 1 := by
    have := digitCount_pos n
    omega
  · rw [hone] at hlt
    omega
  · have hle := (Nat.length_toDigits_le_iff (by decide) hmore).2 (Nat.lt_of_not_le hlt)
    rw [← digitCount] at hle
    omega

/-- Scaling down rounds down. -/
theorem Interval.scaled_le (i : Interval) (places : Nat) :
    i.scaled places ≤ (i.value * 2 ^ i.power * 10 ^ places : ℚ) := by
  have hpos : (0 : ℚ) < 2 ^ (-i.power).toNat := by positivity
  have hcut : i.scaled places * 2 ^ (-i.power).toNat ≤
      i.value * 2 ^ i.power.toNat * 10 ^ places := Nat.div_mul_le_self _ _
  have hcast : (i.scaled places : ℚ) * 2 ^ (-i.power).toNat ≤
      i.value * 2 ^ i.power.toNat * 10 ^ places := by exact_mod_cast hcut
  refine le_of_mul_le_mul_right (hcast.trans_eq ?_) hpos
  rw [← zpow_mul_pow_neg two_ne_zero i.power]
  ring

/-- A number above zero has digits at enough places. -/
theorem Interval.scaled_pos {i : Interval} {places : Nat} (hvalue : 0 < i.value)
    (hpower : 2 ^ (-i.power).toNat ≤ 10 ^ places) : 0 < i.scaled places := by
  refine Nat.div_pos (hpower.trans ?_) (Nat.two_pow_pos _)
  exact Nat.le_mul_of_pos_left _ (Nat.mul_pos hvalue (Nat.two_pow_pos _))

/-- The digits of the value in some number of places say how large it is at least. -/
theorem Interval.pow_scaled_le (i : Interval) {places : Nat} (hpos : 0 < i.scaled places) :
    (10 ^ (digitCount (i.scaled places) - places - 1 : Int) : ℚ) ≤ i.value * 2 ^ i.power := by
  have hdigits : (10 ^ (digitCount (i.scaled places) - 1) : ℚ) ≤
      i.value * 2 ^ i.power * 10 ^ places := by
    refine le_trans ?_ (i.scaled_le places)
    exact_mod_cast pow_digitCount_le hpos
  have hcount := digitCount_pos (i.scaled places)
  rw [show (digitCount (i.scaled places) - places - 1 : Int) =
      (digitCount (i.scaled places) - 1 : Nat) - (places : Int) by omega,
    zpow_sub₀ (by norm_num), zpow_natCast, zpow_natCast]
  exact (div_le_iff₀ (by positivity)).2 hdigits

/-- The order of an interval is the place of its leading digit. -/
theorem Interval.pow_order_le {i : Interval} (hpos : 0 < i.scaled 400) :
    (10 ^ (i.order - 1) : ℚ) ≤ i.value * 2 ^ i.power :=
  i.pow_scaled_le hpos

/-- The value lies inside of the interval, which is not much narrower than the last of sixteen
digits. -/
structure Interval.IsWide (i : Interval) : Prop where
  low_lt : i.low < i.value
  lt_high : i.value < i.high
  width : i.value < (i.high - i.low) * 10 ^ 16
  scaled_pos : 0 < i.scaled 400

/-- A wide interval is longer than a step of seventeen digits. -/
theorem Interval.IsWide.pow_lt {i : Interval} (h : i.IsWide) :
    (10 ^ (i.order - 17) : ℚ) < i.high * 2 ^ i.power - i.low * 2 ^ i.power := by
  have hpower : (0 : ℚ) < 2 ^ i.power := zpow_pos two_pos _
  have hwidth : (i.value : ℚ) < (i.high - i.low) * 10 ^ 16 := by
    rw [← Nat.cast_sub (h.low_lt.trans h.lt_high).le]
    exact_mod_cast h.width
  have hsplit : (10 ^ (i.order - 17) * 10 ^ 16 : ℚ) = 10 ^ (i.order - 1) := by
    rw [← zpow_natCast, ← zpow_add₀ (by norm_num)]
    congr 1
    push_cast
    ring
  refine lt_of_mul_lt_mul_right ?_ (by norm_num : (0 : ℚ) ≤ 10 ^ 16)
  calc (10 ^ (i.order - 17) * 10 ^ 16 : ℚ)
    _ ≤ i.value * 2 ^ i.power := hsplit ▸ pow_order_le h.scaled_pos
    _ < (i.high - i.low) * 10 ^ 16 * 2 ^ i.power := mul_lt_mul_of_pos_right hwidth hpower
    _ = (i.high * 2 ^ i.power - i.low * 2 ^ i.power) * 10 ^ 16 := by ring

/-- **Seventeen digits are enough.** -/
theorem Interval.IsWide.nearest?_ne_none {i : Interval} (h : i.IsWide) (tie : Tie) :
    (i.grid (i.order - 17)).nearest? tie ≠ none := by
  have hscale := commonScale_pos i.power (i.order - 17)
  have hgrid : 0 < Nat.pow 2 i.power.toNat * Nat.pow 10 (-(i.order - 17)).toNat :=
    Nat.mul_pos (Nat.two_pow_pos _) (Nat.pow_pos (by decide))
  have hlow : (i.grid (i.order - 17)).low < (i.grid (i.order - 17)).value :=
    Nat.mul_lt_mul_of_pos_right h.low_lt hgrid
  have hhigh : (i.grid (i.order - 17)).value < (i.grid (i.order - 17)).high :=
    Nat.mul_lt_mul_of_pos_right h.lt_high hgrid
  refine Grid.nearest?_ne_none tie hlow hhigh
    (Nat.mul_pos (Nat.two_pow_pos _) (Nat.pow_pos (by decide))) ?_
  rw [← @Nat.cast_lt ℚ, Nat.cast_sub (hlow.trans hhigh).le, grid_step, grid_low, grid_high,
    ← mul_sub]
  exact mul_lt_mul_of_pos_left h.pow_lt hscale

/-- **The search ends in the interval** with seventeen digits at the latest. -/
theorem Interval.IsWide.search_mem {i : Interval} (h : i.IsWide) (tie : Tie) (tries digits : Nat)
    (hlast : digits + tries = 17) :
    amount (i.search tie i.order (tries + 1) digits) ∈ i.reals := by
  induction tries generalizing digits with
  | zero =>
    obtain rfl : digits = 17 := by omega
    obtain ⟨count, hcount⟩ := Option.ne_none_iff_exists'.1 (h.nearest?_ne_none tie)
    simp only [search, Nat.cast_ofNat, hcount]
    exact mem_reals_of_holds (Grid.holds_of_nearest? hcount)
  | succ tries ih =>
    rw [search]
    split
    · exact mem_reals_of_holds (Grid.holds_of_nearest? ‹_›)
    · exact ih (digits + 1) (by omega)

/-- Zeros at the end are no part of the amount. -/
theorem amount_trimZeros (fuel : Nat) (pair : Nat × Int) :
    amount (trimZeros fuel pair) = amount pair := by
  induction fuel generalizing pair with
  | zero => rfl
  | succ fuel ih =>
    obtain ⟨count, ten⟩ := pair
    rw [trimZeros]
    split
    · rename_i hzero
      simp only [Bool.and_eq_true, beq_iff_eq, bne_iff_ne] at hzero
      have hten : count / 10 * 10 = count := Nat.div_mul_cancel (Nat.dvd_of_mod_eq_zero hzero.2)
      rw [ih, amount, amount, zpow_add₀ (by norm_num), zpow_one, mul_comm (10 ^ ten : ℚ),
        ← mul_assoc]
      simp only
      rw [← hten]
      push_cast
      norm_num
    · rfl

/-! ## The shortest decimal -/

/-- Three bits fit into a digit. -/
theorem two_pow_le_ten_pow {bits places : Nat} (h : bits ≤ 3 * places) :
    2 ^ bits ≤ 10 ^ places :=
  calc 2 ^ bits
    _ ≤ 2 ^ (3 * places) := Nat.pow_le_pow_right two_pos h
    _ = (2 ^ 3) ^ places := Nat.pow_mul ..
    _ ≤ 10 ^ places := Nat.pow_le_pow_left (by norm_num) places

/-- The intervals of all numbers but zero are wide. -/
theorem isWide_intervalOf (h : significand n ≠ 0) : (intervalOf n).IsWide := by
  have hgap : gapBelow n = 2 ∨ gapBelow n = 1 ∧ significand n = 2 ^ 52 := by
    unfold gapBelow significand
    split
    · rename_i hpower
      rw [if_neg (by omega), hpower.1]
      exact .inr ⟨rfl, rfl⟩
    · exact .inl rfl
  have hsmall : significand n < 2 ^ 53 := by
    unfold significand
    split <;> omega
  refine ⟨?_, ?_, ?_, Interval.scaled_pos ?_ ?_⟩ <;> simp only [intervalOf]
  · omega
  · omega
  · omega
  · omega
  · exact two_pow_le_ten_pow (by omega)

/-- Zero lies in its own interval. -/
theorem zero_mem_reals (h : significand n = 0) : (0 : ℚ) ∈ (intervalOf n).reals := by
  have hclosed : (intervalOf n).closed = true := by simp [intervalOf, h]
  have hlow : (intervalOf n).low = 0 := by simp [intervalOf, h]
  rw [Interval.reals, if_pos hclosed, hlow, Nat.cast_zero, zero_mul]
  exact ⟨le_rfl, mul_nonneg (Nat.cast_nonneg _) (zpow_pos two_pos _).le⟩

/-- **The shortest decimal of a double lies in the interval of the double.** -/
theorem amount_shortest_mem (tie : Tie) (x : Float) :
    amount (shortest tie x) ∈ (intervalOf (magnitude x.toBits)).reals := by
  rw [shortest, intervalOfBits_eq]
  by_cases hzero : significand (magnitude x.toBits) = 0
  · have hvalue : (intervalOf (magnitude x.toBits)).value == 0 := by simp [intervalOf, hzero]
    rw [if_pos hvalue, amount, Nat.cast_zero, zero_mul]
    exact zero_mem_reals hzero
  · have hvalue : ¬((intervalOf (magnitude x.toBits)).value == 0) = true := by
      simpa [intervalOf] using hzero
    rw [if_neg hvalue, amount_trimZeros]
    exact (isWide_intervalOf hzero).search_mem tie 16 1 rfl

/-- Only zero is written with the digit zero alone. -/
theorem shortest_eq_zero {tie : Tie} {x : Float} (h : (shortest tie x).1 = 0) :
    shortest tie x = (0, 0) := by
  have hmem := amount_shortest_mem tie x
  rw [amount, h, Nat.cast_zero, zero_mul] at hmem
  have hmagnitude := eq_of_mem_reals hmem (zero_mem_reals (n := 0) rfl)
  rw [shortest, intervalOfBits_eq, hmagnitude]
  rfl

/-- The sign of a float is the highest bit of its word. -/
theorem isNegative_iff (x : Float) : isNegative x = true ↔ 2 ^ 63 ≤ x.toBits.toNat := by
  have hlt := x.toBits.toNat_lt
  rw [isNegative, beq_iff_eq, ← UInt64.toNat_inj, UInt64.toNat_shiftRight,
    Nat.shiftRight_eq_div_pow]
  change x.toBits.toNat / 2 ^ 63 = 1 ↔ _
  omega

/-- A double is its number and its sign. -/
theorem eq_of_magnitude_eq {x y : Float} (h : magnitude x.toBits = magnitude y.toBits)
    (hsign : isNegative x = isNegative y) : x = y := by
  have hbits : x.toBits = y.toBits := by
    have hx := x.toBits.toNat_lt
    have hy := y.toBits.toNat_lt
    have hiff : 2 ^ 63 ≤ x.toBits.toNat ↔ 2 ^ 63 ≤ y.toBits.toNat := by
      rw [← isNegative_iff, ← isNegative_iff, hsign]
    rw [magnitude, magnitude] at h
    rw [← UInt64.toNat_inj]
    omega
  obtain ⟨⟨bits, valid⟩⟩ := x
  obtain ⟨⟨bits', valid'⟩⟩ := y
  cases hbits
  rfl

/-- **A decimal is the shortest one of no two doubles of one sign.** -/
theorem eq_of_amount_shortest {tie : Tie} {x y : Float}
    (h : amount (shortest tie x) = amount (shortest tie y))
    (hsign : isNegative x = isNegative y) : x = y := by
  have hx := amount_shortest_mem tie x
  rw [h] at hx
  exact eq_of_magnitude_eq (eq_of_mem_reals hx (amount_shortest_mem tie y)) hsign

end LaunchFile.Decimal
