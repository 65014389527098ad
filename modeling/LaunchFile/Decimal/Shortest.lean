import LaunchFile.Decimal.Float

/-!
# Decimal/Shortest — the fewest digits that read back

A finite double is `m · 2 ^ q`. Every real number nearer to it than to any other double reads back
as it, and so do the two halfway points when `m` is even. Of the decimals in that interval those
with the fewest digits are considered, and of these the nearest is taken.
-/

namespace LaunchFile.Decimal

/-- Where an exact half between two decimals goes. -/
inductive Tie where
  | up
  | toEven
  deriving DecidableEq, Repr

/-! ## The interval -/

/-- The reals that read back as one positive double: `value`, `low` and `high` count quarters of
its unit in the last place, `2 ^ power` is such a quarter, and `closed` says whether the ends
belong to it. -/
structure Interval where
  value : Nat
  low : Nat
  high : Nat
  power : Int
  closed : Bool
  deriving DecidableEq, Repr

/-- The interval of the double with these bits, its sign left out. Below a power of two the doubles
lie twice as close, so that the lower end is then only a quarter away. -/
def intervalOfBits (bits : UInt64) : Interval :=
  let field := bits.toNat / Nat.pow 2 52 % Nat.pow 2 11
  let fraction := bits.toNat % Nat.pow 2 52
  let m := if field == 0 then fraction else Nat.pow 2 52 + fraction
  let q : Int := if field == 0 then -1074 else Int.ofNat field - 1075
  let below := if fraction == 0 && field > 1 then 1 else 2
  ⟨4 * m, 4 * m - below, 4 * m + 2, q - 2, m % 2 == 0⟩

/-- The value as a whole number of `10 ^ (-places)`. -/
def Interval.scaled (i : Interval) (places : Nat) : Nat :=
  i.value * Nat.pow 2 i.power.toNat * Nat.pow 10 places / Nat.pow 2 (-i.power).toNat

/-- The count of decimal digits before the point, which is zero or negative when zeros follow it.
No double is so small that nothing of it is left in this many places. -/
def Interval.order (i : Interval) : Int :=
  Int.ofNat (digitCount (i.scaled 400)) - 400

/-! ## The search -/

/-- The interval and the decimal grid `10 ^ ten` over one common denominator. -/
structure Grid where
  value : Nat
  low : Nat
  high : Nat
  closed : Bool
  step : Nat

def Interval.grid (i : Interval) (ten : Int) : Grid :=
  let scale := Nat.pow 2 i.power.toNat * Nat.pow 10 (-ten).toNat
  ⟨i.value * scale, i.low * scale, i.high * scale, i.closed,
    Nat.pow 2 (-i.power).toNat * Nat.pow 10 ten.toNat⟩

def Grid.holds (g : Grid) (count : Nat) : Bool :=
  if g.closed then g.low ≤ count * g.step && count * g.step ≤ g.high
  else g.low < count * g.step && count * g.step < g.high

/-- The grid point to take, as a multiple of the step: the nearer of the value's two neighbours
that lie in the interval. -/
def Grid.nearest? (tie : Tie) (g : Grid) : Option Nat :=
  let below := g.value / g.step
  let above := below + 1
  match g.holds below, g.holds above with
  | false, false => none
  | true, false => some below
  | false, true => some above
  | true, true =>
    let down := g.value - below * g.step
    let up := above * g.step - g.value
    if down < up then some below
    else if up < down then some above
    else match tie with
      | .up => some above
      | .toEven => some (if below % 2 == 0 then below else above)

/-- Try one digit more as long as no point of the grid is in the interval; seventeen digits always
tell two doubles apart. -/
def Interval.search (tie : Tie) (i : Interval) (order : Int) : Nat → Nat → Nat × Int
  | 0, digits => (i.value, order - digits)
  | tries + 1, digits =>
    let ten := order - digits
    match (i.grid ten).nearest? tie with
    | some count => (count, ten)
    | none => i.search tie order tries (digits + 1)

/-- Move zeros from the end of the coefficient into the exponent. -/
def trimZeros : Nat → Nat × Int → Nat × Int
  | 0, pair => pair
  | fuel + 1, (count, ten) =>
    if count != 0 && count % 10 == 0 then trimZeros fuel (count / 10, ten + 1) else (count, ten)

/-- The shortest decimal of a finite double, without its sign: coefficient and power of ten. -/
def shortest (tie : Tie) (x : Float) : Nat × Int :=
  let i := intervalOfBits x.toBits
  if i.value == 0 then (0, 0)
  else trimZeros 20 (i.search tie i.order 17 1)

end LaunchFile.Decimal
