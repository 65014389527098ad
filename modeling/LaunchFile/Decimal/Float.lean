import LaunchFile.Decimal.Integer

/-!
# Decimal/Float — reading a decimal as the nearest double

A decimal is a sign, digits with at most one point among them, and a power of ten; the words for
infinity and for no number are read in any case. Of the doubles next to the value the nearer one is
taken, an exact half going to the even one.
-/

namespace LaunchFile.Decimal

/-- The number `coefficient · 10 ^ exponent`, negated when `negative`. -/
structure Scientific where
  negative : Bool
  coefficient : Nat
  exponent : Int
  deriving DecidableEq, Repr

def infinity : Float := 1.0 / 0.0

def notANumber : Float := 0.0 / 0.0

/-- The number of digits of `n`, one for zero. -/
def digitCount (n : Nat) : Nat :=
  (Nat.toDigits 10 n).length

/-- The nearest double without its sign. From `10 ^ 310` on that is infinity and below `10 ^ -330`
zero, whatever the digits; so no larger power of ten is ever formed. -/
def Scientific.magnitude (s : Scientific) : Float :=
  if s.coefficient == 0 then 0.0
  else
    let order := Int.ofNat (digitCount s.coefficient) + s.exponent
    if order > 310 then infinity
    else if order < -330 then 0.0
    else Float.ofScientific s.coefficient (s.exponent < 0) s.exponent.natAbs

def Scientific.toFloat (s : Scientific) : Float :=
  if s.negative then -s.magnitude else s.magnitude

/-! ## The written form -/

/-- The power of ten after the mantissa: nothing, or `e` with an optional sign and digits. -/
def readExponent? : List Char → Option Int
  | [] => some 0
  | 'e' :: cs => readInt? cs
  | 'E' :: cs => readInt? cs
  | _ => none

/-- The digits after a point, and what follows them. -/
def fraction : List Char → List Char × List Char
  | '.' :: cs => cs.span Char.isDigit
  | cs => ([], cs)

/-- A decimal without its sign. -/
def readScientific? (negative : Bool) (cs : List Char) : Option Scientific :=
  let (whole, rest) := cs.span Char.isDigit
  let (places, rest) := fraction rest
  if whole.isEmpty && places.isEmpty then none
  else (readExponent? rest).map fun exponent =>
    ⟨negative, digitsValue (whole ++ places), exponent - places.length⟩

/-- A double without its sign: a decimal or one of the words. -/
def readMagnitude? (negative : Bool) (cs : List Char) : Option Float :=
  let word := String.ofList (cs.map Char.toLower)
  if word == "inf" || word == "infinity" then some (if negative then -infinity else infinity)
  else if word == "nan" then some notANumber
  else (readScientific? negative cs).map Scientific.toFloat

def readFloat? : List Char → Option Float
  | '+' :: cs => readMagnitude? false cs
  | '-' :: cs => readMagnitude? true cs
  | cs => readMagnitude? false cs

end LaunchFile.Decimal
