import LaunchFile.Decimal.Integer

/-!
# Expr/Integer — whole numbers as 64-bit words

Results that are no word are none. Sums, differences and products are worked out exactly and then
looked at. Divisions and powers are worked out on words: a quotient is rounded toward zero first and
then corrected downward, and a power is put together from squares.
-/

namespace LaunchFile.Expr.Integer

/-! ## Division -/

/-- Whether a word can be divided by another: not by zero, and not the least word by minus one. -/
def divides (a b : Int64) : Bool :=
  b != 0 && !(a == Int64.minValue && b == -1)

/-- The quotient, rounded downward: that toward zero, less one when there is a remainder and the
signs differ. -/
def floorDiv? (a b : Int64) : Option Int64 :=
  if divides a b then
    let quotient := a / b
    some (if a % b != 0 && decide (a < 0) != decide (b < 0) then quotient - 1 else quotient)
  else none

/-- The remainder with the sign of the divisor: that of the quotient toward zero, with the divisor
added when the signs differ. -/
def floorMod? (a b : Int64) : Option Int64 :=
  if divides a b then
    let remainder := a % b
    some (if remainder != 0 && decide (remainder < 0) != decide (b < 0) then remainder + b
      else remainder)
  else none

/-! ## Powers -/

/-- The product of `product` and a power of `base`, by squaring; the base is not squared once more
behind the last factor. -/
def powerFrom? (product base : Int64) (exponent : Nat) : Option Int64 :=
  if exponent = 0 then some product
  else do
    let product ← if exponent % 2 = 1 then Decimal.toInt64? (product.toInt * base.toInt)
      else some product
    if exponent = 1 then return product
    let base ← Decimal.toInt64? (base.toInt * base.toInt)
    powerFrom? product base (exponent / 2)
termination_by exponent
decreasing_by omega

/-- The largest exponent, that of 32 bits. -/
def maxExponent : Nat := Nat.pow 2 32 - 1

/-- A power with an exponent that is not negative. -/
def power? (a b : Int64) : Option Int64 :=
  if b.toInt.toNat > maxExponent then none else powerFrom? 1 a b.toInt.toNat

end LaunchFile.Expr.Integer
