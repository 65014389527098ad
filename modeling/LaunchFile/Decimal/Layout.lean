import LaunchFile.Decimal.Shortest

/-!
# Decimal/Layout — how a double is written

All layouts write the shortest digits and keep one place after the point of a whole number below
`10 ^ 16`. They differ in the powers of ten that are written positionally, in the sign before a
positive exponent, in where an exact half goes, and in the words for what is no finite number.
-/

namespace LaunchFile.Decimal

/-- The decisions of a layout. The exponent of a number is that of its first digit; numbers whose
exponent is below `least` or from `limit` on are written with an exponent. -/
structure Layout where
  least : Option Int
  limit : Option Int
  plus : Bool
  tie : Tie
  nan : String
  infinity : String
  negativeInfinity : String

def Layout.isPositional (l : Layout) (exponent : Int) : Bool :=
  (match l.least with
    | some least => decide (least ≤ exponent)
    | none => true) &&
  match l.limit with
    | some limit => decide (exponent < limit)
    | none => true

/-- All digits in their places. -/
def positional (digits : List Char) (exponent : Int) : List Char :=
  if exponent < 0 then
    '0' :: '.' :: List.replicate ((-exponent).toNat - 1) '0' ++ digits
  else
    let places := exponent.toNat + 1
    if digits.length ≤ places then
      digits ++ List.replicate (places - digits.length) '0' ++
        if exponent < 16 then ['.', '0'] else []
    else digits.take places ++ '.' :: digits.drop places

/-- One digit before the point, and the exponent. -/
def withExponent (plus : Bool) (digits : List Char) (exponent : Int) : List Char :=
  let mantissa := match digits with
    | first :: second :: rest => first :: '.' :: second :: rest
    | digits => digits
  mantissa ++ 'e' :: (if plus && exponent ≥ 0 then ['+'] else []) ++ (toString exponent).toList

def Layout.finite (l : Layout) (x : Float) : List Char :=
  let (count, ten) := shortest l.tie x
  let digits := Nat.toDigits 10 count
  let exponent := Int.ofNat digits.length - 1 + ten
  if count == 0 || l.isPositional exponent then positional digits exponent
  else withExponent l.plus digits exponent

/-- Whether the sign bit is set, as it is also in minus zero. -/
def isNegative (x : Float) : Bool :=
  x.toBits >>> 63 == 1

def Layout.write (l : Layout) (x : Float) : String :=
  if x.isNaN then l.nan
  else if x.isInf then (if isNegative x then l.negativeInfinity else l.infinity)
  else String.ofList ((if isNegative x then ['-'] else []) ++ l.finite x)

end LaunchFile.Decimal
