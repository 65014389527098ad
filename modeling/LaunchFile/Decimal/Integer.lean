/-!
# Decimal/Integer — whole numbers written with decimal digits

A number is an optional sign and at least one ASCII digit, nothing else; a reader for a bounded
range refuses what lies outside of it.
-/

namespace LaunchFile.Decimal

/-- The value of a row of digits, most significant first. -/
def digitsValue (cs : List Char) : Nat :=
  cs.foldl (fun value c => 10 * value + (c.toNat - '0'.toNat)) 0

/-- One digit or more. -/
def readDigits? (cs : List Char) : Option Nat :=
  if cs.isEmpty || cs.any (! ·.isDigit) then none else some (digitsValue cs)

/-- Digits with an optional plus sign. -/
def readNat? : List Char → Option Nat
  | '+' :: cs => readDigits? cs
  | cs => readDigits? cs

/-- Digits with an optional sign. -/
def readInt? : List Char → Option Int
  | '+' :: cs => (readDigits? cs).map Int.ofNat
  | '-' :: cs => (readDigits? cs).map fun n => -Int.ofNat n
  | cs => (readDigits? cs).map Int.ofNat

/-- The number as a 64-bit word, when it fits. -/
def toInt64? (n : Int) : Option Int64 :=
  if Int64.minValue.toInt ≤ n ∧ n ≤ Int64.maxValue.toInt then some (Int64.ofInt n) else none

def readInt64? (cs : List Char) : Option Int64 :=
  (readInt? cs).bind toInt64?

/-- A number below `bound`. -/
def readBelow? (bound : Nat) (cs : List Char) : Option Nat :=
  (readNat? cs).filter (· < bound)

/-- The text of a 64-bit word. -/
def ofInt64 (n : Int64) : String :=
  toString n.toInt

end LaunchFile.Decimal
