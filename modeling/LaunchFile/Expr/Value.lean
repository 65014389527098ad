import LaunchFile.Text.Blank
import LaunchFile.Text.Search
import LaunchFile.Decimal.Layout

/-!
# Expr/Value — the values of expressions

Values are typed, and text becomes a value by its look: a whole number, else a decimal, else a
boolean, else a string. Booleans count as the numbers 0 and 1.
-/

namespace LaunchFile.Expr

inductive Value where
  | int (n : Int64)
  | float (x : Float)
  | bool (b : Bool)
  | str (s : String)
  deriving Inhabited

/-- A number of either type. -/
inductive Number where
  | int (n : Int64)
  | float (x : Float)

def Number.toFloat : Number → Float
  | .int n => n.toFloat
  | .float x => x

def Number.toValue : Number → Value
  | .int n => .int n
  | .float x => .float x

namespace Value

/-- Whether `word` occurs in the text, in any ASCII case. -/
def mentions (word : String) (s : String) : Bool :=
  Text.occurs word.toList (s.toList.map Char.toLower)

/-- The value a text stands for when its type is not given. -/
def ofText (text : String) : Value :=
  let trimmed := Text.trim text
  match Decimal.readInt64? trimmed.toList with
  | some n => .int n
  | none =>
    match (Decimal.readFloat? trimmed.toList).filter fun _ =>
        !mentions "inf" trimmed && !mentions "nan" trimmed with
    | some x => .float x
    | none =>
      match Text.lowerAscii trimmed with
      | "true" => .bool true
      | "false" => .bool false
      | _ => .str text

def typeName : Value → String
  | .int _ => "int"
  | .float _ => "float"
  | .bool _ => "bool"
  | .str _ => "str"

/-- Zero, false and the empty string are not truthy. -/
def truthy : Value → Bool
  | .int n => n != 0
  | .float x => x != 0.0
  | .bool b => b
  | .str s => !s.isEmpty

/-- The numeric view; strings have none. -/
def number? : Value → Option Number
  | .int n => some (.int n)
  | .bool b => some (.int (if b then 1 else 0))
  | .float x => some (.float x)
  | .str _ => none

/-! ## Text of a value -/

/-- Floats are written with all digits in their places; from `10 ^ 16` on, whole numbers have no
place after the point. -/
def floatLayout : Decimal.Layout :=
  ⟨none, none, false, .up, "nan", "inf", "-inf"⟩

def text : Value → String
  | .int n => Decimal.ofInt64 n
  | .float x => floatLayout.write x
  | .bool true => "True"
  | .bool false => "False"
  | .str s => s

end Value
end LaunchFile.Expr
