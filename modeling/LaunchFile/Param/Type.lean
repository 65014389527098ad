import LaunchFile.Boolean
import LaunchFile.Param.Value

/-!
# Param/Type — reading a text as a value of a given type

Without a type, a text with a point is a float if it reads as one; otherwise an integer, a boolean
or a string, the first that it reads as.
-/

namespace LaunchFile

inductive ParamType where
  | auto
  | str
  | int
  | double
  | bool
  | yaml
  deriving DecidableEq, Repr

namespace ParamType

def parse (value : String) : Result ParamType :=
  match Text.trim value with
  | "" | "auto" => .ok .auto
  | "str" | "string" => .ok .str
  | "int" => .ok .int
  | "double" => .ok .double
  | "bool" | "boolean" => .ok .bool
  | "yaml" => .ok .yaml
  | other => Result.fail (.invalidValue "type" other .paramType)

end ParamType

namespace ParamValue

/-- A float, if the text has a point and reads as one. -/
def pointed? (cs : List Char) : Option Float :=
  if cs.contains '.' then Decimal.readFloat? cs else none

/-- The value of a text without a type; a string keeps its blanks. -/
def ofText (text : String) : ParamValue :=
  let cs := Text.trimChars text.toList
  match pointed? cs with
  | some x => .float x
  | none =>
    match Decimal.readInt64? cs with
    | some n => .int n
    | none =>
      match Text.lowerAscii (String.ofList cs) with
      | "true" => .bool true
      | "false" => .bool false
      | _ => .str text

/-- A reading of the `value` attribute, with the reason why there may be none. -/
def orInvalid {α : Type} (text : String) (fault : ValueFault) (value : Option α) : Result α :=
  match value with
  | some value => .ok value
  | none => Result.fail (.invalidValue "value" text fault)

/-- The value of a text as a type. -/
def ofTyped (text : String) : ParamType → Result ParamValue
  | .auto => .ok (ofText text)
  | .str => .ok (.str text)
  | .int => orInvalid text .notAnInt
      ((Decimal.readInt64? (Text.trimChars text.toList)).map .int)
  | .double => orInvalid text .notADouble
      ((Decimal.readFloat? (Text.trimChars text.toList)).map .float)
  | .bool => (readBoolean "value" text).map .bool
  | .yaml => parseYaml text

end ParamValue
end LaunchFile
