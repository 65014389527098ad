import LaunchFile.Dict
import LaunchFile.Error
import LaunchFile.GraphName
import LaunchFile.Yaml.Value

/-!
# Param/Value — the values of parameters

A value is typed. A mapping that is set under a name sets each of its leaves under a name of its
own; a document becomes a value by dropping its tags and writing its keys as text.
-/

namespace LaunchFile

inductive ParamValue where
  | str (s : String)
  | int (n : Int64)
  | float (x : Float)
  | bool (b : Bool)
  | list (items : List ParamValue)
  | map (entries : List (String × ParamValue))
  | binary (bytes : List UInt8)
  | command (text : String)
  deriving Inhabited

namespace ParamValue

/-! ## Leaves -/

mutual

/-- The leaves of a value, each under the name that its keys lead to. Empty mappings and all other
values are leaves. -/
def unfold (name : String) : ParamValue → List (String × ParamValue)
  | .map [] => [(name, .map [])]
  | .map ((key, value) :: rest) => unfold (GraphName.join name key) value ++ unfoldEntries name rest
  | value => [(name, value)]

def unfoldEntries (name : String) : List (String × ParamValue) → List (String × ParamValue)
  | [] => []
  | (key, value) :: rest => unfold (GraphName.join name key) value ++ unfoldEntries name rest

end

/-! ## From documents -/

/-- Floats in keys. -/
def keyLayout : Decimal.Layout :=
  ⟨some (-5), some 16, false, .toEven, ".nan", ".inf", "-.inf"⟩

/-- The text of a key; null and collections have none. -/
def keyText : Yaml.Value → Result String
  | .str s => .ok s
  | .int n => .ok (toString n)
  | .float x => .ok (keyLayout.write x)
  | .bool true => .ok "true"
  | .bool false => .ok "false"
  | _ => Result.fail (.invalidYaml .unsupportedKey)

/-- A whole number that no signed word holds becomes a float. -/
def ofWhole (n : Int) : ParamValue :=
  match Decimal.toInt64? n with
  | some n => .int n
  | none => .float n.toNat.toUInt64.toFloat

mutual

def ofYaml : Yaml.Value → Result ParamValue
  | .null => Result.fail (.invalidYaml .null)
  | .bool b => .ok (.bool b)
  | .int n => .ok (ofWhole n)
  | .float x => .ok (.float x)
  | .str s => .ok (.str s)
  | .seq items => do
    let items ← ofYamlItems items
    return .list items
  | .map entries => do
    let entries ← ofYamlEntries .empty entries
    return .map entries
  | .tagged _ value => ofYaml value

def ofYamlItems : List Yaml.Value → Result (List ParamValue)
  | [] => .ok []
  | item :: rest => do
    let item ← ofYaml item
    let rest ← ofYamlItems rest
    return item :: rest

/-- Entries whose keys have one text fall together. -/
def ofYamlEntries (found : Dict ParamValue) :
    List (Yaml.Value × Yaml.Value) → Result (Dict ParamValue)
  | [] => .ok found
  | (key, value) :: rest => do
    let key ← keyText key
    let value ← ofYaml value
    ofYamlEntries (found.insert key value) rest

end

/-- The value of a document. -/
def parseYaml (text : String) : Result ParamValue :=
  match Yaml.parse text with
  | some value => ofYaml value
  | none => Result.fail (.invalidYaml .notYaml)

end ParamValue
end LaunchFile
