import LaunchFile.Model.Basic
import LaunchFile.Text.Json

/-!
# Model/Json — the model as JSON data

All fields are written, in a fixed order. Values of parameters and kinds of nodes say what they are
in a member of their own.
-/

namespace LaunchFile

namespace JsonTree

/-- Floats in JSON: no number, for what is not finite. -/
def floatLayout : Decimal.Layout :=
  ⟨some (-5), some 16, true, .toEven, "null", "null", "null"⟩

/-- A float as its layout has it. -/
def ofFloat (x : Float) : JsonTree :=
  .number (floatLayout.write x)

/-- A number that is not negative. -/
def ofNat (n : Nat) : JsonTree :=
  .number (toString n)

/-- A text, or nothing. -/
def ofOption (s : Option String) : JsonTree :=
  match s with
  | some s => .str s
  | none => .null

def ofPair (p : String × String) : JsonTree :=
  .array [.str p.1, .str p.2]

/-- A value beside the word for its type. -/
def typed (type : String) (value : JsonTree) : JsonTree :=
  .object [("type", .str type), ("value", value)]

end JsonTree

open JsonTree

/-- A place in a file. -/
def Location.toJson (l : Location) : JsonTree :=
  .object [("file", ofOption (l.file.map Path.text)), ("line", ofNat l.line),
    ("column", ofNat l.column)]

mutual

/-- The value of a parameter. -/
def ParamValue.toJson : ParamValue → JsonTree
  | .str s => typed "str" (.str s)
  | .int n => typed "int" (.number (Decimal.ofInt64 n))
  | .float x => typed "float" (ofFloat x)
  | .bool b => typed "bool" (.bool b)
  | .list items => typed "list" (.array (itemsToJson items))
  | .map entries => typed "map" (.object (entriesToJson entries))
  | .binary bytes => typed "binary" (.array (bytes.map fun b => ofNat b.toNat))
  | .command text => typed "command" (.str text)

def itemsToJson : List ParamValue → List JsonTree
  | [] => []
  | item :: rest => item.toJson :: itemsToJson rest

def entriesToJson : List (String × ParamValue) → List (String × JsonTree)
  | [] => []
  | (key, value) :: rest => (key, value.toJson) :: entriesToJson rest

end

/-- The kind of a node, with what only a test has. -/
def NodeKind.toJson : NodeKind → JsonTree
  | .node => .object [("kind", .str "node")]
  | .test testName retry timeLimit =>
    .object [("kind", .str "test"), ("test_name", .str testName), ("retry", ofNat retry),
      ("time_limit", ofFloat timeLimit)]

/-- A node. -/
def NodeSpec.toJson (n : NodeSpec) : JsonTree :=
  .object [("kind", n.kind.toJson), ("package", .str n.package), ("node_type", .str n.type),
    ("name", .str n.name), ("namespace", .str n.ns), ("remaps", .array (n.remaps.map ofPair)),
    ("args", .str n.args), ("machine", .str n.machine),
    ("env", .object (n.env.map fun (name, value) => (name, .str value))),
    ("respawn", .bool n.respawn), ("respawn_delay", ofFloat n.respawnDelay),
    ("required", .bool n.required), ("output", .str n.output.text), ("cwd", .str n.cwd.text),
    ("launch_prefix", ofOption n.launchPrefix), ("params", .array (n.params.map .str)),
    ("location", n.location.toJson)]

/-- A setting. -/
def ParamSpec.toJson (p : ParamSpec) : JsonTree :=
  .object [("name", .str p.name), ("value", p.value.toJson), ("location", p.location.toJson)]

/-- A command. -/
def RosparamCommand.toJson (c : RosparamCommand) : JsonTree :=
  .object [("op", .str c.op.text), ("namespace", .str c.ns), ("file", ofOption c.file),
    ("text", ofOption c.text), ("location", c.location.toJson)]

/-- A machine. -/
def MachineSpec.toJson (m : MachineSpec) : JsonTree :=
  .object [("name", .str m.name), ("address", .str m.address), ("ssh_port", ofNat m.sshPort),
    ("env_loader", .str m.envLoader), ("user", ofOption m.user), ("password", ofOption m.password),
    ("timeout", ofFloat m.timeout), ("default", .str m.default.text),
    ("location", m.location.toJson)]

/-- An argument of the run. -/
def ArgValue.toJson (name : String) (a : ArgValue) : JsonTree :=
  .object [("name", .str name), ("value", ofOption a.value), ("origin", .str a.origin.text),
    ("doc", ofOption a.doc)]

namespace Model

/-- A whole model. -/
def toJson (m : Model) : JsonTree :=
  .object [("nodes", .array (m.nodes.map NodeSpec.toJson)),
    ("parameters", .array (m.parameters.map ParamSpec.toJson)),
    ("rosparam_commands", .array (m.commands.map RosparamCommand.toJson)),
    ("machines", .array (m.machines.map MachineSpec.toJson)),
    ("args", .object (m.args.map fun (name, a) => (name, a.toJson name)))]

/-- A whole model as a text. -/
def jsonText (m : Model) : String :=
  m.toJson.text

end Model
end LaunchFile
