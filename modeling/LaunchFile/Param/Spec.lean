import LaunchFile.Attribute
import LaunchFile.Param.Type

/-!
# Param/Spec — settings of parameters, and the elements that make them

A `<param>` takes its value from exactly one of its sources: a text of some type, the contents of a
file as text or as bytes, or a command. A mapping sets its leaves one by one.
-/

namespace LaunchFile

structure ParamSpec where
  name : String
  value : ParamValue
  location : Location
  deriving Inhabited

/-- The settings of a value under a name, one for each leaf. -/
def ParamSpec.ofValue (name : String) (value : ParamValue) (location : Location) :
    List ParamSpec :=
  (value.unfold name).map fun (leaf, value) => ⟨leaf, value, location⟩

/-- Where a parameter's value comes from. -/
inductive ParamSource where
  | value
  | textfile
  | binfile
  | command
  deriving DecidableEq, Repr

namespace ParamSource

def attr : ParamSource → String
  | .value => "value"
  | .textfile => "textfile"
  | .binfile => "binfile"
  | .command => "command"

/-- The sources that an element names. -/
def named (e : Element) : List ParamSource :=
  [.value, .textfile, .binfile, .command].filter fun source => e.hasAttr source.attr

/-- The only source of an element. -/
def only (e : Element) : Result ParamSource :=
  match named e with
  | [source] => .ok source
  | [] => Result.fail (.missingAttribute "param" "value")
  | several =>
    Result.fail (.invalidValue (String.intercalate "|" (several.map attr)) "" .paramSources)

/-- The value that the text of a source stands for. -/
def valueOf {L : Type} (w : World L) (scope : Scope) (type : ParamType) (text : String) :
    ParamSource → Result ParamValue
  | .value => ParamValue.ofTyped text type
  | .textfile => (w.files.readText (scope.resolvePath text)).map .str
  | .binfile => (w.files.readBytes (scope.resolvePath text)).map .binary
  | .command => .ok (.command text)

end ParamSource

/-- The type that a `type` attribute names. -/
def paramType (text : Option String) : Result ParamType :=
  match text with
  | none => .ok .auto
  | some text => ParamType.parse text

section

variable {L σ : Type} [Answers L σ]

/-- The name and the value that a `<param>` sets. -/
def readSetting (w : World L) (scope : Scope) (e : Element) :
    LaunchT σ (String × ParamValue) := do
  let source ← ParamSource.only e
  let a ← Attributes.ask w.look e [.required source.attr, .required "name", .optional "type"]
  let name ← a.text w.look scope "name"
  Result.ofName name (GraphName.check false name)
  let type ← paramType (← a.text? w.look scope "type")
  let text ← a.text w.look scope source.attr
  let value ← source.valueOf w scope type text
  return (scope.resolveParamName name, value)

/-- The settings that a `<param>` makes: the leaves of the value that it sets. -/
def readParam (w : World L) (scope : Scope) (e : Element) : LaunchT σ (List ParamSpec) := do
  let (name, value) ← readSetting w scope e
  return ParamSpec.ofValue name value e.location

end

end LaunchFile
