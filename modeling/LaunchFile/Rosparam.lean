import LaunchFile.Param.Spec

/-!
# Rosparam — commands to the parameter server

A `<rosparam>` loads parameters from a file or from its own text, dumps them or deletes one. Text
that it loads itself also sets parameters at once. Clearing all parameters of a namespace is a
deletion of that namespace.
-/

namespace LaunchFile

inductive RosparamOp where
  | load
  | dump
  | delete
  deriving DecidableEq, Repr, Inhabited

def RosparamOp.text : RosparamOp → String
  | .load => "load"
  | .dump => "dump"
  | .delete => "delete"

structure RosparamCommand where
  op : RosparamOp
  /-- The namespace or the parameter it is about. -/
  ns : String
  file : Option String
  text : Option String
  location : Location
  deriving DecidableEq, Repr, Inhabited

namespace RosparamCommand

/-- Clear all parameters of a namespace. -/
def clear (ns : String) (location : Location) : RosparamCommand :=
  ⟨.delete, ns, none, none, location⟩

/-! ## Attributes -/

def opOf (text : Option String) : Result RosparamOp :=
  match text with
  | none => .ok .load
  | some text =>
    match Text.trim text with
    | "load" => .ok .load
    | "dump" => .ok .dump
    | "delete" => .ok .delete
    | _ => Result.fail (.invalidValue "command" text .rosparamCommand)

/-- Where names in the element lie: its `ns`, else where relative parameters lie. -/
def baseNs (scope : Scope) (ns : Option String) : Result String :=
  match ns with
  | none => .ok scope.paramNs
  | some ns => do
    Result.ofName ns (GraphName.check true ns)
    return scope.resolveParamName ns

/-- What the command is about: the named parameter, else the base itself. -/
def targetOf (scope : Scope) (base : String) (param : Option String) : Result String :=
  match param with
  | none => .ok base
  | some param => do
    Result.ofName param (GraphName.check false param)
    return if Scope.isAnchored param.toList then scope.resolveName param
      else GraphName.join base param

/-! ## Inline text -/

def isMap : ParamValue → Bool
  | .map _ => true
  | _ => false

/-- The settings of a text under a target. Only a mapping may be loaded without a name, and an empty
one sets nothing. -/
def settings (target : String) (isNamed : Bool) (text : String) (location : Location) :
    Result (List ParamSpec) := do
  let value ← ParamValue.parseYaml text
  if !isNamed && !isMap value then
    Result.fail (.invalidValue "param" (Text.trim text) .needsParamName)
  else match value with
    | .map [] => return []
    | value => return ParamSpec.ofValue target value location

/-- The text of an element, when there is more than blanks. -/
def inlineText (e : Element) : Option String :=
  e.text.filter fun text => !(Text.trim text).isEmpty

variable {L σ : Type} [Answers L σ]

/-- The text to load: resolved only when the element asks for it. -/
def loadedText (look : L) (scope : Scope) (a : Attributes) (e : Element) :
    LaunchT σ String := do
  match inlineText e with
  | none => Result.fail (.missingAttribute "rosparam" "file")
  | some raw =>
    if ← a.flag look scope "subst_value" then
      LaunchT.ofResolve (Segment.evaluate scope look raw)
    else return raw

/-! ## The element -/

/-- The command of a `<rosparam>` and the parameters it sets at once. -/
def read (look : L) (scope : Scope) (e : Element) :
    LaunchT σ (RosparamCommand × List ParamSpec) := do
  let a ← Attributes.ask look e [.optional "command", .optional "file", .optional "param",
    .optional "ns", .optional "subst_value"]
  let op ← opOf (← a.text? look scope "command")
  let base ← baseNs scope (← a.text? look scope "ns")
  let param ← a.text? look scope "param"
  let target ← targetOf scope base param
  let reference ← a.text? look scope "file"
  let file := reference.map fun reference => (scope.resolvePath reference).text
  let command : RosparamCommand := ⟨op, target, file, none, e.location⟩
  match op, file with
  | .load, some _ => return (command, [])
  | .load, none => do
    let text ← loadedText look scope a e
    let params ← settings target param.isSome text e.location
    return ({ command with text := some text }, params)
  | .dump, some _ => return (command, [])
  | .dump, none => Result.fail (.missingAttribute "rosparam" "file")
  | .delete, file =>
    if param.isNone then Result.fail (.missingAttribute "rosparam" "param")
    else match file with
      | some file => Result.fail (.invalidValue "file" file .deleteFile)
      | none => return (command, [])

end RosparamCommand
end LaunchFile
