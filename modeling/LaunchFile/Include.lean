import LaunchFile.Declaration
import LaunchFile.Namespace

/-!
# Include — what an include hands to the included file

The file, the namespace and all passed values are resolved in the including scope. The included file
sees the passed arguments as overrides, the passed variables, the namespace and nothing else.
-/

namespace LaunchFile

/-- The attributes of an `<include>`. -/
structure IncludeHead where
  path : Path
  isNormal : path.IsNormal
  /-- The including scope with the namespace of the include. -/
  scope : Scope
  passesAll : Bool
  clear : Option RosparamCommand

variable {L σ : Type} [Answers L σ]

def IncludeHead.read (look : L) (scope : Scope) (e : Element) : LaunchT σ IncludeHead := do
  let a ← Attributes.ask look e [.required "file", .optional "ns", .optional "clear_params",
    .optional "pass_all_args"]
  let reference ← a.text look scope "file"
  let (inner, clear) ← enterCleared look scope a e
  let passesAll ← a.flag look scope "pass_all_args"
  return ⟨scope.resolvePath reference, Path.isNormal_resolve _ _, inner, passesAll, clear⟩

/-! ## Passed values -/

structure IncludeInputs where
  args : Dict String
  /-- The arguments that children of the include name. -/
  named : List String
  env : Dict String

namespace IncludeInputs

/-- The arguments of a scope that have a value. -/
def valued (args : Dict ArgBinding) : Dict String :=
  args.filterMapValues ArgBinding.value

/-- What is passed before the children are looked at. -/
def start (passesAll : Bool) (scope : Scope) : IncludeInputs :=
  ⟨if passesAll then valued scope.args else .empty, [], .empty⟩

/-- The value that an `<arg>` of an include passes. A default gives way to a value that is passed
already. -/
def passedValue (look : L) (scope : Scope) (passed : Dict String) (a : Attributes)
    (name : String) : LaunchT σ (Option String) :=
  if a.contains "value" then a.text? look scope "value"
  else if passed.contains name then pure none
  else a.text? look scope "default"

/-- The name and the value that an `<arg>` of an include passes, given what is passed already. -/
def readPassed (look : L) (scope : Scope) (passed : Dict String) (e : Element) :
    LaunchT σ (String × Option String) := do
  let a ← Attributes.ask look e [.required "name", .optional "value", .optional "default"]
  if !a.contains "value" && !a.contains "default" then
    Result.fail (.missingAttribute "arg" "value")
  else
    let name ← a.text look scope "name"
    let value ← passedValue look scope passed a name
    return (name, value)

/-- The inputs with an argument that a child names; without a value it stays as it is. -/
def withArg (inputs : IncludeInputs) (name : String) (value : Option String) : IncludeInputs :=
  { inputs with
    args := match value with
      | some value => inputs.args.insert name value
      | none => inputs.args
    named := name :: inputs.named }

/-- Pass an argument that a child names; each may be named once. -/
def pass (inputs : IncludeInputs) (name : String) (value : Option String) :
    Result IncludeInputs :=
  if inputs.named.contains name then
    Result.fail (.argConflict name (inputs.args.get? name) value)
  else .ok (inputs.withArg name value)

def addArg (look : L) (scope : Scope) (inputs : IncludeInputs) (e : Element) :
    LaunchT σ IncludeInputs := do
  let (name, value) ← readPassed look scope inputs.args e
  inputs.pass name value

def addEnv (look : L) (scope : Scope) (inputs : IncludeInputs) (e : Element) :
    LaunchT σ IncludeInputs := do
  let (name, value) ← readEnv look scope e
  return { inputs with env := inputs.env.insert name value }

/-- The top scope of the included file. -/
def scopeOf (inputs : IncludeInputs) (scope : Scope) (path : Path) : Scope :=
  { scope.forInclude path with
    env := inputs.env
    args := inputs.args.mapValues fun _ value => ⟨some value, .override, none⟩ }

end IncludeInputs
end LaunchFile
