import LaunchFile.Attribute

/-!
# Declaration — elements that change the scope of what follows

Arguments, remappings and variables of the environment are seen by the later siblings of the element
that declares them and by everything inside of those.
-/

namespace LaunchFile

variable {L σ : Type} [Answers L σ]

/-! ## Arguments -/

/-- An `<arg>` has a value or a default, not both. -/
def checkExclusive (e : Element) : Result Unit :=
  match e.attr? "value", e.attr? "default" with
  | some value, some _ => Result.fail (.invalidValue "value" value .valueAndDefault)
  | _, _ => .ok ()

/-- Whether an argument is given from outside. -/
def Scope.isOverridden (s : Scope) (name : String) : Bool :=
  match s.args.get? name with
  | some binding => binding.origin == .override
  | none => false

/-- The value that an `<arg>` gives its argument, and how. The default of an overridden argument is
not resolved. -/
def argValue (look : L) (scope : Scope) (a : Attributes) (name : String) :
    LaunchT σ (Option String × ArgOrigin) := do
  if a.contains "value" then return (← a.text? look scope "value", .value)
  else if a.contains "default" then
    if scope.isOverridden name then return (none, .default)
    else return (← a.text? look scope "default", .default)
  else return (none, .declared)

/-- The scope after an `<arg>`. -/
def readArg (look : L) (scope : Scope) (e : Element) : LaunchT σ Scope := do
  let values ← Attributes.ask look e [.optional "value", .optional "default"]
  checkExclusive e
  let others ← Attributes.ask look e [.required "name", .optional "doc"]
  let name ← others.text look scope "name"
  let (value, origin) ← argValue look scope values name
  let doc ← others.text? look scope "doc"
  scope.bind name ⟨value, origin, doc⟩

/-! ## Remappings -/

/-- The names of a `<remap>`, as they are written. -/
def readPair (look : L) (scope : Scope) (e : Element) : LaunchT σ (String × String) := do
  let a ← Attributes.ask look e [.required "from", .required "to"]
  let source ← a.text look scope "from"
  let target ← a.text look scope "to"
  Result.ofName source (GraphName.check false source)
  Result.ofName target (GraphName.check false target)
  return (source, target)

/-- The scope after a `<remap>`. -/
def readRemap (look : L) (scope : Scope) (e : Element) : LaunchT σ Scope := do
  let (source, target) ← readPair look scope e
  return scope.addRemap source target

/-! ## Variables -/

/-- The name and the value that an `<env>` sets. -/
def readEnv (look : L) (scope : Scope) (e : Element) : LaunchT σ (String × String) := do
  let a ← Attributes.ask look e [.required "name", .required "value"]
  let name ← a.text look scope "name"
  let value ← a.text look scope "value"
  return (name, value)

end LaunchFile
