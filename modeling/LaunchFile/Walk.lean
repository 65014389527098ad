import LaunchFile.Condition
import LaunchFile.Effect
import LaunchFile.Include

/-!
# Walk — the elements of a launch tree in document order

Every element sees the scope that its preceding siblings left behind, and what is inside of it never
changes the scope behind it. An element that its parent does not allow is skipped or refused. An
included file is walked where its include stands; a file that is open already is not entered again.
-/

namespace LaunchFile

/-! ## Tags -/

/-- The elements of launch files below the root. -/
inductive Tag where
  | arg
  | node
  | test
  | param
  | rosparam
  | group
  | include
  | remap
  | env
  | machine
  deriving DecidableEq, Repr

namespace Tag

/-- The tag that an element is written with. -/
def ofText? : String → Option Tag
  | "arg" => some .arg
  | "node" => some .node
  | "test" => some .test
  | "param" => some .param
  | "rosparam" => some .rosparam
  | "group" => some .group
  | "include" => some .include
  | "remap" => some .remap
  | "env" => some .env
  | "machine" => some .machine
  | _ => none

/-- Inside of a node or test. -/
def isNodePart : Tag → Bool
  | .param | .rosparam | .remap | .env | .arg => true
  | _ => false

/-- Inside of an include. -/
def isInput : Tag → Bool
  | .arg | .env => true
  | _ => false

/-- Whether an element is allowed directly inside of one with the tag `parent`. -/
def isAllowedIn (parent : String) (t : Tag) : Bool :=
  if parent == "launch" || parent == "group" then true
  else if parent == "node" || parent == "test" then t.isNodePart
  else parent == "include" && t.isInput

/-- The tag of a child, if its parent allows it. -/
def child? (parent tag : String) : Option Tag :=
  (ofText? tag).filter (isAllowedIn parent)

end Tag

/-! ## Steps -/

/-- What a walk keeps while it goes on, also when it ends in an error. -/
structure WalkState (σ : Type := AnonRegistry) where
  /-- The names that were made up, or what else those who answer keep. -/
  registry : σ
  /-- The files that are open, outermost first. -/
  chain : List Path
  log : Log

/-- A step of the walk: a step of the run that may record effects and open files. -/
abbrev WalkT (σ : Type) := ExceptT LaunchError (StateM (WalkState σ))

/-- Steps of the walk where all that is kept for look-ups is the registry. -/
abbrev WalkM := WalkT AnonRegistry

namespace WalkT

variable {σ α : Type}

/-- A step of the run; all it changes is the registry. -/
def ofLaunch (step : LaunchT σ α) : WalkT σ α := fun state =>
  let (result, registry) := step.run state.registry
  (result, { state with registry })

/-- A step whose errors get a place, unless they have one. -/
def located (location : Location) (step : WalkT σ α) : WalkT σ α :=
  step.adapt (·.locate location)

/-- The files that are open, the outermost first. -/
def chain : WalkT σ (List Path) := do
  return (← getThe (WalkState σ)).chain

/-- The machines declared so far. -/
def machines : WalkT σ (List MachineSpec) := do
  return (← getThe (WalkState σ)).log.machines

/-- Record these effects, in their order. -/
def emitAll (effects : List Effect) : WalkT σ Unit :=
  modifyThe (WalkState σ) fun state => { state with log := state.log ++ effects }

/-- Record one effect. -/
def emit (effect : Effect) : WalkT σ Unit :=
  emitAll [effect]

/-- Record a command that clears parameters, if there is one. -/
def emitClear (clear : Option RosparamCommand) : WalkT σ Unit :=
  emitAll (clear.toList.map .rosparam)

/-- A step with a file open. The file is closed again also behind an error. -/
def within (path : Path) (step : WalkT σ α) : WalkT σ α := fun state =>
  let (result, after) := step.run { state with chain := state.chain ++ [path] }
  (result, { after with chain := after.chain.dropLast })

end WalkT

/-! ## Elements that take part -/

variable {L σ : Type}

/-- Skip or refuse an element that its parent does not allow. -/
def World.unknown (w : World L) (parent : String) (e : Element) : Result Unit :=
  if w.strict then Result.fail (.unknownElement parent e.tag) else .ok ()

variable [Answers L σ]

/-- The tag of an element that takes part; none when it is skipped. -/
def Element.activeTag (w : World L) (parent : String) (scope : Scope) (e : Element) :
    LaunchT σ (Option Tag) :=
  match Tag.child? parent e.tag with
  | none => do
    w.unknown parent e
    return none
  | some tag => do
    if ← e.isActive w.look scope then return some tag else return none

/-! ## Leaves -/

namespace WalkT

/-- Declare the machine of an element. It becomes the default of what follows if it says so. -/
def machine (w : World L) (scope : Scope) (e : Element) : WalkT σ Scope := do
  let spec ← ofLaunch (MachineSpec.read w scope e)
  if ← MachineSpec.isNew (← machines) spec then emit (.machine spec)
  return if spec.default == .yes then scope.setMachine spec.name else scope

/-- Record the parameters that a `<param>` sets. -/
def param (w : World L) (scope : Scope) (e : Element) : WalkT σ Unit := do
  let params ← ofLaunch (readParam w scope e)
  emitAll (params.map .param)

/-- Record the command of a `<rosparam>`, then the parameters that it sets. -/
def rosparam (w : World L) (scope : Scope) (e : Element) : WalkT σ Unit := do
  let (command, params) ← ofLaunch (RosparamCommand.read w.look scope e)
  emitAll (.rosparam command :: params.map .param)

/-! ## Going inside -/

/-- The scope of the children of a `<group>`. -/
def enterGroup (w : World L) (scope : Scope) (e : Element) : WalkT σ Scope := do
  let (inner, clear) ← ofLaunch (readGroup w.look scope e)
  emitClear clear
  return e.inside inner

/-- A `<node>` or `<test>` before its children. -/
def enterNode (w : World L) (scope : Scope) (isTest : Bool) (e : Element) :
    WalkT σ NodeSpec.Entered := do
  let node ← ofLaunch (NodeSpec.read w.look (← machines) scope isTest e)
  emitClear node.clear
  return node

/-- A `<node>` or `<test>` with its children. -/
def node (w : World L) (inside : Scope → WalkT σ Scope) (scope : Scope) (isTest : Bool)
    (e : Element) : WalkT σ Unit := do
  let node ← enterNode w scope isTest e
  let behind ← inside (e.inside node.scope)
  emit (.node (node.finish behind))

end WalkT

/-! ## Includes -/

namespace IncludeInputs

/-- What is passed after a child of the include. -/
def addChild (w : World L) (scope : Scope) (inputs : IncludeInputs) (e : Element) :
    LaunchT σ IncludeInputs :=
  LaunchT.located e.location do
    match ← e.activeTag w "include" scope with
    | some .arg => addArg w.look scope inputs e
    | some .env => addEnv w.look scope inputs e
    | _ => return inputs

/-- What is passed after some children of the include. -/
def addChildren (w : World L) (scope : Scope) :
    IncludeInputs → List Element → LaunchT σ IncludeInputs
  | inputs, [] => pure inputs
  | inputs, e :: rest => do
    let inputs ← addChild w scope inputs e
    addChildren w scope inputs rest

end IncludeInputs

/-- The file of an `<include>` and the top scope that it is walked in. A file that is open already
is not entered again. -/
def WalkT.enterInclude (w : World L) (scope : Scope) (e : Element) : WalkT σ (Path × Scope) := do
  let head ← ofLaunch (IncludeHead.read w.look scope e)
  let chain ← chain
  if chain.any (·.sameAs head.path) then
    throw (.ofCause (.includeCycle (chain ++ [head.path])))
  else
    let start := IncludeInputs.start head.passesAll scope
    let inputs ← ofLaunch (start.addChildren w scope e.children)
    emitClear head.clear
    return (head.path, e.inside (inputs.scopeOf head.scope head.path))

/-- How an included file is walked, from its path and its top scope. -/
abbrev EnterFile (σ : Type := AnonRegistry) := Path → Scope → WalkT σ Unit

/-! ## Elements -/

section

variable (w : World L) (enter : EnterFile σ)

/-- What an element that takes part does, given how its children are walked. The result is the scope
of its following siblings. -/
def walkAs (inside : Scope → WalkT σ Scope) (scope : Scope) (e : Element) : Tag → WalkT σ Scope
  | .arg => WalkT.ofLaunch (readArg w.look scope e)
  | .remap => WalkT.ofLaunch (readRemap w.look scope e)
  | .env => do
    let (name, value) ← WalkT.ofLaunch (readEnv w.look scope e)
    return scope.setEnv name value
  | .machine => WalkT.machine w scope e
  | .param => do
    WalkT.param w scope e
    return scope
  | .rosparam => do
    WalkT.rosparam w scope e
    return scope
  | .group => do
    let inner ← WalkT.enterGroup w scope e
    let _ ← inside inner
    return scope
  | .node => do
    WalkT.node w inside scope false e
    return scope
  | .test => do
    WalkT.node w inside scope true e
    return scope
  | .include => do
    let (path, inner) ← WalkT.enterInclude w scope e
    enter path inner
    return scope

mutual

/-- Walk an element and return the scope of its following siblings. -/
def walkElement (parent : String) (scope : Scope) : Element → WalkT σ Scope
  | .mk tag attrs children text location =>
    let e : Element := .mk tag attrs children text location
    WalkT.located location do
      match ← WalkT.ofLaunch (e.activeTag w parent scope) with
      | none => return scope
      | some t => walkAs w enter (fun inner => walkChildren tag inner children) scope e t

/-- Walk the children of an element with the tag `parent`, each in the scope that the one before it
left behind. -/
def walkChildren (parent : String) (scope : Scope) : List Element → WalkT σ Scope
  | [] => pure scope
  | e :: rest => do
    let scope ← walkElement parent scope e
    walkChildren parent scope rest

end

/-- The scope of the children of a root; none when the root takes no part. -/
def WalkT.enterRoot (scope : Scope) (root : Element) : WalkT σ (Option Scope) := do
  root.checkRoot
  if ← ofLaunch (root.isActive w.look scope) then return some (root.inside scope) else return none

/-- Walk a whole tree and return the scope behind its last child. -/
def walkRoot (scope : Scope) (root : Element) : WalkT σ Scope := do
  match ← WalkT.enterRoot w scope root with
  | some inner => walkChildren w enter root.tag inner root.children
  | none => return scope

end

/-! ## Files -/

/-- The tree of a file. -/
def readTree (w : World L) (path : Path) : Result Element := do
  let source ← w.files.readText path
  Element.parse source (some path)

/-- Walk a file, given how the files that it includes are walked. -/
def openFile (w : World L) (enter : EnterFile σ) : EnterFile σ := fun path scope => do
  let root ← readTree w path
  let _ ← WalkT.within path (walkRoot w enter scope root)

/-- Walk a file, and the files inside of it down to a number of levels; `last` is how the files
beyond that are walked. -/
def walkNested (w : World L) (last : EnterFile σ) : Nat → EnterFile σ
  | 0 => last
  | budget + 1 => openFile w (walkNested w last budget)

/-- A file that is not entered, as if it were open. -/
def refuseFile {σ : Type} : EnterFile σ := fun path _ => do
  throw (.ofCause (.includeCycle ((← WalkT.chain) ++ [path])))

/-- Walk a file. No file is open twice, so that files nest no deeper than there are files; a budget
of that many levels never runs out before a path repeats. -/
def walkFile (w : World L) : Nat → EnterFile σ :=
  walkNested w refuseFile

end LaunchFile
