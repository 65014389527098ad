import LaunchFile.Machine
import LaunchFile.Namespace

/-!
# Node — nodes and tests as they would be launched

The attributes of a node are resolved in the scope around it; its remappings and variables are those
in effect behind its children. A test is a node with a test name, a number of retries and a time
limit, which is never respawned and never required.
-/

namespace LaunchFile

/-- A node, or a test with its name, its number of retries and its time limit. -/
inductive NodeKind where
  | node
  | test (testName : String) (retry : Nat) (timeLimit : Float)
  deriving Inhabited

/-- Where the output of a node goes. -/
inductive OutputTarget where
  | log
  | screen
  deriving DecidableEq, Repr, Inhabited

def OutputTarget.text : OutputTarget → String
  | .log => "log"
  | .screen => "screen"

/-- The directory that a node works in. -/
inductive WorkingDir where
  | rosHome
  | node
  deriving DecidableEq, Repr, Inhabited

def WorkingDir.text : WorkingDir → String
  | .rosHome => "ros_home"
  | .node => "node"

/-- A node as it would be launched. -/
structure NodeSpec where
  kind : NodeKind
  package : String
  type : String
  /-- The full name: the namespace joined with the node's own name. -/
  name : String
  ns : String
  remaps : List (String × String)
  args : String
  machine : String
  env : Entries String
  respawn : Bool
  respawnDelay : Float
  required : Bool
  output : OutputTarget
  cwd : WorkingDir
  launchPrefix : Option String
  /-- The names of all parameters below the node's name. -/
  params : List String
  location : Location
  deriving Inhabited

namespace NodeSpec

/-- Whether it is a test. -/
def isTest (n : NodeSpec) : Bool :=
  match n.kind with
  | .test .. => true
  | .node => false

/-! ## Attributes -/

/-- The number of retries, none if it is not given. -/
def retryOf (text : Option String) : Result Nat :=
  match text with
  | none => .ok 0
  | some text =>
    match Decimal.readBelow? (Nat.pow 2 32) (Text.trimChars text.toList) with
    | some count => .ok count
    | none => Result.fail (.invalidValue "retry" text .notACount)

/-- The time limit of a test in seconds. -/
def timeLimitOf (text : Option String) : Result Float :=
  match text with
  | none => .ok 60.0
  | some text => MachineSpec.positiveOf "time-limit" text

/-- The seconds before a node is respawned. -/
def respawnDelayOf (text : Option String) : Result Float :=
  match text with
  | none => .ok 0.0
  | some text =>
    match (Decimal.readFloat? (Text.trimChars text.toList)).filter (· ≥ 0.0) with
    | some seconds => .ok seconds
    | none => Result.fail (.invalidValue "respawn_delay" text .negative)

/-- Where the output goes, to the log if nothing is said. -/
def outputOf (text : Option String) : Result OutputTarget :=
  match text with
  | none => .ok .log
  | some text =>
    match Text.lowerAscii (Text.trim text) with
    | "log" => .ok .log
    | "screen" => .ok .screen
    | _ => Result.fail (.invalidValue "output" text .output)

/-- The working directory that an attribute names. -/
def cwdOf (text : Option String) : Result WorkingDir :=
  match text with
  | none => .ok .rosHome
  | some text =>
    match Text.lowerAscii (Text.trim text) with
    | "ros_home" | "ros-root" => .ok .rosHome
    | "node" => .ok .node
    | _ => Result.fail (.invalidValue "cwd" text .workingDirectory)

/-- The machine of a node: the named one, which has to be known, else the default. -/
def machineOf (known : List MachineSpec) (scope : Scope) (name : Option String) :
    Result String :=
  match name with
  | none => .ok scope.machine
  | some name =>
    if name == localMachine || (MachineSpec.find? known name).isSome then .ok name
    else Result.fail (.undeclaredMachine name)

/-! ## The element -/

/-- The attributes of a node in the order in which they are looked at; a test has a name of its own.
-/
def wanted (isTest : Bool) : List Wanted :=
  [.required "pkg", .required "type"] ++
    (if isTest then [.optional "name", .required "test-name"] else [.required "name"]) ++
    [.optional "args", .optional "ns", .optional "machine", .optional "respawn",
      .optional "respawn_delay", .optional "required", .optional "clear_params",
      .optional "output", .optional "cwd", .optional "launch-prefix", .optional "retry",
      .optional "time-limit"]

variable {L σ : Type} [Answers L σ]

/-- What only a test has; also the name that it has unless it is given another. -/
def readKind (look : L) (scope : Scope) (a : Attributes) (isTest : Bool) :
    LaunchT σ NodeKind := do
  if isTest then
    let testName ← a.text look scope "test-name"
    Result.ofName testName (GraphName.checkBase testName)
    let retry ← retryOf (← a.text? look scope "retry")
    let timeLimit ← timeLimitOf (← a.text? look scope "time-limit")
    return .test testName retry timeLimit
  else return .node

/-- The node's own name. -/
def readName (look : L) (scope : Scope) (a : Attributes) (kind : NodeKind) :
    LaunchT σ String := do
  let name ← match ← a.text? look scope "name", kind with
    | some name, _ => pure name
    | none, .test testName .. => pure testName
    | none, .node => pure ""
  Result.ofName name (GraphName.checkBase name)
  return name

/-- Whether the node is respawned, and whether it is required. -/
def readLifetime (look : L) (scope : Scope) (a : Attributes) (isTest : Bool) :
    LaunchT σ (Bool × Bool) := do
  if isTest then return (false, false)
  else
    let respawn ← a.flag look scope "respawn"
    let required ← a.flag look scope "required"
    if respawn && required then
      Result.fail (.invalidValue "required" "true" .respawnRequired)
    else return (respawn, required)

/-- A node before its children: what is known of it, the scope inside of it, and the clearing of its
parameters that it asks for. -/
structure Entered where
  spec : NodeSpec
  scope : Scope
  clear : Option RosparamCommand

/-- Read the attributes of a `<node>` or `<test>`, given the machines known so far. -/
def read (look : L) (known : List MachineSpec) (scope : Scope) (isTest : Bool)
    (e : Element) : LaunchT σ Entered := do
  let a ← Attributes.ask look e (wanted isTest)
  let kind ← readKind look scope a isTest
  let name ← readName look scope a kind
  let around ← scope.enterNs (← a.text? look scope "ns")
  let fullName := around.resolveName name
  let machine ← machineOf known scope (← a.text? look scope "machine")
  let (respawn, required) ← readLifetime look scope a isTest
  let respawnDelay ← respawnDelayOf (← a.text? look scope "respawn_delay")
  let isCleared ← a.flag look scope "clear_params"
  let package ← a.text look scope "pkg"
  let type ← a.text look scope "type"
  let args ← a.text look scope "args"
  let output ← outputOf (← a.text? look scope "output")
  let cwd ← cwdOf (← a.text? look scope "cwd")
  let launchPrefix ← a.text? look scope "launch-prefix"
  let spec : NodeSpec := ⟨kind, package, type, fullName, around.ns, [], args, machine, [], respawn,
    respawnDelay, required, output, cwd, launchPrefix.filter fun text => !(Text.trim text).isEmpty,
    [], e.location⟩
  return ⟨spec, around.enterNode fullName,
    if isCleared then some (.clear fullName e.location) else none⟩

/-- The node, given the scope behind its children. -/
def Entered.finish (n : Entered) (behind : Scope) : NodeSpec :=
  { n.spec with remaps := behind.remaps, env := behind.env.entries }

end NodeSpec
end LaunchFile
