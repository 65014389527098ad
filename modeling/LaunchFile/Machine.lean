import LaunchFile.Attribute

/-!
# Machine — where nodes run

A machine is declared once: declaring it again the same way changes nothing, and declaring it
differently is an error. The place of a declaration is no part of the definition.
-/

namespace LaunchFile

/-- Whether nodes run on a machine without naming it. -/
inductive MachineDefault where
  | yes
  | no
  | never
  deriving DecidableEq, Repr, Inhabited

def MachineDefault.text : MachineDefault → String
  | .yes => "true"
  | .no => "false"
  | .never => "never"

structure MachineSpec where
  name : String
  address : String
  sshPort : Nat
  envLoader : String
  user : Option String
  password : Option String
  timeout : Float
  default : MachineDefault
  location : Location
  deriving Inhabited

namespace MachineSpec

/-- Whether nodes may be put on it by default. -/
def isAssignable (m : MachineSpec) : Bool :=
  m.default != .never

def sameDefinition (m n : MachineSpec) : Bool :=
  m.name == n.name && m.address == n.address && m.sshPort == n.sshPort &&
    m.envLoader == n.envLoader && m.user == n.user && m.password == n.password &&
    m.timeout == n.timeout && m.default == n.default

def find? (known : List MachineSpec) (name : String) : Option MachineSpec :=
  known.find? fun m => m.name == name

/-- Whether a machine is new beside the known ones; under a known name it has to be the same. -/
def isNew (known : List MachineSpec) (m : MachineSpec) : Result Bool :=
  match find? known m.name with
  | none => .ok true
  | some existing =>
    if existing.sameDefinition m then .ok false else Result.fail (.machineConflict m.name)

/-! ## The element -/

def portOf (text : Option String) : Result Nat :=
  match text with
  | none => .ok 22
  | some text =>
    match Decimal.readBelow? (Nat.pow 2 16) (Text.trimChars text.toList) with
    | some port => .ok port
    | none => Result.fail (.invalidValue "ssh-port" text .notAPort)

/-- A number of seconds above zero. -/
def positiveOf (attr text : String) : Result Float :=
  match (Decimal.readFloat? (Text.trimChars text.toList)).filter (· > 0.0) with
  | some seconds => .ok seconds
  | none => Result.fail (.invalidValue attr text .notPositive)

def timeoutOf (text : Option String) : Result Float :=
  match text with
  | none => .ok 10.0
  | some text => positiveOf "timeout" text

def defaultOf (text : Option String) : Result MachineDefault :=
  match text with
  | none => .ok .no
  | some text =>
    match Text.lowerAscii (Text.trim text) with
    | "true" => .ok .yes
    | "false" => .ok .no
    | "never" => .ok .never
    | _ => Result.fail (.invalidValue "default" text .machineDefault)

/-- The environment loader of a distribution. -/
def envLoaderOf (distro : String) : String :=
  s!"/opt/ros/{distro}/env.sh"

/-- The machine that a `<machine>` declares. -/
def read {L σ : Type} [Answers L σ] (w : World L) (scope : Scope) (e : Element) :
    LaunchT σ MachineSpec := do
  let a ← Attributes.ask w.look e [.required "name", .required "address", .optional "ssh-port",
    .optional "env-loader", .optional "default", .optional "user", .optional "password",
    .optional "timeout"]
  let sshPort ← portOf (← a.text? w.look scope "ssh-port")
  let timeout ← timeoutOf (← a.text? w.look scope "timeout")
  let default ← defaultOf (← a.text? w.look scope "default")
  let envLoader ← a.text? w.look scope "env-loader"
  let name ← a.text w.look scope "name"
  let address ← a.text w.look scope "address"
  let user ← a.text? w.look scope "user"
  let password ← a.text? w.look scope "password"
  return ⟨name, address, sshPort, envLoader.getD (envLoaderOf w.distro), user, password, timeout,
    default, e.location⟩

end MachineSpec
end LaunchFile
