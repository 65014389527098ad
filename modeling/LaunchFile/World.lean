import LaunchFile.Element
import LaunchFile.Files
import LaunchFile.Substitution.Resolve

/-!
# World — what the interpretation of a launch file may ask

Variables, packages and files lie outside of a launch file. They do not change during a run; the one
thing that does is the registry of made-up names, which is kept also when a run ends in an error.
-/

namespace LaunchFile

structure World (L : Type := Lookups) where
  /-- Who answers for variables and packages. -/
  look : L
  files : Files
  /-- Whether an unknown element is an error. -/
  strict : Bool
  /-- The distribution whose environment loader machines have unless they name one. -/
  distro : String

/-- A world whose distribution is the given one, else that of the environment, else `noetic`. -/
def World.of (look : Lookups) (files : Files) (strict : Bool) (distro : Option String) : World :=
  ⟨look, files, strict, (distro <|> look.env "ROS_DISTRO").getD "noetic"⟩

/-- A step of a run: a result or an error, and the state of those who answer after it. -/
abbrev LaunchT (σ : Type) := ExceptT LaunchError (StateM σ)

/-- A step that is answered directly, with the registry of made-up names. -/
abbrev LaunchM := LaunchT AnonRegistry

namespace LaunchT

variable {σ α : Type}

/-- A step whose error gets a place, unless it has one already. -/
def located (location : Location) (step : LaunchT σ α) : LaunchT σ α :=
  step.adapt (·.locate location)

def ofResolve (step : ResolveT σ α) : LaunchT σ α :=
  step.adapt fun e => .ofCause (.substitution e)

theorem liftM_bind {β : Type} (x : Result α) (f : α → Result β) :
    (liftM (x >>= f) : LaunchT σ β) = (liftM x : LaunchT σ α) >>= fun a => liftM (f a) := by
  cases x <;> rfl

end LaunchT

/-- The file a reference names, seen from the directory of the current file. -/
def Scope.resolvePath (s : Scope) (reference : String) : Path :=
  Path.resolve reference s.directory

end LaunchFile
