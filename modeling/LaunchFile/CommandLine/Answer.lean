import LaunchFile.CommandLine.Help
import LaunchFile.Interpreter
import LaunchFile.Model.Json
import LaunchFile.Options

/-!
# CommandLine/Answer — what a command line leads to

The model goes to the standard output or to a file, as JSON text. Failures end the program with 1,
words that cannot be read and options that cannot be used with 2.
-/

namespace LaunchFile.CommandLine

/-! ## Failures -/

inductive Failure where
  | unreadableOptions (path : Path) (fault : FileFault)
  | malformedOptions
  | packageNotFound (package : String)
  | launchFileNotFound (file package : String)
  | launch (error : LaunchError)
  | output (fault : FileFault)

namespace Failure

def message : Failure → String
  | .unreadableOptions _ fault => s!"invalid options: {fault.message}"
  | .malformedOptions => "invalid options: not a mapping of options"
  | .packageNotFound package => s!"Package '{package}' not found on ROS_PACKAGE_PATH"
  | .launchFileNotFound file package => s!"Launch file not found: {file} in package {package}"
  | .launch error => error.message
  | .output fault => fault.message

def exitCode : Failure → UInt32
  | .unreadableOptions _ _ => 2
  | .malformedOptions => 2
  | _ => 1

end Failure

/-- What to do for a command line. -/
inductive Answer where
  | stop (reason : Stop)
  | fail (failure : Failure)
  | print (text : String)
  | write (path : Path) (text : String)

def Answer.exitCode : Answer → UInt32
  | .stop .refused => 2
  | .stop _ => 0
  | .fail failure => failure.exitCode
  | .print _ => 0
  | .write _ _ => 0

/-! ## From the settings to the model -/

/-- What lies outside of the program. -/
structure Surroundings where
  env : String → Option String
  files : Files
  /-- The directory of a package. -/
  find : String → Option Path

namespace Surroundings

def isFile (s : Surroundings) (path : Path) : Bool :=
  (s.files.bytes path).isOk

/-- The options of the settings' file; what the words say comes on top. -/
def options (s : Surroundings) (settings : Settings) : Except Failure Options := do
  let options ← match settings.config with
    | none => pure Options.standard
    | some path =>
      match s.files.text path with
      | .error fault => throw (.unreadableOptions path fault)
      | .ok text =>
        match Options.parse text with
        | some options => pure options
        | none => throw .malformedOptions
  return if settings.strict then { options with strict := true } else options

/-- Where a launch file of a package may be. -/
def candidates (root : Path) (file : String) : List Path :=
  [(root.join ⟨"launch"⟩).join ⟨file⟩, root.join ⟨file⟩]

def locate (s : Surroundings) : Target → Except Failure Path
  | .file path => .ok path
  | .launch package file =>
    match s.find package with
    | none => .error (.packageNotFound package)
    | some root =>
      match (candidates root file).find? s.isFile with
      | some path => .ok path
      | none => .error (.launchFileNotFound file package)

/-- The model that the settings ask for; made-up names come from the registry. -/
def model (s : Surroundings) (registry : AnonRegistry) (settings : Settings) :
    Except Failure Model := do
  let options ← s.options settings
  let path ← s.locate settings.target
  let look : Lookups := ⟨s.env, fun package => (s.find package).map Path.text⟩
  let w := World.of look s.files options.strict options.distro
  ((interpretFile w path settings.args).run registry).1.mapError .launch

end Surroundings

/-- What a command line leads to. -/
def answer (s : Surroundings) (registry : AnonRegistry) (words : List String) : Answer :=
  match Settings.read words with
  | .error reason => .stop reason
  | .ok settings =>
    match s.model registry settings with
    | .error failure => .fail failure
    | .ok model =>
      match settings.output with
      | some path => .write path model.jsonText
      | none => .print (model.jsonText ++ "\n")

end LaunchFile.CommandLine
