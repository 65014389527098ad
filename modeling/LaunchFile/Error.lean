import LaunchFile.GraphName
import LaunchFile.Location
import LaunchFile.Text.Utf8
import LaunchFile.Substitution.Error

/-!
# Error — why a launch file has no model

An error is a cause and, once it has passed an element, the place of that element. The first place
attached stays: `LaunchError.locate` never replaces one, so that an error keeps the innermost
element it came from.
-/

namespace LaunchFile

/-! ## Causes -/

/-- Why a document is no launch tree. -/
inductive XmlFault where
  | notWellFormed
  | wrongRoot (tag : String)
  deriving DecidableEq, Repr

/-- Why a text holds no parameter value. -/
inductive YamlFault where
  | notYaml
  | null
  | unsupportedKey
  deriving DecidableEq, Repr

/-- Why a file cannot be read. -/
inductive FileFault where
  | unknown
  | notText (fault : Text.Utf8.Fault)
  | notTextOnDisk
  | noEntry
  | notDirectory
  | isDirectory
  | nameTooLong
  | nulInPath
  | system (text : String)
  deriving DecidableEq, Repr

/-- Why an attribute cannot have the value it has. -/
inductive ValueFault where
  | paramType
  | notAnInt
  | notADouble
  | valueAndDefault
  | notAPort
  | notPositive
  | machineDefault
  | respawnRequired
  | negative
  | output
  | workingDirectory
  | notACount
  | paramSources
  | rosparamCommand
  | deleteFile
  | needsParamName
  deriving DecidableEq, Repr

/-- What went wrong. -/
inductive Cause where
  | malformedXml (fault : XmlFault)
  | substitution (error : SubstitutionError)
  | argConflict (name : String) (existing requested : Option String)
  | malformedBoolean (attr value : String)
  | conflictingCondition (element : String)
  | unknownElement (parent child : String)
  | includeCycle (chain : List Path)
  | fileNotFound (path : Path) (fault : FileFault)
  | missingAttribute (element attr : String)
  | invalidValue (attr value : String) (fault : ValueFault)
  | invalidName (name : String) (fault : NameFault)
  | invalidYaml (fault : YamlFault)
  | undeclaredMachine (name : String)
  | machineConflict (name : String)

/-- A cause, and the place of the element it came from if that is known. -/
structure LaunchError where
  cause : Cause
  location : Option Location

/-! ## Wording -/

/-- The wording of a fault of a tree. -/
def XmlFault.message : XmlFault → String
  | .notWellFormed => "document is not well-formed"
  | .wrongRoot tag => s!"root element must be <launch>, found <{tag}>"

/-- The wording of a fault of a document. -/
def YamlFault.message : YamlFault → String
  | .notYaml => "text is not a YAML document"
  | .null => "parameters cannot be null"
  | .unsupportedKey => "unsupported mapping key"

/-- The wording of a fault of a file. -/
def FileFault.message : FileFault → String
  | .unknown => "no such file"
  | .notText fault => fault.message
  | .notTextOnDisk => "stream did not contain valid UTF-8"
  | .noEntry => "No such file or directory (os error 2)"
  | .notDirectory => "Not a directory (os error 20)"
  | .isDirectory => "Is a directory (os error 21)"
  | .nameTooLong => "File name too long (os error 36)"
  | .nulInPath => "file name contained an unexpected NUL byte"
  | .system text => text

/-- The wording of a fault of a value. -/
def ValueFault.message : ValueFault → String
  | .paramType => "expected one of auto, str, string, int, double, bool, yaml"
  | .notAnInt => "not an int"
  | .notADouble => "not a double"
  | .valueAndDefault => "<arg> may have 'value' or 'default', not both"
  | .notAPort => "not a valid port number"
  | .notPositive => "must be a positive number"
  | .machineDefault => "expected true, false or never"
  | .respawnRequired => "a node cannot be both respawn and required"
  | .negative => "must be a non-negative number"
  | .output => "expected log or screen"
  | .workingDirectory => "expected ROS_HOME or node"
  | .notACount => "must be a non-negative integer"
  | .paramSources => "<param> takes exactly one of value, textfile, binfile, command"
  | .rosparamCommand => "expected load, dump or delete"
  | .deleteFile => "rosparam delete does not take a file"
  | .needsParamName => "loading a non-mapping value needs a 'param' name"

/-- The value of an argument in messages. -/
def shownValue (value : Option String) : String :=
  value.getD "<unset>"

/-- The wording of a cause, which quotes what it is about. -/
def Cause.message : Cause → String
  | .malformedXml fault => s!"XML parsing error: {fault.message}"
  | .substitution error => error.message
  | .argConflict name existing requested =>
    s!"Argument '{name}' is already bound to '{shownValue existing}', " ++
      s!"cannot rebind it to '{shownValue requested}'"
  | .malformedBoolean attr value =>
    s!"'{value}' is not a valid boolean for '{attr}' (expected true, false, 1 or 0)"
  | .conflictingCondition element => s!"Element '<{element}>' declares both 'if' and 'unless'"
  | .unknownElement parent child => s!"Unknown element '<{child}>' in '<{parent}>'"
  | .includeCycle chain =>
    "Include cycle detected: " ++ String.intercalate " -> " (chain.map Path.text)
  | .fileNotFound path fault => s!"File not found: {path.text}: {fault.message}"
  | .missingAttribute element attr =>
    s!"Missing required attribute '{attr}' on element '<{element}>'"
  | .invalidValue attr value fault =>
    s!"'{value}' is not a valid value for '{attr}': {fault.message}"
  | .invalidName name fault => s!"Invalid ROS name '{name}': {fault.message}"
  | .invalidYaml fault => s!"Invalid YAML: {fault.message}"
  | .undeclaredMachine name => s!"Machine '{name}' is not declared"
  | .machineConflict name => s!"Machine '{name}' is already declared with a different definition"

namespace LaunchError

/-- The wording of an error: its place, if it has one, and its cause. -/
def message (e : LaunchError) : String :=
  match e.location with
  | some location => s!"{location.text}: {e.cause.message}"
  | none => e.cause.message

/-! ## Places -/

/-- An error that has not passed an element yet. -/
def ofCause (cause : Cause) : LaunchError :=
  ⟨cause, none⟩

/-- The error with a place, unless it has one already. -/
def locate (e : LaunchError) (location : Location) : LaunchError :=
  match e.location with
  | some _ => e
  | none => { e with location := some location }

end LaunchError

/-- A result or the reason why there is none. -/
abbrev Result (α : Type) := Except LaunchError α

namespace Result

/-- The failure with this cause, which has no place yet. -/
def fail {α : Type} (cause : Cause) : Result α :=
  .error (.ofCause cause)

/-- A result whose error gets a place, unless it has one already. -/
def located {α : Type} (location : Location) (r : Result α) : Result α :=
  r.mapError (·.locate location)

/-- The failure of a substitution, as one of the launch file. -/
def ofSubstitution {α : Type} (r : Except SubstitutionError α) : Result α :=
  r.mapError fun e => .ofCause (.substitution e)

/-- The check of a name, as an error that quotes the name without the blanks around it. -/
def ofName {α : Type} (name : String) (r : Except NameFault α) : Result α :=
  r.mapError fun fault => .ofCause (.invalidName (Text.trim name) fault)

end Result
end LaunchFile
