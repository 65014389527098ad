import LaunchFile.CommandLine.Settings

/-!
# CommandLine/Help — what a command line may hold, told to the user

The help on a command, or on the whole program, says what it is for and how it is called, and lists
its commands, arguments and options. The names of a list fill one column, what they are for the
next.
-/

namespace LaunchFile.CommandLine

def programName : String := "roslaunch_parser"

def programVersion : String := "0.1.0"

/-! ## Lists -/

/-- A name that a command line may hold, and what it is for. -/
structure HelpEntry where
  name : String
  about : String
  deriving DecidableEq, Repr

/-- The names of all entries are padded to the length of the longest. -/
def HelpEntry.column (entries : List HelpEntry) : List String :=
  let width := entries.foldl (fun width e => max width e.name.length) 0
  entries.map fun e => "  " ++ e.name ++ "".pushn ' ' (width - e.name.length) ++ "  " ++ e.about

/-- A list under its title; an empty list is left out. -/
def HelpEntry.block (title : String) (entries : List HelpEntry) : List String :=
  if entries.isEmpty then [] else ["", title ++ ":"] ++ HelpEntry.column entries

/-! ## Commands -/

namespace Command

def name : Command → String
  | .launch => "launch"
  | .file => "file"
  | .help => "help"

def about : Command → String
  | .launch => "Resolve a launch file from a package on ROS_PACKAGE_PATH"
  | .file => "Resolve a launch file from a direct file path"
  | .help => "Print this message or the help of the given subcommand(s)"

def all : List Command :=
  [.launch, .file, .help]

def arguments : Command → List HelpEntry
  | .launch =>
    [⟨"<PACKAGE>", "Package name"⟩, ⟨"<FILE>", "Launch file name"⟩,
      ⟨"[ARGS]...", "Launch arguments (name:=value)"⟩]
  | .file => [⟨"<PATH>", "Launch file path"⟩, ⟨"[ARGS]...", "Launch arguments (name:=value)"⟩]
  | .help => [⟨"[COMMAND]...", "Print help for the subcommand(s)"⟩]

/-- Whether options may be given to the command. -/
def hasOptions : Command → Bool
  | .help => false
  | _ => true

end Command

/-! ## Options -/

namespace Opt

/-- How the option is written, with its value if it takes one. -/
def form : Opt → String
  | .output => "-o, --output <OUTPUT>"
  | .strict => "    --strict"
  | .config => "    --config <CONFIG>"
  | .verbose => "-v, --verbose"
  | .quiet => "-q, --quiet"
  | .help => "-h, --help"
  | .version => "-V, --version"

def about : Opt → String
  | .output => "Output file path (default: stdout)"
  | .strict => "Fail on unknown elements instead of skipping them"
  | .config => "Interpretation options file (YAML or JSON)"
  | .verbose => ""
  | .quiet => ""
  | .help => "Print help"
  | .version => "Print version"

def all : List Opt :=
  [.output, .strict, .config, .verbose, .quiet, .help, .version]

/-- The options that may stand before a command, or inside of one. -/
def entries (inCommand : Bool) : List HelpEntry :=
  (all.filter (isAllowed inCommand)).map fun o => ⟨o.form, o.about⟩

end Opt

/-! ## The help -/

def helpLines : List String :=
  ["Resolve a ROS launch file into its runtime model", "",
    "Usage: " ++ programName ++ " [OPTIONS] <COMMAND>"] ++
  HelpEntry.block "Commands" (Command.all.map fun c => ⟨c.name, c.about⟩) ++
  HelpEntry.block "Options" (Opt.entries false)

def Command.helpLines (c : Command) : List String :=
  let options := if c.hasOptions then ["[OPTIONS]"] else []
  let usage := [programName, c.name] ++ options ++ c.arguments.map HelpEntry.name
  [c.about, "", "Usage: " ++ " ".intercalate usage] ++
  HelpEntry.block "Arguments" c.arguments ++
  HelpEntry.block "Options" (if c.hasOptions then Opt.entries true else [])

/-- What is printed when there are no settings. -/
def Stop.text : Stop → String
  | .version => programName ++ " " ++ programVersion ++ "\n"
  | .help (some c) => "\n".intercalate c.helpLines ++ "\n"
  | .help none => "\n".intercalate helpLines ++ "\n"
  | .refused => "\n".intercalate helpLines ++ "\n"

end LaunchFile.CommandLine
