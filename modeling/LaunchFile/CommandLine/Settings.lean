import LaunchFile.Path

/-!
# CommandLine/Settings — what the words of a command line ask for

A command line names one command, `launch` or `file`, and its arguments. Options may stand anywhere;
the value of an option follows it or is attached to it, short options may be run together, and
behind `--` no word is an option. Options given before the command count also for it, and one that
takes a value is overridden there. A third command, `help`, takes the name of a command alone.
-/

namespace LaunchFile.CommandLine

/-- The launch file to interpret. -/
inductive Target where
  | launch (package file : String)
  | file (path : Path)
  deriving DecidableEq, Repr

structure Settings where
  target : Target
  args : List (String × String)
  strict : Bool
  config : Option Path
  output : Option Path
  deriving DecidableEq, Repr

/-! ## Commands and options -/

inductive Command where
  | launch
  | file
  | help
  deriving DecidableEq, Repr

def Command.ofText? : String → Option Command
  | "launch" => some .launch
  | "file" => some .file
  | "help" => some .help
  | _ => none

/-- Why there are no settings: help on a command or on the whole program is wanted, or the version,
or the words cannot be read. -/
inductive Stop where
  | help (command : Option Command)
  | version
  | refused
  deriving DecidableEq, Repr

inductive Opt where
  | strict
  | config
  | verbose
  | quiet
  | output
  | help
  | version
  deriving DecidableEq, Repr

namespace Opt

def ofLong? : List Char → Option Opt := fun cs =>
  match String.ofList cs with
  | "strict" => some .strict
  | "config" => some .config
  | "verbose" => some .verbose
  | "quiet" => some .quiet
  | "output" => some .output
  | "help" => some .help
  | "version" => some .version
  | _ => none

def ofShort? : Char → Option Opt
  | 'v' => some .verbose
  | 'q' => some .quiet
  | 'o' => some .output
  | 'h' => some .help
  | 'V' => some .version
  | _ => none

def takesValue : Opt → Bool
  | .config => true
  | .output => true
  | _ => false

/-- Whether the option may stand before a command, or inside of one. -/
def isAllowed (inCommand : Bool) : Opt → Bool
  | .output => inCommand
  | .version => !inCommand
  | _ => true

end Opt

/-! ## Reading -/

/-- What the words so far have said. -/
structure Reading where
  command : Option Command
  /-- The options given since the command, or before it. -/
  seen : List Opt
  strict : Bool
  config : Option Path
  output : Option Path
  /-- An option whose value has to come next. -/
  pending : Option Opt
  /-- Whether a word can no longer be an option. -/
  plain : Bool
  /-- The words of the command, the last one first. -/
  words : List String
  deriving DecidableEq, Repr

namespace Reading

def start : Reading :=
  ⟨none, [], false, none, none, none, false, []⟩

/-- Note an option; none may be given twice. -/
def note (r : Reading) (o : Opt) : Except Stop Reading :=
  if !o.isAllowed r.command.isSome || r.seen.contains o then .error .refused
  else .ok { r with seen := o :: r.seen }

def flag (r : Reading) (o : Opt) : Except Stop Reading := do
  let r ← r.note o
  match o with
  | .help => throw (.help r.command)
  | .version => throw .version
  | .strict => return { r with strict := true }
  | _ => return r

/-- Give an option its value, which is never empty. -/
def value (r : Reading) (o : Opt) (text : List Char) : Except Stop Reading := do
  let r ← r.note o
  if text.isEmpty then throw .refused
  match o with
  | .config => return { r with config := some ⟨String.ofList text⟩ }
  | .output => return { r with output := some ⟨String.ofList text⟩ }
  | _ => throw .refused

/-- A long option without its dashes, and the value after an equals sign. -/
def long (r : Reading) (cs : List Char) : Except Stop Reading :=
  let (name, rest) := cs.span (· != '=')
  match Opt.ofLong? name, rest with
  | none, _ => .error .refused
  | some o, [] => if o.takesValue then .ok { r with pending := some o } else r.flag o
  | some o, _ :: text => if o.takesValue then r.value o text else .error .refused

/-- Short options run together; one that takes a value takes what follows it. -/
def short : Reading → List Char → Except Stop Reading
  | r, [] => .ok r
  | r, c :: cs =>
    match Opt.ofShort? c with
    | none => .error .refused
    | some o =>
      if o.takesValue then
        match cs with
        | [] => .ok { r with pending := some o }
        | '=' :: text => r.value o text
        | text => r.value o text
      else do
        let r ← r.flag o
        r.short cs

/-- An argument as `name:=value`, with a name. -/
def argument? (cs : List Char) : Option (String × String) :=
  let rec split (name : List Char) : List Char → Option (String × String)
    | ':' :: '=' :: value =>
      if name.isEmpty then none
      else some (String.ofList name.reverse, String.ofList value)
    | c :: rest => split (c :: name) rest
    | [] => none
  split [] cs

/-- Whether a word may be the next one of the command. -/
def admits (r : Reading) (command : Command) (word : String) : Bool :=
  match command, r.words.length with
  | .launch, 0 => true
  | .launch, 1 => true
  | .file, 0 => !word.isEmpty
  | .help, 0 => (Command.ofText? word).isSome
  | .help, _ => false
  | _, _ => (argument? word.toList).isSome

def word (r : Reading) (word : String) : Except Stop Reading :=
  match r.command with
  | none =>
    match Command.ofText? word with
    | none => .error .refused
    | some command => .ok { r with command := some command, seen := [] }
  | some command =>
    if r.admits command word then .ok { r with words := word :: r.words } else .error .refused

/-- Whether a word is an option by its look. -/
def isOption : List Char → Bool
  | '-' :: _ :: _ => true
  | _ => false

def step (r : Reading) (w : String) : Except Stop Reading :=
  match r.pending with
  | some o =>
    if isOption w.toList then .error .refused
    else { r with pending := none }.value o w.toList
  | none =>
    if r.plain || r.command == some .help then r.word w
    else match w.toList with
      | ['-', '-'] => if r.command.isNone then .error .refused else .ok { r with plain := true }
      | '-' :: '-' :: cs => r.long cs
      | '-' :: c :: cs => r.short (c :: cs)
      | _ => r.word w

/-- The settings that all words together amount to. -/
def finish (r : Reading) : Except Stop Settings :=
  if r.pending.isSome then .error .refused
  else
    let settings (target : Target) (args : List String) : Settings :=
      ⟨target, args.filterMap (argument? ·.toList), r.strict, r.config, r.output⟩
    match r.command, r.words.reverse with
    | some .launch, package :: file :: args => .ok (settings (.launch package file) args)
    | some .file, path :: args => .ok (settings (.file ⟨path⟩) args)
    | some .help, words => .error (.help (words.head?.bind Command.ofText?))
    | _, _ => .error .refused

end Reading

/-- Read the words of a command line. -/
def Settings.read (words : List String) : Except Stop Settings := do
  let r ← words.foldlM Reading.step .start
  r.finish

end LaunchFile.CommandLine
