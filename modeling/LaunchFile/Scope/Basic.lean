import LaunchFile.Dict
import LaunchFile.Error

/-!
# Scope/Basic — what surrounds an element

A scope holds the namespace, the arguments, the remappings, the environment of nodes, the default
machine and the current file. Deriving a scope never changes the one it comes from.
-/

namespace LaunchFile

/-! ## Arguments -/

/-- Where an argument's value came from; an override is given from outside of the file. -/
inductive ArgOrigin where
  | override
  | default
  | value
  | declared
  deriving DecidableEq, Repr

/-- The word for an origin. -/
def ArgOrigin.text : ArgOrigin → String
  | .override => "override"
  | .default => "default"
  | .value => "value"
  | .declared => "declared"

/-- What a name is bound to: the value if it has one, where that came from, and its description. -/
structure ArgBinding where
  value : Option String
  origin : ArgOrigin
  doc : Option String
  deriving DecidableEq, Repr

/-! ## Scopes -/

/-- The machine of nodes that are assigned to none. -/
def localMachine : String := "local"

/-- What surrounds an element. Names are any text, since a caller may start in a scope of its own
making, which nothing has checked. Runs that start with well-formed names keep them so. -/
structure Scope where
  ns : String
  privateNs : Option String
  args : Dict ArgBinding
  remaps : List (String × String)
  env : Dict String
  condition : Option Bool
  machine : String
  file : Option Path
  deriving DecidableEq, Repr, Inhabited

namespace Scope

/-- The scope outside of everything. -/
def root : Scope :=
  ⟨"/", none, .empty, [], .empty, none, localMachine, none⟩

/-- The directory of the current file. -/
def directory (s : Scope) : Option Path :=
  s.file.bind Path.parent?

/-! ## Names -/

/-- The namespace of relative parameter names: that of the enclosing node, else the current one. -/
def paramNs (s : Scope) : String :=
  s.privateNs.getD s.ns

/-- A graph name in this scope: `/x` is absolute, `~x` private, anything else relative. -/
def resolveName (s : Scope) (name : String) : String :=
  match Text.trimChars name.toList with
  | '/' :: rest => GraphName.normalize (String.ofList rest)
  | '~' :: rest => GraphName.join s.paramNs (String.ofList rest)
  | cs => GraphName.join s.ns (String.ofList cs)

/-- Whether a name is absolute or private, so that no namespace is put before it. -/
def isAnchored : List Char → Bool
  | '/' :: _ => true
  | '~' :: _ => true
  | _ => false

/-- A parameter name in this scope; relative ones lie in `paramNs`. -/
def resolveParamName (s : Scope) (name : String) : String :=
  let cs := Text.trimChars name.toList
  if isAnchored cs then s.resolveName (String.ofList cs)
  else GraphName.join s.paramNs (String.ofList cs)

/-! ## Derived scopes -/

/-- The scope inside a namespace, which is given by a name in the scope around it. -/
def pushNamespace (s : Scope) (name : String) : Scope :=
  { s with ns := s.resolveName name }

/-- The scope inside a node, given the node's full name. -/
def enterNode (s : Scope) (fullName : String) : Scope :=
  { s with privateNs := some fullName }

def setCondition (s : Scope) (condition : Bool) : Scope :=
  { s with condition := some condition }

def setMachine (s : Scope) (name : String) : Scope :=
  { s with machine := name }

def setFile (s : Scope) (file : Path) : Scope :=
  { s with file := some file }

/-- The scope with a variable set for the nodes in it. -/
def setEnv (s : Scope) (name value : String) : Scope :=
  { s with env := s.env.insert name value }

/-- Add a remapping; a later one of the same source takes the place of the earlier. -/
def addRemap (s : Scope) (source target : String) : Scope :=
  let source := s.resolveName source
  let target := s.resolveName target
  { s with remaps := s.remaps.filter (·.1 != source) ++ [(source, target)] }

/-- The top scope of an included file: namespace and condition stay, all else starts anew. -/
def forInclude (s : Scope) (file : Path) : Scope :=
  { root with ns := s.ns, condition := s.condition, file := some file }

/-! ## Binding arguments -/

/-- The scope with this entry for an argument, whatever it had before. -/
def setArg (s : Scope) (name : String) (binding : ArgBinding) : Scope :=
  { s with args := s.args.insert name binding }

/-- What becomes of the entry of an argument that is bound again; none when the two disagree. An
override takes the place of any entry. Against an override only a `value` that differs is a
conflict; the override stays and may gain a description. Any other entry stays if the values
agree. -/
def rebind? (existing binding : ArgBinding) : Option ArgBinding :=
  let agrees := existing.value == binding.value
  if binding.origin == .override then some binding
  else if existing.origin == .override then
    if binding.origin == .value && !agrees then none
    else some { existing with doc := existing.doc <|> binding.doc }
  else if agrees then some existing
  else none

/-- Bind an argument. One that is bound already becomes what `rebind?` says, or is a conflict. -/
def bind (s : Scope) (name : String) (binding : ArgBinding) : Result Scope :=
  match s.args.get? name with
  | none => .ok (s.setArg name binding)
  | some existing =>
    match rebind? existing binding with
    | some kept => .ok (s.setArg name kept)
    | none => Result.fail (.argConflict name existing.value binding.value)

/-- Bind an argument without a description. -/
def bindArg (s : Scope) (name : String) (value : Option String) (origin : ArgOrigin) :
    Result Scope :=
  s.bind name ⟨value, origin, none⟩

end Scope
end LaunchFile
