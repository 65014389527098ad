import LaunchFile.Rosparam

/-!
# Namespace — entering the namespace that an element names

Groups, includes and nodes may push a namespace. Groups and includes may ask for its parameters to
be cleared, which needs a namespace of their own.
-/

namespace LaunchFile

namespace Scope

/-- The scope inside of a namespace, if one is named. -/
def enterNs (s : Scope) (ns : Option String) : Result Scope :=
  match ns with
  | none => .ok s
  | some ns => do
    Result.ofName ns (GraphName.check true ns)
    return s.pushNamespace ns

end Scope

variable {L σ : Type} [Answers L σ]

/-- The scope that `ns` leads to, and the clearing of it that `clear_params` asks for. -/
def enterCleared (look : L) (scope : Scope) (a : Attributes) (e : Element) :
    LaunchT σ (Scope × Option RosparamCommand) := do
  let ns ← a.text? look scope "ns"
  let inner ← scope.enterNs ns
  if ← a.flag look scope "clear_params" then
    if ns.isNone then Result.fail (.missingAttribute e.tag "ns")
    else return (inner, some (.clear inner.ns e.location))
  else return (inner, none)

/-- The scope inside of a `<group>`, and the clearing it asks for. -/
def readGroup (look : L) (scope : Scope) (e : Element) :
    LaunchT σ (Scope × Option RosparamCommand) := do
  let a ← Attributes.ask look e [.optional "ns", .optional "clear_params"]
  enterCleared look scope a e

end LaunchFile
