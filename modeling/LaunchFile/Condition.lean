import LaunchFile.Attribute

/-!
# Condition — whether an element takes part

An element with `if` takes part when the condition holds, one with `unless` when it does not, and
one with neither always. An element cannot have both.
-/

namespace LaunchFile

namespace Element

variable {L σ : Type} [Answers L σ]

/-- Whether there is a condition. -/
def isConditional (e : Element) : Bool :=
  e.hasAttr "if" || e.hasAttr "unless"

/-- The boolean that a condition's text resolves to. -/
def conditionValue (look : L) (scope : Scope) (name text : String) : LaunchT σ Bool := do
  let resolved ← LaunchT.ofResolve (Segment.evaluate scope look text)
  readBoolean name resolved

def isActive (look : L) (scope : Scope) (e : Element) : LaunchT σ Bool :=
  LaunchT.located e.location <|
    match e.attr? "if", e.attr? "unless" with
    | none, none => pure true
    | some text, none => conditionValue look scope "if" text
    | none, some text => do
      let held ← conditionValue look scope "unless" text
      return !held
    | some _, some _ => throw (.ofCause (.conflictingCondition e.tag))

/-- The scope inside of an element that takes part. -/
def inside (e : Element) (scope : Scope) : Scope :=
  if e.isConditional then scope.setCondition true else scope

end Element
end LaunchFile
