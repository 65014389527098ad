import LaunchFile.Boolean
import LaunchFile.World

/-!
# Attribute — the attributes an element is read for

The texts of all attributes that an element is read for are split into segments before the first of
them is resolved, so that a fault of form is reported before any other. Attributes that it is not
read for are never looked at.
-/

namespace LaunchFile

/-- An attribute to read; a required one has to be there. -/
inductive Wanted where
  | required (name : String)
  | optional (name : String)
  deriving DecidableEq, Repr

/-- The attributes read, as segments. -/
abbrev Attributes := Entries (List Segment)

namespace Attributes

/-! ## Reading -/

section

variable {m : Type → Type} [Monad m] [MonadLiftT Result m]

/-- Read attributes in order up to the first that is missing or malformed, given how texts are
split. -/
def collect (split : String → m (List Segment)) (e : Element) : List Wanted → m Attributes
  | [] => pure []
  | .required name :: rest => do
    let text ← e.required name
    let segments ← split text
    let others ← collect split e rest
    return (name, segments) :: others
  | .optional name :: rest =>
    match e.attr? name with
    | none => collect split e rest
    | some text => do
      let segments ← split text
      let others ← collect split e rest
      return (name, segments) :: others

end

def split (text : String) : Result (List Segment) :=
  Result.ofSubstitution (Segment.parse text)

/-- The attributes that an element is read for, their texts split directly. -/
def read (e : Element) : List Wanted → Result Attributes :=
  collect split e

theorem read_required (e : Element) (name : String) (rest : List Wanted) :
    read e (.required name :: rest) = (do
      let text ← e.required name
      let segments ← split text
      let others ← read e rest
      return (name, segments) :: others) :=
  rfl

theorem read_optional (e : Element) (name : String) (rest : List Wanted) :
    read e (.optional name :: rest) =
      match e.attr? name with
      | none => read e rest
      | some text => do
        let segments ← split text
        let others ← read e rest
        return (name, segments) :: others :=
  rfl

variable {L σ : Type} [Answers L σ]

def askSplit (look : L) (text : String) : LaunchT σ (List Segment) :=
  LaunchT.ofResolve (Answers.parse look text)

/-- The attributes that an element is read for. -/
def ask (look : L) (e : Element) : List Wanted → LaunchT σ Attributes :=
  collect (askSplit look) e

theorem askSplit_eq (look : Lookups) (text : String) : askSplit look text = liftM (split text) := by
  show LaunchT.ofResolve (liftM (Segment.parse text)) = liftM (split text)
  rw [split]
  cases Segment.parse text <;> rfl

/-- Where texts are split directly, nothing is asked. -/
theorem ask_eq (look : Lookups) (e : Element) : ∀ wanted : List Wanted,
    ask look e wanted = liftM (read e wanted)
  | [] => rfl
  | .required name :: rest => by
    have hrest := ask_eq look e rest
    rw [ask] at hrest ⊢
    simp only [read_required, collect, LaunchT.liftM_bind, askSplit_eq, hrest]
    rfl
  | .optional name :: rest => by
    have hrest := ask_eq look e rest
    rw [ask] at hrest ⊢
    simp only [read_optional, collect]
    cases e.attr? name with
    | none => exact hrest
    | some text =>
      simp only [LaunchT.liftM_bind, askSplit_eq, hrest]
      rfl

/-! ## Resolving -/

def textOf (look : L) (scope : Scope) (segments : List Segment) : LaunchT σ String :=
  LaunchT.ofResolve (Segment.resolveAll scope look segments)

/-- The text of an attribute, empty when it is not there. -/
def text (a : Attributes) (look : L) (scope : Scope) (name : String) : LaunchT σ String :=
  textOf look scope ((a.get? name).getD [])

/-- The text of an attribute that is there. -/
def text? (a : Attributes) (look : L) (scope : Scope) (name : String) :
    LaunchT σ (Option String) :=
  match a.get? name with
  | none => pure none
  | some segments => do
    let text ← textOf look scope segments
    return some text

/-- The boolean of an attribute, false when it is not there. -/
def flag (a : Attributes) (look : L) (scope : Scope) (name : String) : LaunchT σ Bool := do
  match ← a.text? look scope name with
  | none => return false
  | some text => readBoolean name text

end Attributes
end LaunchFile
