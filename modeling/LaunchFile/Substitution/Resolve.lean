import LaunchFile.Expr.Eval
import LaunchFile.Scope.Anon
import LaunchFile.Scope.Basic
import LaunchFile.Substitution.Segment

/-!
# Substitution/Resolve — the text that a row of segments stands for

Segments are resolved from left to right and the first error ends it. Values are spliced as they
are and not read again, except that the text of an eval directive is read as an expression.
-/

namespace LaunchFile

/-! ## Questions -/

/-- Resolution: a text or the first error, and the state of those who answer after it. -/
abbrev ResolveT (σ : Type) := ExceptT SubstitutionError (StateM σ)

/-- Resolution that is answered directly, with the registry of made-up names. -/
abbrev ResolveM := ResolveT AnonRegistry

/-- Those who answer what the scope does not know: what segments a text has, what variables and
packages there are and what name a seed has. They may keep a state of their own. -/
class Answers (L : Type) (σ : outParam Type) where
  parse : L → String → ResolveT σ (List Segment)
  env : L → String → StateM σ (Option String)
  find : L → String → StateM σ (Option String)
  anon : L → String → StateM σ String

/-- The variables and packages that there are. -/
structure Lookups where
  env : String → Option String
  find : String → Option String

/-- Nothing is kept but the names that were made up. -/
instance : Answers Lookups AnonRegistry where
  parse _ text := Segment.parse text
  env look name := pure (look.env name)
  find look name := pure (look.find name)
  anon _ seed registry := registry.resolve seed

/-! ## Resolution -/

namespace Segment

variable {L σ : Type} [Answers L σ]

/-- The look-ups of an expression inside a scope. -/
def bindings (scope : Scope) (look : L) : Expr.Bindings σ where
  arg name :=
    match scope.args.get? name with
    | none => .ok none
    | some binding =>
      match binding.value with
      | some value => .ok (some value)
      | none => .error (.lookup (.unsetArgument name))
  env := Answers.env look
  find := Answers.find look
  directory := scope.directory.map Path.text
  anon := Answers.anon look

def orFail {α : Type} (value : Option α) (error : SubstitutionError) :
    Except SubstitutionError α :=
  match value with
  | some value => .ok value
  | none => .error error

def resolveArg (scope : Scope) (name : String) : Except SubstitutionError String := do
  let binding ← orFail (scope.args.get? name) (.undeclaredArgument name)
  orFail binding.value (.unsetArgument name)

/-- The text of an expression's value. -/
def evalText (scope : Scope) (look : L) (expression : String) : ResolveT σ String := do
  let value ← (Expr.evaluate (bindings scope look) expression).adapt .eval
  pure value.text

mutual

def resolve (scope : Scope) (look : L) : Segment → ResolveT σ String
  | .text s => pure s
  | .arg name => resolveArg scope name
  | .env name => do
    let value ← Answers.env look name
    orFail value (.undefinedVariable name)
  | .optenv name fallback => do
    let value ← Answers.env look name
    pure ((value <|> fallback).getD "")
  | .find package => do
    let path ← Answers.find look package
    orFail path (.packageNotFound package)
  | .anon seed => Answers.anon look seed
  | .dirname => (orFail scope.directory (.invalid "$(dirname)" .notInFile)).map Path.text
  | .eval parts => do
    let expression ← resolveAll scope look parts
    evalText scope look expression

def resolveAll (scope : Scope) (look : L) : List Segment → ResolveT σ String
  | [] => pure ""
  | segment :: rest => do
    let first ← resolve scope look segment
    let following ← resolveAll scope look rest
    pure (first ++ following)

end

/-- Read an attribute text and resolve it. -/
def evaluate (scope : Scope) (look : L) (text : String) : ResolveT σ String := do
  let segments ← Answers.parse look text
  resolveAll scope look segments

/-! ## Direct answers -/

section

variable (scope : Scope) (look : Lookups)

theorem resolve_env (name : String) :
    resolve scope look (.env name) = liftM (orFail (look.env name) (.undefinedVariable name)) := by
  rw [resolve]
  rfl

theorem resolve_optenv (name : String) (fallback : Option String) :
    resolve scope look (.optenv name fallback) =
      pure ((look.env name <|> fallback).getD "") := by
  rw [resolve]
  rfl

theorem resolve_find (package : String) :
    resolve scope look (.find package) =
      liftM (orFail (look.find package) (.packageNotFound package)) := by
  rw [resolve]
  rfl

theorem evaluate_eq (text : String) :
    evaluate scope look text = liftM (parse text) >>= resolveAll scope look :=
  rfl

end
end Segment
end LaunchFile
