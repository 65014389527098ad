import LaunchFile.Expr.Error

/-!
# Substitution/Error — why an attribute text cannot be read or resolved

A fault of form quotes the whole attribute text, also when it lies inside an expression.
-/

namespace LaunchFile

/-- What is wrong with the form of an attribute text. -/
inductive SubstitutionFault where
  | unmatchedParen
  | unclosedEval
  | emptyEval
  | unclosed
  | nested
  | empty
  | oneArgument (kind : String) (got : Nat)
  | optenvName
  | dirnameArguments
  | unknown (kind : String)
  | notInFile
  deriving DecidableEq, Repr

def SubstitutionFault.message : SubstitutionFault → String
  | .unmatchedParen => "unmatched ')'"
  | .unclosedEval => "unclosed '$(eval'"
  | .emptyEval => "$(eval) requires an expression"
  | .unclosed => "unclosed '$('"
  | .nested => "substitutions may only be nested inside $(eval ...)"
  | .empty => "empty substitution '$()'"
  | .oneArgument kind got => s!"$({kind}) takes exactly one argument, got {got}"
  | .optenvName => "$(optenv) requires a variable name"
  | .dirnameArguments => "$(dirname) takes no arguments"
  | .unknown kind => s!"unknown substitution '{kind}'"
  | .notInFile => "not inside a launch file"

inductive SubstitutionError where
  | invalid (text : String) (fault : SubstitutionFault)
  | undeclaredArgument (name : String)
  | unsetArgument (name : String)
  | undefinedVariable (name : String)
  | packageNotFound (name : String)
  | eval (error : Expr.EvalError)

def SubstitutionError.message : SubstitutionError → String
  | .invalid text fault => s!"Invalid substitution syntax in '{text}': {fault.message}"
  | .undeclaredArgument name =>
    s!"Undeclared argument: '{name}'. Did you forget to declare it with <arg>?"
  | .unsetArgument name =>
    s!"Argument '{name}' is declared without a value and none was passed in"
  | .undefinedVariable name =>
    s!"Undefined environment variable: '{name}'. Make sure the variable is set in your environment."
  | .packageNotFound name =>
    s!"Package '{name}' not found. Ensure the package is installed and sourced."
  | .eval error => s!"$(eval) failed: {error.message}"

end LaunchFile
