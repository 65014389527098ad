import LaunchFile.Expr.Token

/-!
# Expr/Error — why an expression cannot be read or has no value

Each cause is a constructor; `EvalError.message` holds all wording.
-/

namespace LaunchFile.Expr

/-! ## Causes -/

/-- What is wrong with the text of an expression, at some offset. -/
inductive SyntaxFault where
  | unexpectedCharacter (c : Char)
  | unterminatedString
  | invalidNumber (text : String)
  | integerOutOfRange (text : String)
  | trailing (found : TokenKind)
  | tooDeep
  | missingElse
  | unclosedCall
  | unclosedParen
  | keyword (name : String)
  | unexpectedEnd
  | unexpected (found : TokenKind)

/-- What is wrong with the types of operands or arguments; types stand under their names. -/
inductive TypeFault where
  | operands (operator left right : String)
  | unaryOperand (found : String)
  | logicalOperator
  | stringExpected (function found : String)
  | numberExpected (function found : String)
  | notAnInt (text : String)
  | notAFloat (text : String)
  | roundDigits
  | mathDomain
  deriving DecidableEq

/-- A look-up outside the expression that has no answer. -/
inductive LookupFault where
  | unsetArgument (name : String)
  | unsetVariable (name : String)
  | missingPackage (name : String)
  | noDirectory
  deriving DecidableEq

/-- How many arguments a function takes. -/
inductive Arity where
  | none
  | one
  | two
  | oneOrTwo
  | atLeastOne
  deriving DecidableEq

inductive EvalError where
  | invalid (offset : Nat) (fault : SyntaxFault)
  | unknownIdentifier (name : String)
  | unknownFunction (name : String)
  | arity (function : String) (expected : Arity) (got : Nat)
  | typeMismatch (fault : TypeFault)
  | divisionByZero
  | overflow
  | lookup (fault : LookupFault)
  | doubleUnderscore (source : String)

/-! ## Wording -/

def SyntaxFault.message : SyntaxFault → String
  | .unexpectedCharacter c => s!"unexpected character '{c}'"
  | .unterminatedString => "unterminated string literal"
  | .invalidNumber text => s!"invalid number '{text}'"
  | .integerOutOfRange text => s!"integer literal '{text}' out of range"
  | .trailing found => s!"unexpected {found.describe} after expression"
  | .tooDeep => "expression nested too deeply"
  | .missingElse => "expected 'else' in conditional expression"
  | .unclosedCall => "expected ')' to close call"
  | .unclosedParen => "expected ')'"
  | .keyword name => s!"unexpected keyword '{name}'"
  | .unexpectedEnd => "unexpected end of expression"
  | .unexpected found => s!"unexpected {found.describe}"

def TypeFault.message : TypeFault → String
  | .operands operator left right =>
    s!"unsupported operand types for {operator}: '{left}' and '{right}'"
  | .unaryOperand found => s!"bad operand type for unary operator: '{found}'"
  | .logicalOperator => "logical operator used as arithmetic"
  | .stringExpected function found => s!"{function}() expects a string, got '{found}'"
  | .numberExpected function found => s!"{function}() expects a number, got '{found}'"
  | .notAnInt text => s!"invalid literal for int(): '{text}'"
  | .notAFloat text => s!"could not convert string to float: '{text}'"
  | .roundDigits => "round() digits must be an integer"
  | .mathDomain => "math domain error"

def LookupFault.message : LookupFault → String
  | .unsetArgument name => s!"argument '{name}' is declared without a value"
  | .unsetVariable name => s!"environment variable '{name}' is not set"
  | .missingPackage name => s!"package '{name}' not found"
  | .noDirectory => "dirname() outside of a launch file"

def Arity.describe : Arity → String
  | .none => "no"
  | .one => "exactly 1"
  | .two => "exactly 2"
  | .oneOrTwo => "1 or 2"
  | .atLeastOne => "at least 1"

def EvalError.message : EvalError → String
  | .invalid offset fault => s!"syntax error at offset {offset}: {fault.message}"
  | .unknownIdentifier name => s!"unknown identifier '{name}'"
  | .unknownFunction name => s!"unknown function '{name}'"
  | .arity function expected got =>
    s!"{function}() takes {expected.describe} argument(s), got {got}"
  | .typeMismatch fault => s!"type mismatch: {fault.message}"
  | .divisionByZero => "division by zero"
  | .overflow => "integer overflow"
  | .lookup fault => fault.message
  | .doubleUnderscore source => s!"expressions may not contain double underscores: '{source}'"

end LaunchFile.Expr
