import LaunchFile.Text.Blank
import LaunchFile.Text.Utf8
import LaunchFile.Expr.Error

/-!
# Expr/Lexer — the tokens of a source text

Each token is the longest one at its place, except that `.` starts a number only before a digit and
`e` continues one only before digits. Blanks separate tokens and are no tokens.
-/

namespace LaunchFile.Expr

/-! ## Lexemes

The scanners below get the characters from the lexeme's start or just past its first character and
say how many they take. -/

/-- The value of a string literal and the length of its rest, closing quote included; none when the
quote is missing. A backslash takes the next character as it is, but for `n` and `t`. -/
def scanString? (quote : Char) : List Char → Option (List Char × Nat)
  | [] => none
  | ['\\'] => none
  | '\\' :: c :: cs =>
    (scanString? quote cs).map fun (value, length) =>
      ((if c == 'n' then '\n' else if c == 't' then '\t' else c) :: value, length + 2)
  | c :: cs =>
    if c == quote then some ([], 1)
    else (scanString? quote cs).map fun (value, length) => (c :: value, length + 1)

/-- The sign of an exponent, if one stands there, and what follows it. -/
def exponentSign : List Char → List Char × List Char
  | '+' :: cs => (['+'], cs)
  | '-' :: cs => (['-'], cs)
  | cs => ([], cs)

/-- The exponent of a number: `e`, an optional sign and at least one digit, or nothing. -/
def scanExponent : List Char → List Char
  | [] => []
  | c :: cs =>
    if c == 'e' || c == 'E' then
      let (sign, rest) := exponentSign cs
      let digits := rest.takeWhile Char.isDigit
      if digits.isEmpty then [] else 'e' :: sign ++ digits
    else []

/-- The point of a number with the digits after it, or nothing. -/
def scanFraction : List Char → List Char
  | '.' :: cs => '.' :: cs.takeWhile Char.isDigit
  | _ => []

/-- The number at the start of the text and the length of its lexeme; with a point or an exponent
it is a float. -/
def scanNumber (cs : List Char) : Except SyntaxFault (TokenKind × Nat) :=
  let whole := cs.takeWhile Char.isDigit
  let fraction := scanFraction (cs.drop whole.length)
  let exponent := scanExponent (cs.drop (whole.length + fraction.length))
  let text := whole ++ fraction ++ exponent
  if fraction.isEmpty && exponent.isEmpty then
    match Decimal.readInt64? text with
    | some n => .ok (.int n, text.length)
    | none => .error (.integerOutOfRange (String.ofList text))
  else match Decimal.readFloat? text with
    | some x => .ok (.float x, text.length)
    | none => .error (.invalidNumber (String.ofList text))

def isIdentStart (c : Char) : Bool :=
  Text.isAlphabetic c || c == '_'

def isIdentRest (c : Char) : Bool :=
  Text.isAlphanumeric c || c == '_'

/-- The operator that begins with `c`, followed by `next`, and its length. -/
def operator? (c : Char) (next : Option Char) : Option (TokenKind × Nat) :=
  match c with
  | '+' => some (.plus, 1)
  | '-' => some (.minus, 1)
  | '*' => some (if next == some '*' then (.doubleStar, 2) else (.star, 1))
  | '/' => some (if next == some '/' then (.doubleSlash, 2) else (.slash, 1))
  | '%' => some (.percent, 1)
  | '=' => if next == some '=' then some (.eqEq, 2) else none
  | '!' => if next == some '=' then some (.notEq, 2) else none
  | '<' => some (if next == some '=' then (.le, 2) else (.lt, 1))
  | '>' => some (if next == some '=' then (.ge, 2) else (.gt, 1))
  | '(' => some (.leftParen, 1)
  | ')' => some (.rightParen, 1)
  | ',' => some (.comma, 1)
  | _ => none

/-- The token that begins with the character `c`, which is no blank, and its length. -/
def scanToken (c : Char) (cs : List Char) : Except SyntaxFault (TokenKind × Nat) :=
  match operator? c cs.head? with
  | some found => .ok found
  | none =>
    if c == '\'' || c == '"' then
      match scanString? c cs with
      | some (value, length) => .ok (.str (String.ofList value), length + 1)
      | none => .error .unterminatedString
    else if c.isDigit || (c == '.' && cs.head?.any Char.isDigit) then scanNumber (c :: cs)
    else if isIdentStart c then
      let name := c :: cs.takeWhile isIdentRest
      .ok (.ident (String.ofList name), name.length)
    else .error (.unexpectedCharacter c)

/-! ## The whole source -/

/-- The tokens of `cs`, whose first character has the given offset. -/
def tokenizeFrom (offset : Nat) : List Char → Except EvalError (List Token)
  | [] => .ok [⟨.stop, offset⟩]
  | c :: cs =>
    if Text.isBlank c then tokenizeFrom (offset + c.utf8Size) cs
    else match scanToken c cs with
      | .error fault => .error (.invalid offset fault)
      | .ok (kind, length) =>
        let taken := c :: cs.take (length - 1)
        match tokenizeFrom (offset + Text.Utf8.byteLength taken) (cs.drop (length - 1)) with
        | .error e => .error e
        | .ok tokens => .ok (⟨kind, offset⟩ :: tokens)
termination_by cs => cs.length

/-- The tokens of a source text, with `stop` at the end. -/
def tokenize (source : String) : Except EvalError (List Token) :=
  tokenizeFrom 0 source.toList

end LaunchFile.Expr
