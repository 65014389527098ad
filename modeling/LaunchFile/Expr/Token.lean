import LaunchFile.Text.Quoted
import LaunchFile.Decimal.Layout

/-!
# Expr/Token — the words of the expression language

A token is a kind and the byte offset of its first character. A row of tokens ends with one of kind
`stop`, whose offset is the length of the source. Keywords are identifiers at this level.
-/

namespace LaunchFile.Expr

inductive TokenKind where
  | int (value : Int64)
  | float (value : Float)
  | str (value : String)
  | ident (name : String)
  | plus
  | minus
  | star
  | doubleStar
  | slash
  | doubleSlash
  | percent
  | eqEq
  | notEq
  | lt
  | le
  | gt
  | ge
  | leftParen
  | rightParen
  | comma
  | stop
  deriving Inhabited

structure Token where
  kind : TokenKind
  offset : Nat
  deriving Inhabited

/-- Floats in messages: an exponent outside `10 ^ -4 ≤ |x| < 10 ^ 16`. -/
def messageLayout : Decimal.Layout :=
  ⟨some (-4), some 16, false, .up, "NaN", "inf", "-inf"⟩

/-- How a message names a token. -/
def TokenKind.describe : TokenKind → String
  | .int n => s!"Int({Decimal.ofInt64 n})"
  | .float x => s!"Float({messageLayout.write x})"
  | .str s => s!"Str({Text.quoted s})"
  | .ident name => s!"Ident({Text.quoted name})"
  | .plus => "Plus"
  | .minus => "Minus"
  | .star => "Star"
  | .doubleStar => "DoubleStar"
  | .slash => "Slash"
  | .doubleSlash => "DoubleSlash"
  | .percent => "Percent"
  | .eqEq => "EqEq"
  | .notEq => "NotEq"
  | .lt => "Lt"
  | .le => "Le"
  | .gt => "Gt"
  | .ge => "Ge"
  | .leftParen => "LParen"
  | .rightParen => "RParen"
  | .comma => "Comma"
  | .stop => "End"

end LaunchFile.Expr
