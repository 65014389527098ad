/-!
# Yaml/Char — the character classes of YAML 1.1

Line breaks are more than line feeds here, and only printable characters may stand in a stream.
-/

namespace LaunchFile.Yaml

def isPrintable (c : Char) : Bool :=
  let n := c.toNat
  n == 0x09 || n == 0x0A || n == 0x0D || (0x20 ≤ n && n ≤ 0x7E) || n == 0x85 ||
  (0xA0 ≤ n && n ≤ 0xD7FF) || (0xE000 ≤ n && n ≤ 0xFFFD) || 0x10000 ≤ n

/-- Spaces and tabs, which separate but do not end a line. -/
def isBlank (c : Char) : Bool :=
  c == ' ' || c == '\t'

/-- Line feed, carriage return, next line, and the separators of lines and paragraphs. -/
def isBreak (c : Char) : Bool :=
  c == '\n' || c == '\r' || c.toNat == 0x85 || c.toNat == 0x2028 || c.toNat == 0x2029

/-- Letters, digits, underscores and dashes, all ASCII. -/
def isWord (c : Char) : Bool :=
  c.isAlphanum || c == '_' || c == '-'

/-- A break, or the end. -/
def isBreakOrEnd : Option Char → Bool
  | none => true
  | some c => isBreak c

/-- A blank, a break, or the end. -/
def isGap : Option Char → Bool
  | none => true
  | some c => isBlank c || isBreak c

/-- Brackets and commas, which have a meaning inside of flow collections. -/
def isFlowMark (c : Char) : Bool :=
  c == ',' || c == '[' || c == ']' || c == '\x7b' || c == '\x7d'

/-- Characters that begin no plain scalar. -/
def isIndicator (c : Char) : Bool :=
  isFlowMark c || c == '-' || c == '?' || c == ':' || c == '#' || c == '&' || c == '*' ||
  c == '!' || c == '|' || c == '>' || c == '\'' || c == '"' || c == '%' || c == '@' ||
  c == '\x60'

def isHexDigit (c : Char) : Bool :=
  c.isDigit || ('a' ≤ c && c ≤ 'f') || ('A' ≤ c && c ≤ 'F')

def hexDigit (c : Char) : Nat :=
  if c.isDigit then c.toNat - '0'.toNat else c.toLower.toNat - 'a'.toNat + 10

def hexValue (cs : List Char) : Nat :=
  cs.foldl (fun n c => 16 * n + hexDigit c) 0

end LaunchFile.Yaml
