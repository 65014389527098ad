/-!
# Xml/Char — the character classes of XML 1.0

A document holds only characters of the class `isChar`; names begin with a character of
`isNameStart` and go on with characters of `isNameChar`.
-/

namespace LaunchFile.Xml

/-- White space between the parts of markup: four ASCII characters. -/
def isSpace (c : Char) : Bool :=
  c == ' ' || c == '\t' || c == '\n' || c == '\r'

def isChar (c : Char) : Bool :=
  if c.toNat < 0x20 then isSpace c else !(c.toNat == 0xFFFE || c.toNat == 0xFFFF)

def between (low high : Nat) (c : Char) : Bool :=
  low ≤ c.toNat && c.toNat ≤ high

def isNameStart (c : Char) : Bool :=
  if c.toNat ≤ 0x80 then c.isAlpha || c == ':' || c == '_'
  else
    between 0xC0 0xD6 c || between 0xD8 0xF6 c || between 0xF8 0x2FF c || between 0x370 0x37D c ||
    between 0x37F 0x1FFF c || between 0x200C 0x200D c || between 0x2070 0x218F c ||
    between 0x2C00 0x2FEF c || between 0x3001 0xD7FF c || between 0xF900 0xFDCF c ||
    between 0xFDF0 0xFFFD c || between 0x10000 0xEFFFF c

def isNameChar (c : Char) : Bool :=
  isNameStart c || c.isDigit || c == '-' || c == '.' || c.toNat == 0xB7 ||
  between 0x300 0x36F c || between 0x203F 0x2040 c

end LaunchFile.Xml
