import LaunchFile.Decimal.Integer
import LaunchFile.Text.Search
import LaunchFile.Xml.Char

/-!
# Xml/Token — a document as a row of tags and texts

Reading stops at the first place where the document is not well-formed. References are resolved
and line ends are made single line feeds here; how tags pair up is no matter of tokens. A document
type declaration is refused, so that only the predefined entities exist.
-/

namespace LaunchFile.Xml

/-! ## Places -/

/-- A line and a column, from one on. -/
structure Place where
  line : Nat
  column : Nat
  deriving DecidableEq, Repr, Inhabited

def Place.start : Place := ⟨1, 1⟩

/-- The place behind a character; a line break begins a new line. -/
def Place.pass (p : Place) (c : Char) : Place :=
  if c == '\n' then ⟨p.line + 1, 1⟩ else ⟨p.line, p.column + 1⟩

/-- What is left to read, and where it begins. -/
structure Cursor where
  rest : List Char
  place : Place

/-- A reading step: its result, or the place where it fails. -/
abbrev Scan (α : Type) := Except Place α

namespace Cursor

/-- Go on by some characters. -/
def advance : Nat → Cursor → Cursor
  | 0, k => k
  | n + 1, k =>
    match k.rest with
    | [] => k
    | c :: cs => advance n ⟨cs, k.place.pass c⟩

/-- Whether a word stands next. -/
def startsWith (k : Cursor) (word : String) : Bool :=
  word.toList.isPrefixOf k.rest

/-- Pass a word that has to stand here. -/
def expect (k : Cursor) (word : String) : Scan Cursor :=
  if k.startsWith word then .ok (k.advance word.length) else .error k.place

/-- The characters at the front that are of a kind, and the cursor behind them. -/
def takeWhile (p : Char → Bool) (k : Cursor) : List Char × Cursor :=
  let taken := k.rest.takeWhile p
  (taken, k.advance taken.length)

/-- Whether white space comes next. -/
def atSpace (k : Cursor) : Bool :=
  k.rest.head?.any isSpace

/-- Go on over white space. -/
def skipSpaces (k : Cursor) : Cursor :=
  (k.takeWhile isSpace).2

/-- The characters up to the place where `stop` holds of the rest, or to the end. -/
def takeUntil (stop : List Char → Bool) (k : Cursor) : Scan (List Char × Cursor) :=
  go k.rest k.place
where
  go : List Char → Place → Scan (List Char × Cursor)
    | [], place => .ok ([], ⟨[], place⟩)
    | c :: cs, place =>
      if !isChar c then .error place
      else if stop (c :: cs) then .ok ([], ⟨c :: cs, place⟩)
      else do
        let (taken, k) ← go cs (place.pass c)
        .ok (c :: taken, k)

/-- The characters before a word that has to come, and the cursor behind it. -/
def takeThrough (word : String) (k : Cursor) : Scan (List Char × Cursor) := do
  let (taken, k) ← k.takeUntil fun rest => word.toList.isPrefixOf rest
  .ok (taken, ← k.expect word)

end Cursor

/-! ## Names -/

/-- A name with the prefix that stands for its namespace, which may be empty. -/
structure QName where
  scope : String
  label : String
  deriving DecidableEq, Repr, Inhabited

/-- Whether a name begins here. -/
def beginsName (cs : List Char) : Bool :=
  cs.head?.any isNameStart

/-- A name before and behind its first colon. -/
def splitColon (cs : List Char) : List Char × List Char :=
  match cs.dropWhile (· != ':') with
  | [] => ([], cs)
  | _ :: label => (cs.takeWhile (· != ':'), label)

/-- A name with at most one colon. -/
def qname (k : Cursor) : Scan (QName × Cursor) :=
  let (name, after) := k.takeWhile isNameChar
  let (scope, label) := splitColon name
  if name.count ':' > 1 || !beginsName label || !(scope.isEmpty || beginsName scope) then
    .error k.place
  else .ok (⟨String.ofList scope, String.ofList label⟩, after)

/-! ## References -/

/-- The code point that a character reference names; a number that is no character stands for the
replacement character, and one that no document may hold is refused. -/
def referenced? (n : Nat) : Option Char :=
  if n ≥ Nat.pow 2 32 then none
  else
    let c := if h : n.isValidChar then Char.ofNatAux n h else Char.ofNat 0xFFFD
    if isChar c then some c else none

/-- The value of hexadecimal digits. -/
def hexValue (cs : List Char) : Nat :=
  cs.foldl (fun n c =>
    16 * n + (if c.isDigit then c.toNat - '0'.toNat else c.toLower.toNat - 'a'.toNat + 10)) 0

/-- Whether a character is a hexadecimal digit. -/
def isHexDigit (c : Char) : Bool :=
  c.isDigit || ('a' ≤ c && c ≤ 'f') || ('A' ≤ c && c ≤ 'F')

/-- The character with this number, if a document may hold it. -/
def numbered? (digits : List Char) (value : List Char → Nat) : Option Char :=
  if digits.isEmpty then none else referenced? (value digits)

/-- The character that an entity names. -/
def entity? (name : List Char) : Option Char :=
  match String.ofList name with
  | "lt" => some '<'
  | "gt" => some '>'
  | "amp" => some '&'
  | "quot" => some '"'
  | "apos" => some '\''
  | _ => none

/-- The character of a reference whose `&` is passed already, and what follows its semicolon. -/
def reference? (cs : List Char) : Option (Char × List Char) :=
  let closed (c : Option Char) (rest : List Char) : Option (Char × List Char) :=
    match c, rest with
    | some c, ';' :: rest => some (c, rest)
    | _, _ => none
  match cs with
  | '#' :: 'x' :: cs =>
    let digits := cs.takeWhile isHexDigit
    closed (numbered? digits hexValue) (cs.drop digits.length)
  | '#' :: cs =>
    let digits := cs.takeWhile Char.isDigit
    closed (numbered? digits Decimal.digitsValue) (cs.drop digits.length)
  | cs =>
    let name := cs.takeWhile isNameChar
    closed (entity? name) (cs.drop name.length)

/-! ## Attribute values and texts -/

/-- Resolve references in an attribute value; white space becomes plain spaces, a line end one. The
first argument bounds the number of turns. -/
def attributeValue? : Nat → List Char → Option (List Char)
  | 0, _ => some []
  | _, [] => some []
  | turns + 1, '&' :: cs => do
    let (c, rest) ← reference? cs
    return c :: (← attributeValue? turns rest)
  | turns + 1, '\r' :: '\n' :: cs => attributeValue? turns ('\n' :: cs)
  | turns + 1, c :: cs => do
    return (if isSpace c then ' ' else c) :: (← attributeValue? turns cs)

/-- Put a character of text behind those collected, last one first. A carriage return becomes a
line feed once it is clear that none follows it, or at the end of the text. -/
def pushText (atEnd : Bool) (c : Char) : List Char → List Char
  | '\r' :: before =>
    if atEnd && c == '\r' then '\n' :: '\n' :: before
    else if c == '\n' then '\n' :: before
    else c :: '\n' :: before
  | before => if atEnd && c == '\r' then '\n' :: before else c :: before

/-- Resolve references and line ends in a text. The character of a reference and the one behind it
are taken as they are. -/
def textValue? : Nat → Bool → List Char → List Char → Option (List Char)
  | 0, _, out, _ => some out.reverse
  | _, _, out, [] => some out.reverse
  | turns + 1, _, out, '&' :: cs => do
    let (c, rest) ← reference? cs
    textValue? turns true (c :: out) rest
  | turns + 1, true, out, c :: cs => textValue? turns false (c :: out) cs
  | turns + 1, false, out, c :: cs => textValue? turns false (pushText cs.isEmpty c out) cs

/-- Line ends in a text without references. -/
def plainText : List Char → List Char → List Char
  | out, [] => out.reverse
  | out, c :: cs => plainText (pushText cs.isEmpty c out) cs

/-! ## Tokens -/

/-- An attribute with its name and its value. -/
structure Attribute where
  name : QName
  value : String
  deriving DecidableEq, Repr, Inhabited

/-- A part of a document: a tag, some text, or what counts for nothing. -/
inductive Token where
  | openTag (name : QName) (attributes : List Attribute) (closed : Bool) (place : Place)
  | closeTag (name : QName) (place : Place)
  | text (value : String) (blank : Bool) (place : Place)
  | aside
  deriving Repr, Inhabited

/-- A name, an equals sign and what stands between quotes, as it is written. -/
def readPair (k : Cursor) : Scan (QName × List Char × Cursor) := do
  let (name, k) ← qname k
  let k ← k.skipSpaces.expect "="
  let k := k.skipSpaces
  match k.rest with
  | quote :: _ =>
    if quote == '"' || quote == '\'' then
      let (raw, after) ← (k.advance 1).takeUntil fun rest =>
        rest.head? == some quote || rest.head? == some '<'
      if after.rest.head? != some quote then .error after.place
      else .ok (name, raw, after.advance 1)
    else .error k.place
  | [] => .error k.place

/-- An attribute of an element, its value resolved. -/
def readAttribute (k : Cursor) : Scan (Attribute × Cursor) := do
  let (name, raw, after) ← readPair k
  match attributeValue? raw.length raw with
  | some value => .ok (⟨name, String.ofList value⟩, after)
  | none => .error k.place

/-- The attributes of a tag up to its end, and whether it is closed at once. -/
def readAttributes : Nat → Cursor → Scan (List Attribute × Bool × Cursor)
  | 0, k => .error k.place
  | turns + 1, k =>
    let after := k.skipSpaces
    if after.startsWith "/>" then .ok ([], true, after.advance 2)
    else if after.startsWith ">" then .ok ([], false, after.advance 1)
    else if !k.atSpace then .error k.place
    else do
      let (first, k) ← readAttribute after
      let (others, closed, k) ← readAttributes turns k
      .ok (first :: others, closed, k)

/-- A start tag with its attributes. -/
def openTag (turns : Nat) (k : Cursor) : Scan (Token × Cursor) := do
  let (name, after) ← qname (k.advance 1)
  if name.scope == "xmlns" then .error k.place
  let (found, closed, after) ← readAttributes turns after
  .ok (.openTag name found closed k.place, after)

/-- An end tag. -/
def closeTag (k : Cursor) : Scan (Token × Cursor) := do
  let (name, after) ← qname (k.advance 2)
  let after ← after.skipSpaces.expect ">"
  .ok (.closeTag name k.place, after)

/-- A comment holds no two dashes in a row and does not end with one. -/
def comment (k : Cursor) : Scan (Token × Cursor) := do
  let (text, after) ← (k.advance 4).takeThrough "-->"
  if Text.occurs ['-', '-'] text || text.getLast? == some '-' then .error k.place
  .ok (.aside, after)

/-- A processing instruction; a declaration is none. -/
def instruction (k : Cursor) : Scan (Token × Cursor) := do
  if k.startsWith "<?xml " then .error k.place
  let target := k.advance 2
  if !beginsName target.rest then .error target.place
  let (_, after) := target.takeWhile isNameChar
  let (_, after) ← after.skipSpaces.takeThrough "?>"
  .ok (.aside, after)

/-- Text in which nothing is marked. -/
def cdata (k : Cursor) : Scan (Token × Cursor) := do
  let (raw, after) ← (k.advance 9).takeThrough "]]>"
  .ok (.text (String.ofList (plainText [] raw)) false k.place, after)

/-- Text up to the next mark. -/
def text (k : Cursor) : Scan (Token × Cursor) := do
  let (raw, after) ← k.takeUntil fun rest => rest.head? == some '<'
  if Text.occurs [']', ']', '>'] raw then .error k.place
  match textValue? raw.length false [] raw with
  | some value => .ok (.text (String.ofList value) (raw.all isSpace) k.place, after)
  | none => .error k.place

/-- The next token of a text that is not at its end and has at most so many characters. -/
def token (turns : Nat) (k : Cursor) : Scan (Token × Cursor) :=
  if k.startsWith "<!--" then comment k
  else if k.startsWith "<![CDATA[" then cdata k
  else if k.startsWith "<!" then .error k.place
  else if k.startsWith "<?" then instruction k
  else if k.startsWith "</" then closeTag k
  else if k.startsWith "<" then openTag turns k
  else text k

/-- All tokens; each takes at least one character, so that as many turns as characters suffice. -/
def tokens : Nat → Cursor → Scan (List Token)
  | 0, k => if k.rest.isEmpty then .ok [] else .error k.place
  | turns + 1, k =>
    if k.rest.isEmpty then .ok []
    else do
      let (first, k) ← token (turns + 1) k
      let others ← tokens turns k
      .ok (first :: others)

/-! ## The head of a document -/

/-- White space, unless the declaration ends here. -/
def declarationSpaces (k : Cursor) : Scan Cursor :=
  let after := k.skipSpaces
  if !k.atSpace && !k.startsWith "?>" && !k.rest.isEmpty then .error k.place
  else .ok after

/-- A part of the declaration, if it begins with the given word. Nothing is resolved in it. -/
def declarationPart (word : String) (k : Cursor) : Scan Cursor :=
  if k.startsWith word then (readPair k).map fun (_, _, after) => after else .ok k

/-- The declaration at the very start of a document. -/
def declaration (k : Cursor) : Scan Cursor := do
  let k ← declarationSpaces (k.advance 5)
  if !k.startsWith "version" then .error k.place
  let k ← declarationSpaces (← declarationPart "version" k)
  let k ← if k.startsWith "encoding" then declarationPart "encoding" k >>= declarationSpaces
    else .ok k
  let k ← declarationPart "standalone" k
  k.skipSpaces.expect "?>"

/-- The tokens of a document behind its byte order mark and declaration. -/
def tokenize (source : String) : Scan (List Token) := do
  let k : Cursor := ⟨source.toList, .start⟩
  let k := if k.rest.head? == some (Char.ofNat 0xFEFF) then k.advance 1 else k
  let k ← if k.startsWith "<?xml " then declaration k else .ok k
  tokens k.rest.length k

end LaunchFile.Xml
