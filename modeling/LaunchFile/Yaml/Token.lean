import LaunchFile.Text.Utf8
import LaunchFile.Yaml.Char

/-!
# Yaml/Token — a stream as a row of tokens

Indentation becomes tokens of its own: a block collection begins where the column grows and ends
where it shrinks. Whether a scalar is a key shows only at the colon behind it, so that the tokens
for the key and for the mapping are put in before it afterwards; a key lies on one line and is at
most 1024 bytes long.
-/

namespace LaunchFile.Yaml

/-- The address of a tag. Its escapes spell bytes, which need not be text. -/
abbrev Tag := List UInt8

/-- A tag as it is written: a handle, which directives expand, and a suffix. -/
structure TagText where
  handle : List Char
  suffix : Tag
  deriving DecidableEq, Repr

/-- What a scanner finds: marks of structure, properties of nodes, and scalars. -/
inductive Token where
  | versionDirective (major minor : Nat)
  | tagDirective (handle : List Char) (start : Tag)
  | documentStart
  | documentEnd
  | blockSequenceStart
  | blockMappingStart
  | blockEnd
  | flowSequenceStart
  | flowSequenceEnd
  | flowMappingStart
  | flowMappingEnd
  | blockEntry
  | flowEntry
  | key
  | value
  | alias (name : List Char)
  | anchor (name : List Char)
  | tag (tag : TagText)
  | scalar (text : List Char) (plain : Bool)
  | streamEnd
  deriving DecidableEq, Repr, Inhabited

/-- The tag that is nothing but its mark. -/
def loneMark : Tag := ['!'.toUInt8]

def byteOrderMark : Char := Char.ofNat 0xFEFF

/-! ## The state of the scanner -/

/-- A place where a key may have begun: the number of its first token and where that is, `index`
counting bytes and `column` characters. A required key is one that has to be a key, standing at the
indentation of its block. -/
structure KeyPlace where
  required : Bool
  number : Nat
  index : Nat
  line : Nat
  column : Nat
  deriving Repr

/-- Characters left, the place of the first of them, the tokens so far, the possible keys (of the
innermost flow collection, and of those around it), the indentations, and whether a key may begin
here. -/
structure Scanner where
  rest : List Char
  index : Nat
  line : Nat
  column : Nat
  tokens : Array Token
  keyPlace : Option KeyPlace
  outerPlaces : List (Option KeyPlace)
  indent : Int
  outerIndents : List Int
  keyAllowed : Bool

namespace Scanner

/-- A scanner at the start of a text, with no block open. -/
def start (text : List Char) : Scanner :=
  ⟨text, 0, 0, 0, #[], none, [], -1, [], true⟩

/-- The next character. -/
def peek (s : Scanner) : Option Char :=
  s.rest.head?

/-- The character some places further on. -/
def peekAt (s : Scanner) (n : Nat) : Option Char :=
  s.rest[n]?

/-- Whether some brackets or braces are open. -/
def inFlow (s : Scanner) : Bool :=
  !s.outerPlaces.isEmpty

/-- Pass characters that are no breaks. -/
def skip (s : Scanner) (n : Nat) : Scanner :=
  { s with
    rest := s.rest.drop n
    index := s.index + Text.Utf8.byteLength (s.rest.take n)
    column := s.column + n }

/-- The characters at the front that are of a kind, and the scanner behind them. -/
def takeWhile (s : Scanner) (p : Char → Bool) : List Char × Scanner :=
  let taken := s.rest.takeWhile p
  (taken, s.skip taken.length)

/-- Go on over characters of a kind. -/
def skipWhile (s : Scanner) (p : Char → Bool) : Scanner :=
  (s.takeWhile p).2

/-- Pass a line break, if one is here, and say how it counts in a text. -/
def readBreak (s : Scanner) : List Char × Scanner :=
  let pass (n : Nat) : Scanner := { s.skip n with line := s.line + 1, column := 0 }
  match s.rest with
  | '\r' :: '\n' :: _ => (['\n'], pass 2)
  | c :: _ =>
    if !isBreak c then ([], s)
    else if c.toNat == 0x2028 || c.toNat == 0x2029 then ([c], pass 1)
    else (['\n'], pass 1)
  | [] => ([], s)

/-- Go on over a line break, which may be two characters. -/
def skipBreak (s : Scanner) : Scanner :=
  s.readBreak.2

/-- Go on to the end of the line. -/
def skipLineRest (s : Scanner) : Scanner :=
  s.skipWhile (! isBreak ·)

/-- Put a token behind those found so far. -/
def push (s : Scanner) (t : Token) : Scanner :=
  { s with tokens := s.tokens.push t }

/-- Whether a document mark (`---` or `...`) stands at the start of this line. -/
def atDocumentMark (s : Scanner) : Bool :=
  s.column == 0 && (['-', '-', '-'].isPrefixOf s.rest || ['.', '.', '.'].isPrefixOf s.rest) &&
    isGap (s.peekAt 3)

/-! ## Keys and indentation -/

/-- Give up the possible key here; one that was required is missed. -/
def dropKey? (s : Scanner) : Option Scanner :=
  match s.keyPlace with
  | some k => if k.required then none else some { s with keyPlace := none }
  | none => some s

/-- Remember that a key may begin here. -/
def saveKey? (s : Scanner) : Option Scanner :=
  if s.keyAllowed then do
    let s ← s.dropKey?
    let required := !s.inFlow && s.indent == (s.column : Int)
    return { s with keyPlace := some ⟨required, s.tokens.size, s.index, s.line, s.column⟩ }
  else some s

/-- Whether a place is too far back for a key to begin at: on another line, or too many characters
ago. -/
def isStale (s : Scanner) (k : KeyPlace) : Bool :=
  k.line < s.line || k.index + 1024 < s.index

/-- Whether a required key has gone by. -/
def missesKey (s : Scanner) (place : Option KeyPlace) : Bool :=
  match place with
  | some k => k.required && s.isStale k
  | none => false

/-- A place for a key, if it is not stale. -/
def freshPlace (s : Scanner) (place : Option KeyPlace) : Option KeyPlace :=
  place.filter (! s.isStale ·)

/-- Give up the keys that can no longer be keys. -/
def dropStale? (s : Scanner) : Option Scanner :=
  if s.missesKey s.keyPlace || s.outerPlaces.any s.missesKey then none
  else some
    { s with keyPlace := s.freshPlace s.keyPlace, outerPlaces := s.outerPlaces.map s.freshPlace }

/-- Begin a block collection if the column is deeper than the block; its token is put in front of
token number `number`. -/
def rollIndent (s : Scanner) (column number : Nat) (t : Token) : Scanner :=
  if s.inFlow || (column : Int) ≤ s.indent then s
  else
    { s with
      outerIndents := s.indent :: s.outerIndents
      indent := column
      tokens := s.tokens.insertIdxIfInBounds number t }

/-- End the block collections that are deeper than the column. -/
def unrollIndent (s : Scanner) (column : Int) : Scanner :=
  if s.inFlow then s else go s s.outerIndents
where
  go (s : Scanner) : List Int → Scanner
    | [] => s
    | outer :: rest =>
      if s.indent > column then
        go { s with indent := outer, outerIndents := rest, tokens := s.tokens.push .blockEnd } rest
      else s

/-! ## Blank space between tokens -/

/-- Pass blanks, comments and breaks. Tabs are blank only where no key may begin. A byte order mark
at the start of a line is passed too, but takes up the first column. -/
def toNextToken : Nat → Scanner → Scanner
  | 0, s => s
  | turns + 1, s =>
    let s := if s.column == 0 && s.peek == some byteOrderMark then s.skip 1 else s
    let s := s.skipWhile fun c => c == ' ' || (c == '\t' && (s.inFlow || !s.keyAllowed))
    let s := if s.peek == some '#' then s.skipLineRest else s
    if s.peek.any isBreak then
      let s := s.skipBreak
      toNextToken turns (if s.inFlow then s else { s with keyAllowed := true })
    else s

/-! ## Directives, anchors and tags -/

/-- A number in a version. -/
def number? (s : Scanner) : Option (Nat × Scanner) :=
  let (digits, s) := s.takeWhile Char.isDigit
  if digits.isEmpty || digits.length > 9 then none
  else some (digits.foldl (fun n c => 10 * n + (c.toNat - '0'.toNat)) 0, s)

/-- The version that a text says it is written in. -/
def versionDirective? (s : Scanner) : Option Scanner := do
  let (major, s) ← (s.skipWhile isBlank).number?
  if s.peek != some '.' then none
  let (minor, s) ← (s.skip 1).number?
  return s.push (.versionDirective major minor)

/-- How many bytes a character has whose first byte this is; zero when no character begins so. Only
the leading bits count. -/
def tagCharWidth (first : UInt8) : Nat :=
  if first < 0x80 then 1
  else if 0xC0 ≤ first && first < 0xE0 then 2
  else if 0xE0 ≤ first && first < 0xF0 then 3
  else if 0xF0 ≤ first && first < 0xF8 then 4
  else 0

/-- A byte in hexadecimal. -/
def escapedByte? (s : Scanner) : Option UInt8 :=
  match s.rest with
  | '%' :: a :: b :: _ =>
    if isHexDigit a && isHexDigit b then some (UInt8.ofNat (hexValue [a, b])) else none
  | _ => none

/-- One escaped character of a tag: bytes in hexadecimal, as many as its first byte says. -/
def escapedTagChar? (s : Scanner) : Option (Tag × Scanner) := do
  let first ← s.escapedByte?
  let width := tagCharWidth first
  if width == 0 then none
  let bytes ← (List.range width).mapM fun i => (s.skip (3 * i)).escapedByte?
  if !(bytes.drop 1).all Text.Utf8.isContinuation then none
  return (bytes, s.skip (3 * width))

/-- What may stand in a tag; a verbatim one may hold more. -/
def isTagChar (verbatim : Bool) (c : Char) : Bool :=
  isWord c || c == ';' || c == '/' || c == '?' || c == ':' || c == '@' || c == '&' || c == '=' ||
  c == '+' || c == '$' || c == '.' || c == '%' || c == '!' || c == '~' || c == '*' || c == '\'' ||
  c == '(' || c == ')' || (verbatim && (c == ',' || c == '[' || c == ']'))

/-- The bytes of a tag's address, escapes resolved, behind those in `out`. -/
def tagBytes? (verbatim : Bool) : Nat → Tag → Scanner → Option (Tag × Scanner)
  | 0, out, s => some (out.reverse, s)
  | turns + 1, out, s =>
    match s.peek with
    | some '%' => do
      let (bytes, s) ← s.escapedTagChar?
      tagBytes? verbatim turns (bytes.reverse ++ out) s
    | some c =>
      if isTagChar verbatim c then tagBytes? verbatim turns (c.toUInt8 :: out) (s.skip 1)
      else some (out.reverse, s)
    | none => some (out.reverse, s)

/-- An address of at least one character, `head` included; the mark at the start of `head` is no
part of it. The address ends before its first null byte, whatever is written behind that. -/
def tagAddress? (s : Scanner) (verbatim : Bool) (head : List Char) : Option (Tag × Scanner) := do
  let (taken, after) ← tagBytes? verbatim s.rest.length [] s
  if head.isEmpty && taken.isEmpty then none
  return (((head.drop 1).map Char.toUInt8 ++ taken).takeWhile (· != 0), after)

/-- A handle: a mark, a word, and perhaps a second mark. -/
def tagHandle? (s : Scanner) : Option (List Char × Scanner) :=
  if s.peek != some '!' then none
  else
    let (word, s) := (s.skip 1).takeWhile isWord
    if s.peek == some '!' then some ('!' :: word ++ ['!'], s.skip 1) else some ('!' :: word, s)

/-- A short form for tags, and what it is short for. -/
def tagDirective? (s : Scanner) : Option Scanner := do
  let (handle, s) ← (s.skipWhile isBlank).tagHandle?
  if handle != ['!'] && (handle.getLast? != some '!') then none
  if !s.peek.any isBlank then none
  let (start, s) ← (s.skipWhile isBlank).tagAddress? true []
  if !isGap s.peek then none
  return s.push (.tagDirective handle start)

/-- The rest of a line that holds nothing more than a comment. -/
def endLine? (s : Scanner) : Option Scanner :=
  let s := s.skipWhile isBlank
  let s := if s.peek == some '#' then s.skipLineRest else s
  if isBreakOrEnd s.peek then some s.skipBreak else none

/-- A directive, which takes a line of its own. -/
def directive? (s : Scanner) : Option Scanner := do
  let s ← (s.unrollIndent (-1)).dropKey?
  let (name, s) := ({ s with keyAllowed := false }.skip 1).takeWhile isWord
  if name.isEmpty || !isGap s.peek then none
  let s ← if name == ['Y', 'A', 'M', 'L'] then s.versionDirective?
    else if name == ['T', 'A', 'G'] then s.tagDirective?
    else none
  s.endLine?

/-- A mark that begins or ends a document. -/
def documentMark? (s : Scanner) (t : Token) : Option Scanner := do
  let s ← (s.unrollIndent (-1)).dropKey?
  return ({ s with keyAllowed := false }.skip 3).push t

/-- An anchor or an alias: a word behind its mark. -/
def anchor? (s : Scanner) (t : List Char → Token) : Option Scanner := do
  let s ← s.saveKey?
  let (name, s) := ({ s with keyAllowed := false }.skip 1).takeWhile isWord
  let ends := isGap s.peek || s.peek.any fun c =>
    ['?', ':', ',', ']', '\x7d', '%', '@', '\x60'].contains c
  if name.isEmpty || !ends then none
  return s.push (t name)

/-- A tag behind its exclamation mark. -/
def tagText? (s : Scanner) : Option (TagText × Scanner) :=
  if s.peekAt 1 == some '<' then do
    let (suffix, s) ← (s.skip 2).tagAddress? true []
    if s.peek != some '>' then none
    return (⟨[], suffix⟩, s.skip 1)
  else do
    let (handle, s) ← s.tagHandle?
    if handle.length > 1 && handle.getLast? == some '!' then
      let (suffix, s) ← s.tagAddress? false []
      return (⟨handle, suffix⟩, s)
    else
      let (suffix, s) ← s.tagAddress? false handle
      return (if suffix.isEmpty then ⟨[], loneMark⟩ else ⟨['!'], suffix⟩, s)

/-- A tag as a property of the node behind it. -/
def tag? (s : Scanner) : Option Scanner := do
  let s ← s.saveKey?
  let (tag, s) ← { s with keyAllowed := false }.tagText?
  if !isGap s.peek && !(s.inFlow && s.peek == some ',') then none
  return s.push (.tag tag)

/-! ## Collections -/

/-- An opening bracket or brace, at which a key may begin. -/
def flowStart? (s : Scanner) (t : Token) : Option Scanner := do
  let s ← s.saveKey?
  return ({ s with
    keyPlace := none
    outerPlaces := s.keyPlace :: s.outerPlaces
    keyAllowed := true }.skip 1).push t

/-- A closing bracket or brace. -/
def flowEnd? (s : Scanner) (t : Token) : Option Scanner := do
  let s ← s.dropKey?
  let s := match s.outerPlaces with
    | [] => s
    | place :: outer => { s with keyPlace := place, outerPlaces := outer }
  return ({ s with keyAllowed := false }.skip 1).push t

/-- A comma. -/
def flowEntry? (s : Scanner) : Option Scanner := do
  let s ← s.dropKey?
  return ({ s with keyAllowed := true }.skip 1).push .flowEntry

/-- A dash, which opens a block or goes on with one. -/
def blockEntry? (s : Scanner) : Option Scanner := do
  if !s.inFlow && !s.keyAllowed then none
  let s ← (s.rollIndent s.column s.tokens.size .blockSequenceStart).dropKey?
  return ({ s with keyAllowed := true }.skip 1).push .blockEntry

/-- A question mark before a key. -/
def key? (s : Scanner) : Option Scanner := do
  if !s.inFlow && !s.keyAllowed then none
  let s ← (s.rollIndent s.column s.tokens.size .blockMappingStart).dropKey?
  return ({ s with keyAllowed := !s.inFlow }.skip 1).push .key

/-- A colon behind a key, or before a value without one. -/
def value? (s : Scanner) : Option Scanner :=
  match s.keyPlace with
  | some k =>
    let s := { s with tokens := s.tokens.insertIdxIfInBounds k.number .key }
    let s := s.rollIndent k.column k.number .blockMappingStart
    some (({ s with keyPlace := none, keyAllowed := false }.skip 1).push .value)
  | none =>
    if !s.inFlow && !s.keyAllowed then none
    else
      let s := s.rollIndent s.column s.tokens.size .blockMappingStart
      some (({ s with keyAllowed := !s.inFlow }.skip 1).push .value)

/-! ## Scalars of one or more lines -/

/-- Blank space inside a scalar: on one line its blanks, over lines the first break and the others.
-/
structure Spacing where
  overLines : Bool
  blanks : List Char
  first : List Char
  others : List Char

def Spacing.none : Spacing := ⟨false, [], [], []⟩

/-- What breaks count for: a single one is a space, of several the first counts for nothing. -/
def folded (first others : List Char) : List Char :=
  if first == ['\n'] then (if others.isEmpty then [' '] else others) else first ++ others

/-- The characters that spacing stands for when a scalar goes on behind it. -/
def Spacing.text (b : Spacing) : List Char :=
  if b.overLines then folded b.first b.others else b.blanks

/-- Pass blanks and breaks. Inside a block, a tab before the column `limit` is an error. -/
def spacing? (limit : Int) : Nat → Spacing → Scanner → Option (Spacing × Scanner)
  | 0, b, s => some (b, s)
  | turns + 1, b, s =>
    match s.peek with
    | some c =>
      if isBlank c then
        if b.overLines then
          if (s.column : Int) < limit && c == '\t' then Option.none
          else spacing? limit turns b (s.skip 1)
        else spacing? limit turns { b with blanks := b.blanks ++ [c] } (s.skip 1)
      else if isBreak c then
        let (text, s) := s.readBreak
        if b.overLines then spacing? limit turns { b with others := b.others ++ text } s
        else spacing? limit turns { b with overLines := true, blanks := [], first := text } s
      else some (b, s)
    | Option.none => some (b, s)

/-! ## Plain scalars -/

/-- The characters of a plain scalar up to the next blank, break or mark, behind those in `out`. -/
def plainRun? : Nat → List Char → Scanner → Option (List Char × Scanner)
  | 0, out, s => some (out, s)
  | turns + 1, out, s =>
    match s.rest with
    | [] => some (out, s)
    | c :: rest =>
      let next := rest.head?
      if isGap (some c) then some (out, s)
      else if s.inFlow && c == ':' && next.any (fun d => isFlowMark d || d == '?') then none
      else if (c == ':' && isGap next) || (s.inFlow && isFlowMark c) then some (out, s)
      else plainRun? turns (c :: out) (s.skip 1)

/-- The text of a plain scalar, line by line. -/
def plainText? : Nat → List Char → Spacing → Scanner → Option (List Char × Scanner)
  | 0, out, _, s => some (out.reverse, s)
  | turns + 1, out, pending, s =>
    let finish (pending : Spacing) (out : List Char) (s : Scanner) :=
      some (out.reverse, if pending.overLines then { s with keyAllowed := true } else s)
    if s.atDocumentMark || s.peek == some '#' then finish pending out s
    else do
      let (run, after) ← plainRun? s.rest.length [] s
      let (out, pending) :=
        if run.isEmpty then (out, pending) else (run ++ pending.text.reverse ++ out, Spacing.none)
      if after.peek.isNone || !isGap after.peek then finish pending out after
      else
        let limit := after.indent + 1
        let (pending, after) ← spacing? limit after.rest.length Spacing.none after
        if !after.inFlow && (after.column : Int) < limit then finish pending out after
        else plainText? turns out pending after

/-- A scalar without quotes. -/
def plainScalar? (s : Scanner) : Option Scanner := do
  let s ← s.saveKey?
  let (text, s) ← plainText? s.rest.length [] Spacing.none { s with keyAllowed := false }
  return s.push (.scalar text true)

/-! ## Quoted scalars -/

/-- The characters that a letter behind a backslash stands for. -/
def escaped? (c : Char) : Option Char :=
  match c with
  | '0' => some (Char.ofNat 0)
  | 'a' => some (Char.ofNat 7)
  | 'b' => some (Char.ofNat 8)
  | 't' => some '\t'
  | '\t' => some '\t'
  | 'n' => some '\n'
  | 'v' => some (Char.ofNat 11)
  | 'f' => some (Char.ofNat 12)
  | 'r' => some '\r'
  | 'e' => some (Char.ofNat 27)
  | ' ' => some ' '
  | '"' => some '"'
  | '/' => some '/'
  | '\\' => some '\\'
  | 'N' => some (Char.ofNat 0x85)
  | '_' => some (Char.ofNat 0xA0)
  | 'L' => some (Char.ofNat 0x2028)
  | 'P' => some (Char.ofNat 0x2029)
  | _ => none

/-- How many hexadecimal digits follow a letter behind a backslash. -/
def codeLength? (c : Char) : Option Nat :=
  match c with
  | 'x' => some 2
  | 'u' => some 4
  | 'U' => some 8
  | _ => none

/-- The character that an escape gives by its code point. -/
def codePoint? (digits : List Char) (length : Nat) : Option Char :=
  let n := hexValue digits
  if digits.length < length || !digits.all isHexDigit then none
  else if h : n.isValidChar then some (Char.ofNatAux n h)
  else none

/-- The characters of a quoted scalar up to the next blank or break or to its quote, behind those in
`out`, and whether an escaped break ends them. -/
def quotedRun? (single : Bool) : Nat → List Char → Scanner → Option (List Char × Bool × Scanner)
  | 0, out, s => some (out, false, s)
  | turns + 1, out, s =>
    match s.rest with
    | [] => some (out, false, s)
    | c :: rest =>
      let next := rest.head?
      if isGap (some c) then some (out, false, s)
      else if single then
        if c == '\'' then
          if next == some '\'' then quotedRun? single turns ('\'' :: out) (s.skip 2)
          else some (out, false, s)
        else quotedRun? single turns (c :: out) (s.skip 1)
      else if c == '"' then some (out, false, s)
      else if c == '\\' then
        match next with
        | none => none
        | some e =>
          if isBreak e then some (out, true, (s.skip 1).skipBreak)
          else match escaped? e, codeLength? e with
            | some d, _ => quotedRun? single turns (d :: out) (s.skip 2)
            | none, some length => do
              let d ← codePoint? ((rest.drop 1).take length) length
              quotedRun? single turns (d :: out) (s.skip (2 + length))
            | none, none => none
      else quotedRun? single turns (c :: out) (s.skip 1)

/-- The text of a quoted scalar up to its closing quote. -/
def quotedText? (single : Bool) : Nat → List Char → Scanner → Option (List Char × Scanner)
  | 0, _, _ => none
  | turns + 1, out, s =>
    if s.atDocumentMark || s.rest.isEmpty then none
    else do
      let (out, broken, s) ← quotedRun? single s.rest.length out s
      if s.peek == some (if single then '\'' else '"') then return (out.reverse, s.skip 1)
      let (space, s) ← spacing? 0 s.rest.length { Spacing.none with overLines := broken } s
      quotedText? single turns (space.text.reverse ++ out) s

/-- A scalar in quotes. -/
def quotedScalar? (s : Scanner) (single : Bool) : Option Scanner := do
  let s ← s.saveKey?
  let s := { s with keyAllowed := false }.skip 1
  let (text, s) ← quotedText? single (s.rest.length + 1) [] s
  return s.push (.scalar text false)

/-! ## Block scalars -/

/-- What becomes of the breaks at the end. -/
inductive Chomping where
  | strip
  | clip
  | keep
  deriving DecidableEq

/-- How a block scalar ends, as its mark says. -/
def chomping? : Option Char → Option Chomping
  | some '+' => some .keep
  | some '-' => some .strip
  | _ => none

/-- An indentation of one to nine, if a digit is here; zero is no indentation. -/
def increment? (s : Scanner) : Option (Option Nat × Scanner) :=
  match s.peek with
  | some c =>
    if c == '0' then none
    else if c.isDigit then some (some (c.toNat - '0'.toNat), s.skip 1)
    else some (none, s)
  | none => some (none, s)

/-- The marks behind the indicator of a block scalar, in either order. -/
def blockHeader? (s : Scanner) : Option (Chomping × Option Nat × Scanner) :=
  match chomping? s.peek with
  | some chomping => do
    let (increment, s) ← (s.skip 1).increment?
    return (chomping, increment, s)
  | none => do
    let (increment, s) ← s.increment?
    match increment, chomping? s.peek with
    | some n, some chomping => return (chomping, some n, s.skip 1)
    | _, _ => return (.clip, increment, s)

/-- Pass the empty lines of a block scalar and the indentation of the line behind them; says the
breaks and the deepest column. Until the indentation is known, spaces of any number belong to it. -/
def blockBreaks? (indent : Option Nat) :
    Nat → Nat → List Char → Scanner → Option (Nat × List Char × Scanner)
  | 0, deepest, breaks, s => some (deepest, breaks, s)
  | turns + 1, deepest, breaks, s =>
    let spaces := s.rest.takeWhile (· == ' ')
    let room := match indent with
      | some n => min spaces.length (n - s.column)
      | none => spaces.length
    let s := s.skip room
    let deepest := max deepest s.column
    let inside := match indent with
      | some n => s.column < n
      | none => true
    if inside && s.peek == some '\t' then none
    else if s.peek.any isBreak then
      let (text, s) := s.readBreak
      blockBreaks? indent turns deepest (breaks ++ text) s
    else some (deepest, breaks, s)

/-- The lines of a block scalar. `first` is the break behind the last line, `others` those of the
empty lines after it, and `indented` says whether that line begins with a blank. -/
def blockLines? (literal : Bool) (indent : Nat) :
    Nat → List Char → List Char → List Char → Bool → Scanner →
      Option (List Char × List Char × List Char × Scanner)
  | 0, out, first, others, _, s => some (out, first, others, s)
  | turns + 1, out, first, others, indented, s =>
    if s.column != indent || s.rest.isEmpty then some (out, first, others, s)
    else do
      let blank := s.peek.any isBlank
      let joint :=
        if !literal && first == ['\n'] && !indented && !blank then
          (if others.isEmpty then [' '] else others)
        else first ++ others
      let (line, s) := s.takeWhile (! isBreak ·)
      let (first, s) := s.readBreak
      let (_, others, s) ← blockBreaks? (some indent) (s.rest.length + 1) 0 [] s
      blockLines? literal indent turns (out ++ joint ++ line) first others blank s

/-- A scalar that keeps its lines, or folds them. -/
def blockScalar? (s : Scanner) (literal : Bool) : Option Scanner := do
  let s ← s.dropKey?
  let (chomping, increment, s) ← ({ s with keyAllowed := true }.skip 1).blockHeader?
  let s ← s.endLine?
  let base := (max s.indent 0).toNat
  let known := increment.map (base + ·)
  let (deepest, others, s) ← blockBreaks? known (s.rest.length + 1) 0 [] s
  let indent := known.getD (max deepest (max (s.indent + 1).toNat 1))
  let (text, first, others, s) ← blockLines? literal indent (s.rest.length + 1) [] [] others false s
  let tail := match chomping with
    | .strip => []
    | .clip => first
    | .keep => first ++ others
  return s.push (.scalar (text ++ tail) false)

/-! ## The stream -/

/-- The end of the text, which closes all that is open. -/
def streamEnd? (s : Scanner) : Option Scanner := do
  let s ← ((if s.column == 0 then s else { s with column := 0, line := s.line + 1 }).unrollIndent
    (-1)).dropKey?
  return { s with keyAllowed := false }.push .streamEnd

/-- Whether a plain scalar begins with `c`, followed by `next`. -/
def beginsPlain (s : Scanner) (c : Char) (next : Option Char) : Bool :=
  !(isGap (some c) || isIndicator c) || (c == '-' && !next.any isBlank) ||
    (!s.inFlow && (c == '?' || c == ':') && !isGap next)

/-- The next token, blank space before it being passed. -/
def next? (s : Scanner) : Option Scanner :=
  match s.rest with
  | [] => s.streamEnd?
  | c :: rest =>
    let next := rest.head?
    if s.column == 0 && c == '%' then s.directive?
    else if s.atDocumentMark then
      s.documentMark? (if c == '-' then .documentStart else .documentEnd)
    else if c == '[' then s.flowStart? .flowSequenceStart
    else if c == '\x7b' then s.flowStart? .flowMappingStart
    else if c == ']' then s.flowEnd? .flowSequenceEnd
    else if c == '\x7d' then s.flowEnd? .flowMappingEnd
    else if c == ',' then s.flowEntry?
    else if c == '-' && isGap next then s.blockEntry?
    else if c == '?' && (s.inFlow || isGap next) then s.key?
    else if c == ':' && (s.inFlow || isGap next) then s.value?
    else if c == '*' then s.anchor? .alias
    else if c == '&' then s.anchor? .anchor
    else if c == '!' then s.tag?
    else if c == '|' && !s.inFlow then s.blockScalar? true
    else if c == '>' && !s.inFlow then s.blockScalar? false
    else if c == '\'' then s.quotedScalar? true
    else if c == '"' then s.quotedScalar? false
    else if s.beginsPlain c next then s.plainScalar?
    else none

/-- All tokens; each takes at least one character, so that one turn more than there are characters
reaches the end. -/
def run? : Nat → Scanner → Option (List Token)
  | 0, _ => none
  | turns + 1, s => do
    let s ← (toNextToken (s.rest.length + 1) s).dropStale?
    let s ← (s.unrollIndent s.column).next?
    if s.tokens.back? == some .streamEnd then return s.tokens.toList
    run? turns s

end Scanner

/-- The tokens of a stream; none if it has a character or a form that no stream has. -/
def tokens? (text : String) : Option (List Token) :=
  let cs := text.toList
  if cs.all isPrintable then Scanner.run? (cs.length + 1) (Scanner.start cs) else none

end LaunchFile.Yaml
