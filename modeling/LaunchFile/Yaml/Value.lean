import LaunchFile.Decimal.Layout
import LaunchFile.Yaml.Event

/-!
# Yaml/Value — documents as typed values

A plain scalar is null, a boolean, a number or a string by its look; a quoted one is a string. A
core tag forces the type, any other `!` tag stays around the value. Mappings keep the order of their
entries and have no two equal keys. Nesting deeper than 128 is refused, and so are documents that
repeat anchored nodes more than a hundred times as often as they have events.
-/

namespace LaunchFile.Yaml

inductive Value where
  | null
  | bool (b : Bool)
  | int (n : Int)
  | float (x : Float)
  | str (s : String)
  | seq (items : List Value)
  | map (entries : List (Value × Value))
  | tagged (tag : String) (value : Value)
  deriving Inhabited

/-! ## Scalars -/

def isNull (s : String) : Bool :=
  s == "null" || s == "Null" || s == "NULL" || s == "~"

def bool? (s : String) : Option Bool :=
  if s == "true" || s == "True" || s == "TRUE" then some true
  else if s == "false" || s == "False" || s == "FALSE" then some false
  else none

/-- The value of at least one digit to a base. -/
def digits? (base : Nat) (cs : List Char) : Option Nat :=
  let isDigit (c : Char) : Bool := isHexDigit c && hexDigit c < base
  if cs.isEmpty || !cs.all isDigit then none
  else some (cs.foldl (fun n c => base * n + hexDigit c) 0)

/-- A zero with further digits behind it, which is no number. -/
def isPadded (cs : List Char) : Bool :=
  let unsigned := match cs with
    | '-' :: cs => cs
    | '+' :: cs => cs
    | cs => cs
  match unsigned with
  | '0' :: c :: cs => (c :: cs).all Char.isDigit
  | _ => false

/-- A number without its sign: decimal, or with a prefix that names its base. -/
def magnitude? : List Char → Option Nat
  | '0' :: 'x' :: cs => digits? 16 cs
  | '0' :: 'o' :: cs => digits? 8 cs
  | '0' :: 'b' :: cs => digits? 2 cs
  | cs => if isPadded cs then none else digits? 10 cs

/-- A whole number with an optional sign. -/
def integer? : List Char → Option Int
  | '-' :: cs => (magnitude? cs).map fun n => -Int.ofNat n
  | '+' :: cs => (magnitude? cs).map Int.ofNat
  | cs => (magnitude? cs).map Int.ofNat

/-- What a whole number of a text comes to: a value if a signed or an unsigned word holds it; a
fault if only a word of double width would; and no number beyond that. -/
def wholeNumber (n : Int) : Option (Option Value) :=
  if -Int.ofNat (Nat.pow 2 63) ≤ n && n < Int.ofNat (Nat.pow 2 64) then some (some (.int n))
  else if -Int.ofNat (Nat.pow 2 127) ≤ n && n < Int.ofNat (Nat.pow 2 128) then none
  else some none

/-- The words for infinity and for no number, which have a point before them. -/
def specialFloat? (s : String) : Option Float :=
  match s with
  | ".inf" | ".Inf" | ".INF" | "+.inf" | "+.Inf" | "+.INF" => some Decimal.infinity
  | "-.inf" | "-.Inf" | "-.INF" => some (-Decimal.infinity)
  | ".nan" | ".NaN" | ".NAN" => some Decimal.notANumber
  | _ => none

/-- A decimal within the range of doubles. -/
def float? (s : String) : Option Float :=
  match specialFloat? s with
  | some x => some x
  | none => (Decimal.readFloat? s.toList).filter Float.isFinite

/-- The value of a plain scalar by its look; none when it is a number that no word holds. -/
def untagged? (s : String) : Option Value :=
  if s.isEmpty || isNull s then some .null
  else match bool? s with
    | some b => some (.bool b)
    | none => do
      let whole ← match integer? s.toList with
        | some n => wholeNumber n
        | none => some none
      match whole with
      | some value => return value
      | none =>
        if isPadded s.toList then return .str s
        else match float? s with
          | some x => return .float x
          | none => return .str s

/-- Core tags, by the end of their address. -/
def coreTag (name : String) : Tag :=
  Text.Utf8.encode ("tag:yaml.org,2002:" ++ name)

/-- Whether a tag begins with the mark. -/
def isMarked (tag : Tag) : Bool :=
  tag.head? == some '!'.toUInt8

/-- The value of a scalar: a core tag forces its type, a marked tag leaves it to the look, and any
other tag makes it a string. -/
def scalar? (tag : Option Tag) (text : String) (plain : Bool) : Option Value :=
  match tag with
  | none => if plain then untagged? text else some (.str text)
  | some tag =>
    if tag == coreTag "bool" then (bool? text).map .bool
    else if tag == coreTag "int" then do
      let n ← integer? text.toList
      (← wholeNumber n)
    else if tag == coreTag "float" then (float? text).map .float
    else if tag == coreTag "null" then (if isNull text then some .null else none)
    else if isMarked tag && plain then untagged? text
    else some (.str text)

/-! ## Equality of keys -/

def sameFloat (a b : Float) : Bool :=
  (a.isNaN && b.isNaN) || a == b

/-- A tag without its mark. -/
def bareTag (tag : String) : List Char :=
  match tag.toList with
  | '!' :: c :: cs => c :: cs
  | cs => cs

mutual

/-- Equality of values; the order of a mapping's entries does not count. -/
def Value.same : Value → Value → Bool
  | .null, .null => true
  | .bool a, .bool b => a == b
  | .int a, .int b => a == b
  | .float a, .float b => sameFloat a b
  | .str a, .str b => a == b
  | .seq a, .seq b => sameItems a b
  | .map a, .map b => a.length == b.length && sameEntries a b
  | .tagged s a, .tagged t b => bareTag s == bareTag t && a.same b
  | _, _ => false

def sameItems : List Value → List Value → Bool
  | [], [] => true
  | a :: as, b :: bs => a.same b && sameItems as bs
  | _, _ => false

def sameEntries : List (Value × Value) → List (Value × Value) → Bool
  | [], _ => true
  | (k, v) :: rest, others =>
    others.any (fun (l, w) => k.same l && v.same w) && sameEntries rest others

end

/-! ## Anchors -/

/-- An event of a document whose aliases have numbers. -/
inductive Item where
  | alias (number : Nat)
  | scalar (tag : Option Tag) (text : String) (plain : Bool)
  | sequenceStart (tag : Option Tag)
  | sequenceEnd
  | mappingStart (tag : Option Tag)
  | mappingEnd
  deriving Inhabited

/-- The anchors met so far: the number of each name, and where the node of each number begins, the
latest first. A new anchor gets the count of names as its number. -/
structure Anchors where
  numbers : List (List Char × Nat)
  starts : List (Nat × Nat)

def Anchors.set (a : Anchors) (name : Option (List Char)) (index : Nat) : Anchors :=
  match name with
  | none => a
  | some name =>
    let number := a.numbers.length
    ⟨(name, number) :: a.numbers.filter (·.1 != name), (number, index) :: a.starts⟩

/-- The items of a document; none when an alias has no anchor before it. -/
def items? : Nat → Anchors → List Event → Option (List Item × Anchors)
  | _, a, [] => some ([], a)
  | index, a, event :: rest => do
    let (item, a) ← match event with
      | .alias name => (a.numbers.find? (·.1 == name)).map fun found => (Item.alias found.2, a)
      | .scalar p text plain =>
        some (.scalar p.tag (String.ofList text) plain, a.set p.anchor index)
      | .sequenceStart p => some (.sequenceStart p.tag, a.set p.anchor index)
      | .sequenceEnd => some (.sequenceEnd, a)
      | .mappingStart p => some (.mappingStart p.tag, a.set p.anchor index)
      | .mappingEnd => some (.mappingEnd, a)
      | _ => none
    let (others, a) ← items? (index + 1) a rest
    return (item :: others, a)

/-! ## Composing -/

/-- A document to compose, and where the nodes of its anchors begin. -/
structure Document where
  items : List Item
  starts : List (Nat × Nat)

/-- A reader of one node, from the items and the count of repetitions so far to its value, the
items behind it and the new count. -/
abbrev Reader := List Item → Nat → Option (Value × List Item × Nat)

def elements? (inside : Reader) : Nat → List Item → Nat → Option (List Value × List Item × Nat)
  | 0, _, _ => none
  | _, .sequenceEnd :: rest, jumps => some ([], rest, jumps)
  | turns + 1, items, jumps => do
    let (value, items, jumps) ← inside items jumps
    let (others, items, jumps) ← elements? inside turns items jumps
    return (value :: others, items, jumps)

/-- The entries of a mapping whose keys differ from those in `seen` and from one another. -/
def entries? (inside : Reader) (seen : List Value) :
    Nat → List Item → Nat → Option (List (Value × Value) × List Item × Nat)
  | 0, _, _ => none
  | _, .mappingEnd :: rest, jumps => some ([], rest, jumps)
  | turns + 1, items, jumps => do
    let (key, items, jumps) ← inside items jumps
    if seen.any key.same then none
    let (value, items, jumps) ← inside items jumps
    let (others, items, jumps) ← entries? inside (key :: seen) turns items jumps
    return ((key, value) :: others, items, jumps)

/-- The tag that stays around its value: one with the mark, which is left out unless it is all there
is. It has to be text. -/
def outerTag? (tag : Option Tag) : Option String := do
  let tag ← tag
  if !isMarked tag then none
  (Text.Utf8.decode (if tag == loneMark then tag else tag.drop 1)).toOption

def wrap (tag : Option Tag) (value : Value) : Value :=
  match outerTag? tag with
  | some tag => .tagged tag value
  | none => value

/-- The content of a scalar whose outer tag is taken off. -/
def content? (tag : Option Tag) (text : String) (plain : Bool) : Option Value :=
  scalar? (if (outerTag? tag).isSome then none else tag) text plain

/-- The node at the start of the items, which is no alias. Nodes inside of a collection are read by
`inside`, if it may have any. -/
def plainNode? (inside : Option Reader) (items : List Item) (jumps : Nat) :
    Option (Value × List Item × Nat) :=
  match items with
  | .scalar tag text plain :: rest => do
    let value ← content? tag text plain
    return (wrap tag value, rest, jumps)
  | .sequenceStart tag :: rest => do
    let (found, rest, jumps) ← elements? (← inside) (rest.length + 1) rest jumps
    return (wrap tag (.seq found), rest, jumps)
  | .mappingStart tag :: rest => do
    let (found, rest, jumps) ← entries? (← inside) [] (rest.length + 1) rest jumps
    return (wrap tag (.map found), rest, jumps)
  | _ => none

/-- A node, where an alias stands for the node of its anchor. -/
def Document.nodeWith? (d : Document) (inside : Option Reader) : Reader := fun items jumps =>
  match items with
  | .alias number :: rest => do
    if jumps + 1 > d.items.length * 100 then none
    let start ← (d.starts.find? (·.1 == number)).map Prod.snd
    let (value, _, jumps) ← plainNode? inside (d.items.drop start) (jumps + 1)
    return (value, rest, jumps)
  | _ => plainNode? inside items jumps

/-- A node with at most so many collections around one another. -/
def Document.node? (d : Document) : Nat → Reader
  | 0 => d.nodeWith? none
  | depth + 1 => d.nodeWith? (some (d.node? depth))

/-- How deep collections may nest. -/
def maxNesting : Nat := 128

/-- The only document of a stream; that of an empty stream has no items. -/
def document? (text : String) : Option Document := do
  let tokens ← tokens? text
  let events ← events? tokens
  let events ← onlyDocument? events
  let (items, anchors) ← items? 0 ⟨[], []⟩ events
  return ⟨items, anchors.starts⟩

/-- The value of the only document of a stream; an empty stream is null. -/
def parse (text : String) : Option Value := do
  let document ← document? text
  if document.items.isEmpty then return .null
  let (value, _, _) ← document.node? maxNesting document.items 0
  return value

end LaunchFile.Yaml
