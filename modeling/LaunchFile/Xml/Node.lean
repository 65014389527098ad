import LaunchFile.Dict
import LaunchFile.Xml.Token

/-!
# Xml/Node — documents as trees

A document is one element with texts and elements inside of it. Tags pair up by the names as they
are written; prefixes of names are declared, and no element has two attributes of one full name.
What remains of a name in the tree is the part behind its prefix.
-/

namespace LaunchFile.Xml

inductive Node where
  | element (name : String) (attributes : Dict String) (children : List Node) (place : Place)
  | text (value : String)
  | aside
  deriving Inhabited

/-! ## Namespaces -/

def xmlUri : String := "http://www.w3.org/XML/1998/namespace"

def xmlnsUri : String := "http://www.w3.org/2000/xmlns/"

/-- Prefixes and the namespaces they stand for, the latest declaration first. -/
abbrev Bound := List (String × String)

def uri? (bound : Bound) (scope : String) : Option String :=
  (bound.find? (·.1 == scope)).map Prod.snd

/-- The declarations among the attributes of a tag, in order; none when one is not allowed. -/
def declared? : Bound → List Attribute → Option Bound
  | found, [] => some found
  | found, a :: rest =>
    if a.name.scope == "xmlns" then
      let isXml := a.value == xmlUri
      if a.value == xmlnsUri || (a.name.label == "xml") != isXml ||
          found.any (·.1 == a.name.label) then none
      else if isXml then declared? found rest
      else declared? ((a.name.label, a.value) :: found) rest
    else if a.name.label == "xmlns" then
      if a.value == xmlUri || a.value == xmlnsUri then none else declared? found rest
    else declared? found rest

def isDeclaration (a : Attribute) : Bool :=
  a.name.scope == "xmlns" || a.name.label == "xmlns"

/-- The full names of attributes: the namespace, if the name has a prefix, and the label. -/
def fullName? (bound : Bound) (name : QName) : Option (Option String × String) :=
  if name.scope.isEmpty then some (none, name.label)
  else (uri? bound name.scope).map fun uri => (some uri, name.label)

/-- Whether an element may have this name. The prefix `xml` is bound for attributes alone. -/
def isElementName (bound : Bound) (name : QName) : Bool :=
  name.scope != "xml" && (fullName? bound name).isSome

/-- The attributes of an element under their labels; none when a prefix is not declared or two full
names are the same. -/
def expand? (bound : Bound) :
    List (Option String × String) → Dict String → List Attribute → Option (Dict String)
  | _, found, [] => some found
  | seen, found, a :: rest => do
    let name ← fullName? bound a.name
    if seen.contains name then none
    else expand? bound (name :: seen) (found.insert a.name.label a.value) rest

/-! ## Pairing tags -/

/-- An element that is still open: its tag, and the children read so far, last one first. -/
structure Frame where
  name : QName
  attributes : Dict String
  place : Place
  bound : Bound
  children : List Node

def Frame.close (f : Frame) : Node :=
  .element f.name.label f.attributes f.children.reverse f.place

/-- What has been read of a document: the open elements, innermost first, and the root once it is
closed. -/
structure Reading where
  frames : List Frame
  root : Option Node

/-- Put a finished node where it belongs. -/
def Reading.add (r : Reading) (node : Node) : Reading :=
  match r.frames with
  | [] => { r with root := some node }
  | f :: outer => { r with frames := { f with children := node :: f.children } :: outer }

def Reading.bound (r : Reading) : Bound :=
  match r.frames with
  | [] => [("xml", xmlUri)]
  | f :: _ => f.bound

def Reading.openTag (r : Reading) (name : QName) (attributes : List Attribute) (place : Place) :
    Scan Frame :=
  let found := do
    if r.frames.isEmpty && r.root.isSome then none
    let declared ← declared? [] attributes
    let bound := declared ++ r.bound
    let expanded ← expand? bound [] .empty (attributes.filter (!isDeclaration ·))
    if !isElementName bound name then none
    some (Frame.mk name expanded place bound [])
  match found with
  | some frame => .ok frame
  | none => .error place

/-- Take one token in. -/
def Reading.step (r : Reading) : Token → Scan Reading
  | .openTag name attributes closed place => do
    let frame ← r.openTag name attributes place
    .ok (if closed then r.add frame.close else { r with frames := frame :: r.frames })
  | .closeTag name place =>
    match r.frames with
    | [] => .error place
    | f :: outer =>
      if f.name == name then .ok ({ r with frames := outer }.add f.close) else .error place
  | .text value blank place =>
    if !r.frames.isEmpty then .ok (r.add (.text value))
    else if blank then .ok r
    else .error place
  | .aside => .ok (if r.frames.isEmpty then r else r.add .aside)

/-- The root element of a document. -/
def parse (source : String) : Scan Node := do
  let found ← tokenize source
  let r ← found.foldlM Reading.step ⟨[], none⟩
  match r.frames, r.root with
  | [], some root => .ok root
  | f :: _, _ => .error f.place
  | [], none => .error .start

/-! ## Texts -/

/-- The texts directly inside of an element, joined. -/
def joinedText : List Node → List Char
  | [] => []
  | .text value :: rest => value.toList ++ joinedText rest
  | _ :: rest => joinedText rest

/-- The text an element begins with, up to its first tag, comment or instruction. -/
def leadingText? : List Node → Option String
  | .text value :: rest => some (value ++ (leadingText? rest).getD "")
  | _ => none

end LaunchFile.Xml
