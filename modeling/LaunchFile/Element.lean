import LaunchFile.Error
import LaunchFile.Xml.Node

/-!
# Element — the elements of a launch tree

An element has a tag, attributes under distinct names, child elements in order, the text directly
inside of it, and its place. Texts between children are kept only as that one text.
-/

namespace LaunchFile

inductive Element where
  | mk (tag : String) (attrs : Dict String) (children : List Element) (text : Option String)
    (location : Location)
  deriving Inhabited

namespace Element

def tag : Element → String
  | .mk tag _ _ _ _ => tag

def attrs : Element → Dict String
  | .mk _ attrs _ _ _ => attrs

def children : Element → List Element
  | .mk _ _ children _ _ => children

/-- The text directly inside, as it stands; never empty in a tree read from a document. -/
def text : Element → Option String
  | .mk _ _ _ text _ => text

def location : Element → Location
  | .mk _ _ _ _ location => location

def attr? (e : Element) (name : String) : Option String :=
  e.attrs.get? name

def hasAttr (e : Element) (name : String) : Bool :=
  e.attrs.contains name

/-- An attribute that has to be there. -/
def required (e : Element) (name : String) : Result String :=
  match e.attr? name with
  | some value => .ok value
  | none => Result.located e.location (Result.fail (.missingAttribute e.tag name))

/-! ## From documents -/

def textOf (nodes : List Xml.Node) : Option String :=
  match Xml.joinedText nodes with
  | [] => none
  | cs => some (String.ofList cs)

mutual

def ofNode? (file : Option Path) : Xml.Node → Option Element
  | .element name attributes children place =>
    some (.mk name attributes (ofNodes file children) (textOf children)
      ⟨file, place.line, place.column⟩)
  | _ => none

def ofNodes (file : Option Path) : List Xml.Node → List Element
  | [] => []
  | node :: rest =>
    match ofNode? file node with
    | some element => element :: ofNodes file rest
    | none => ofNodes file rest

end

def notWellFormed {α : Type} (file : Option Path) (place : Xml.Place) : Result α :=
  Result.located ⟨file, place.line, place.column⟩ (Result.fail (.malformedXml .notWellFormed))

/-- A launch tree has a root with the tag `launch`. -/
def checkRoot (root : Element) : Result Unit :=
  if root.tag == "launch" then .ok ()
  else Result.located root.location (Result.fail (.malformedXml (.wrongRoot root.tag)))

/-- The launch tree of a document; the file only labels places. -/
def parse (source : String) (file : Option Path) : Result Element :=
  match Xml.parse source with
  | .error place => notWellFormed file place
  | .ok root =>
    match ofNode? file root with
    | none => notWellFormed file .start
    | some root => do
      checkRoot root
      .ok root

end Element
end LaunchFile
