import LaunchFile.Disk
import LaunchFile.Xml.Node

/-!
# Package — finding packages by their manifests

The roots are searched in order, each level by level, the directories of a level in the order of
their names. A directory with a manifest is a package; what lies inside of it is not searched, nor
are directories whose names begin with a point or that lie more than six levels deep.
-/

namespace LaunchFile

namespace Package

/-! ## Roots -/

/-- The directories of a search path; empty pieces are none. -/
def roots (searchPath : String) : List Path :=
  ((Text.splitWhere (· == ':') searchPath.toList).filter (! ·.isEmpty)).map
    fun piece => ⟨String.ofList piece⟩

/-! ## Manifests -/

def manifest : String := "package.xml"

/-- The name in a manifest: the text at the start of the first `name` inside its root. -/
def nameIn? (bytes : List UInt8) : Option String := do
  let source ← (Text.Utf8.decode bytes).toOption
  let .element _ _ children _ ← (Xml.parse source).toOption | none
  let inner ← children.findSome? fun node =>
    match node with
    | .element "name" _ inner _ => some inner
    | _ => none
  let text ← Xml.leadingText? inner
  return Text.trim text

/-- The manifest of a directory, if it is a package. -/
def manifest? (e : Entry) : Option (List UInt8) :=
  match e.child? manifest with
  | some (.file bytes) => some bytes
  | _ => none

/-! ## Search -/

def isHidden (name : String) : Bool :=
  name.toList.head? == some '.'

/-- The directories to search inside of one that is no package. -/
def below (place : Path × Entry) : List (Path × Entry) :=
  let (path, e) := place
  if (manifest? e).isSome then []
  else
    let inner := e.entries.filter fun (name, child) => child.isDirectory && !isHidden name
    (inner.mergeSort fun a b => decide (a.1 ≤ b.1)).map fun (name, child) =>
      (path.join ⟨name⟩, child)

/-- Whether a directory is this package. A manifest whose path is too long is out of reach, as are
then all that lie deeper. -/
def isNamed (package : String) (place : Path × Entry) : Bool :=
  let (path, e) := place
  (path.join ⟨manifest⟩).text.utf8ByteSize ≤ Disk.maxPath &&
    ((manifest? e).bind nameIn?) == some package

/-- Search a level, and if the package is not in it the levels below. -/
def searchLevels (package : String) : Nat → List (Path × Entry) → Option Path
  | levels, places =>
    match places.find? (isNamed package) with
    | some place => some place.1
    | none =>
      match levels with
      | 0 => none
      | levels + 1 => searchLevels package levels (places.flatMap below)

def maxDepth : Nat := 6

/-- The directory of a package below one of the roots. -/
def find? (roots : List (Path × Entry)) (package : String) : Option Path :=
  roots.findSome? fun root => searchLevels package maxDepth [root]

end Package

/-- The roots of a search path that are there. -/
def Disk.packageRoots (d : Disk) (searchPath : Option String) : List (Path × Entry) :=
  (Package.roots (searchPath.getD "")).filterMap fun path =>
    (d.entry path).toOption.map (path, ·)

end LaunchFile
