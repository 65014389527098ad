import LaunchFile.Text.Blank

/-!
# GraphName — names of nodes, topics and parameters

A resolved name is absolute: one slash before each segment, no slash at the end, and a lone slash
for the root namespace. A name as written may be relative, absolute or private (`~`); the checks
here say which texts are names at all, and why one is not.
-/

namespace LaunchFile

/-- Why a text is not a name. -/
inductive NameFault where
  | empty
  | trailingSlash
  | namespaced
  | isPrivate
  | emptySegment
  | badSegment (segment : String)
  deriving DecidableEq, Repr

def NameFault.message : NameFault → String
  | .empty => "name is empty"
  | .trailingSlash => "name ends with '/'"
  | .namespaced => "name cannot contain a namespace"
  | .isPrivate => "name cannot be private"
  | .emptySegment => "empty segment"
  | .badSegment segment =>
    s!"'{segment}' must start with a letter and contain only letters, digits and underscores"

namespace GraphName

/-! ## Absolute form -/

/-- The non-empty pieces between slashes. -/
def segments (cs : List Char) : List (List Char) :=
  (Text.splitWhere (· == '/') cs).filter (! ·.isEmpty)

/-- A slash and the segments with one slash between each two. -/
def absolute (segments : List (List Char)) : List Char :=
  '/' :: List.intercalate ['/'] segments

def normalizeChars (cs : List Char) : List Char :=
  absolute (segments cs)

/-- The absolute form of a name: single separators and no slash at the end. -/
def normalize (name : String) : String :=
  String.ofList (normalizeChars name.toList)

/-- A relative name under a namespace. -/
def join (base name : String) : String :=
  String.ofList (normalizeChars (base.toList ++ '/' :: name.toList))

/-- The last segment of a resolved name. -/
def last (name : String) : String :=
  String.ofList (name.toList.reverse.takeWhile (· != '/')).reverse

/-- Whether `name` lies below `base`, that is, extends it by at least a slash. -/
def isBelow (base name : String) : Bool :=
  (base.toList ++ ['/']).isPrefixOf name.toList

/-! ## Names as written -/

/-- A letter, then letters, digits and underscores, all ASCII. -/
def isIdentifier : List Char → Bool
  | [] => false
  | c :: cs => c.isAlpha && cs.all fun d => d.isAlphanum || d == '_'

def segmentFault (segment : List Char) : NameFault :=
  if segment.isEmpty then .emptySegment else .badSegment (String.ofList segment)

/-- The pieces after the first slash: identifiers, but the last may be empty in a namespace. -/
def checkRest (allowEmpty : Bool) : List (List Char) → Except NameFault Unit
  | [] => .ok ()
  | [piece] =>
    if piece.isEmpty then (if allowEmpty then .ok () else .error .trailingSlash)
    else if isIdentifier piece then .ok () else .error (segmentFault piece)
  | piece :: pieces =>
    if isIdentifier piece then checkRest allowEmpty pieces else .error (segmentFault piece)

def dropTilde : List Char → List Char
  | '~' :: cs => cs
  | cs => cs

def checkChars (allowEmpty : Bool) (cs : List Char) : Except NameFault Unit :=
  if cs.isEmpty then (if allowEmpty then .ok () else .error .empty)
  else match Text.splitWhere (· == '/') cs with
    | [] => .ok ()
    | first :: rest =>
      let first := dropTilde first
      if first.isEmpty || isIdentifier first then checkRest allowEmpty rest
      else .error (segmentFault first)

/-- Check a name with any number of segments; `allowEmpty` admits the empty name and a slash at the
end, as namespaces have them. -/
def check (allowEmpty : Bool) (name : String) : Except NameFault Unit :=
  checkChars allowEmpty (Text.trimChars name.toList)

def checkBaseChars (cs : List Char) : Except NameFault Unit :=
  if cs.isEmpty then .error .empty
  else if cs.contains '/' then .error .namespaced
  else if cs.head? == some '~' then .error .isPrivate
  else if isIdentifier cs then .ok ()
  else .error (segmentFault cs)

/-- Check a name of one segment. -/
def checkBase (name : String) : Except NameFault Unit :=
  checkBaseChars (Text.trimChars name.toList)

end GraphName
end LaunchFile
