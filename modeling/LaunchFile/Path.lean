import LaunchFile.Text.Blank

/-!
# Path — file paths as texts, and what is read off a text alone

A path keeps the text it was written with. Its steps are the pieces between slashes; empty pieces
and inner dots are no steps. Nothing here looks at a disk, so `..` is taken back lexically.
-/

namespace LaunchFile

/-- A path as it was written. -/
structure Path where
  text : String
  deriving DecidableEq, Repr, Inhabited

namespace Path

/-- An absolute path begins with a slash. -/
def absoluteChars : List Char → Bool
  | '/' :: _ => true
  | _ => false

def isAbsolute (p : Path) : Bool :=
  absoluteChars p.text.toList

/-! ## Steps -/

/-- Pieces that lead nowhere: the empty one between two slashes, and the dot. -/
def isIdle (piece : List Char) : Bool :=
  piece == [] || piece == ['.']

def isUp (piece : List Char) : Bool :=
  piece == ['.', '.']

/-- The pieces that lead somewhere, in order. -/
def stepsOf (cs : List Char) : List (List Char) :=
  (Text.splitWhere (· == '/') cs).filter (! isIdle ·)

/-- The text of a path from its steps. -/
def written (absolute : Bool) (steps : List (List Char)) : List Char :=
  (if absolute then ['/'] else []) ++ List.intercalate ['/'] steps

/-! ## Normal form -/

/-- One step of normalization; `done` holds the steps kept so far, last one first. A step up takes
back the last kept step and is itself kept when there is none. -/
def normalizeStep (done : List (List Char)) (step : List Char) : List (List Char) :=
  if isUp step then
    match done with
    | [] => [step]
    | _ :: before => before
  else step :: done

def normalizeChars (cs : List Char) : List Char :=
  written (absoluteChars cs) ((stepsOf cs).foldl normalizeStep []).reverse

/-- The path without dots and doubled slashes, steps up taken back. -/
def normalize (p : Path) : Path :=
  ⟨String.ofList (normalizeChars p.text.toList)⟩

/-! ## Joining and parents -/

def joinChars (base reference : List Char) : List Char :=
  if absoluteChars reference then reference
  else if base == [] || base.getLast? == some '/' then base ++ reference
  else base ++ '/' :: reference

/-- `reference` seen from `base`; an absolute reference stands for itself. -/
def join (base reference : Path) : Path :=
  ⟨String.ofList (joinChars base.text.toList reference.text.toList)⟩

/-- The part of a path that no parent takes away: the slash of an absolute path, the dot of one
that begins with a dot piece. -/
def lead : List Char → List Char
  | '/' :: _ => ['/']
  | ['.'] => ['.']
  | '.' :: '/' :: _ => ['.']
  | _ => []

def parentChars? (cs : List Char) : Option (List Char) :=
  let start := lead cs
  let pieces := (Text.splitWhere (· == '/') (cs.drop start.length)).reverse
  match pieces.dropWhile isIdle with
  | [] => if start == ['.'] then some [] else none
  | _ :: before => some (start ++ List.intercalate ['/'] (before.dropWhile isIdle).reverse)

/-- The path without its last step; the root and the empty path have none. -/
def parent? (p : Path) : Option Path :=
  (parentChars? p.text.toList).map (⟨String.ofList ·⟩)

/-- Whether two paths have the same steps from the same start. -/
def sameAs (p q : Path) : Bool :=
  lead p.text.toList == lead q.text.toList && stepsOf p.text.toList == stepsOf q.text.toList

/-! ## References -/

/-- The file a reference names: blanks around it are dropped, a relative reference starts at `base`
when there is one, and the result is normalized. -/
def resolve (reference : String) (base : Option Path) : Path :=
  let reference : Path := ⟨Text.trim reference⟩
  match base with
  | some base => (base.join reference).normalize
  | none => reference.normalize

end Path
end LaunchFile
