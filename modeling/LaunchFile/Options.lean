import LaunchFile.Yaml.Value

/-!
# Options — what a file of options says

Options are a mapping: `unknown_elements` is `warn` or `fail`, `ros_distro` a distribution, and all
other entries are skipped unread. An empty document leaves everything at its default.
-/

namespace LaunchFile

open Yaml (Item Document)

structure Options where
  /-- Whether unknown elements fail. -/
  strict : Bool
  distro : Option String
  deriving DecidableEq, Repr

namespace Options

def standard : Options :=
  ⟨false, none⟩

/-- The standard options but for unknown elements. -/
def strictest : Options :=
  ⟨true, none⟩

/-! ## Nodes of a document -/

/-- The change in nesting that an item makes. -/
def isStart : Item → Bool
  | .sequenceStart _ => true
  | .mappingStart _ => true
  | _ => false

def isEnd : Item → Bool
  | .sequenceEnd => true
  | .mappingEnd => true
  | _ => false

/-- The items behind a node, `depth` collections of which are open. -/
def skipNode : Nat → List Item → List Item
  | _, [] => []
  | depth, item :: rest =>
    if isStart item then skipNode (depth + 1) rest
    else
      let depth := if isEnd item then depth - 1 else depth
      if depth == 0 then rest else skipNode depth rest

/-- The items from the node on that stands at the start, an alias followed. -/
def target? (d : Document) : List Item → Option (List Item)
  | .alias number :: _ =>
    (d.starts.find? (·.1 == number)).map fun start => d.items.drop start.2
  | items => some items

/-- A scalar: its tag, its text, and whether it is plain. -/
def scalar? (d : Document) (items : List Item) : Option (Option Yaml.Tag × String × Bool) :=
  match target? d items with
  | some (.scalar tag text plain :: _) => some (tag, text, plain)
  | _ => none

/-! ## Entries -/

def policyNamed? : String → Option Bool
  | "warn" => some false
  | "fail" => some true
  | _ => none

/-- Whether a scalar says nothing: a plain one that is empty or a word for null. -/
def isNothing (text : String) (plain : Bool) : Bool :=
  plain && (text.isEmpty || Yaml.isNull text)

/-- The value of `unknown_elements`: a scalar, or a tag around nothing. -/
def policy? (d : Document) (items : List Item) : Option Bool := do
  let (tag, text, plain) ← scalar? d items
  match Yaml.outerTag? tag with
  | none => policyNamed? text
  | some tag => if isNothing text plain then policyNamed? tag else none

/-- The value of `ros_distro`: the text of a scalar of any type, or null. -/
def distro? (d : Document) (items : List Item) : Option (Option String) := do
  let (tag, text, plain) ← scalar? d items
  if !plain then return some text
  match tag with
  | none => return if isNothing text plain then none else some text
  | some tag =>
    if tag != Yaml.coreTag "null" then return some text
    else if Yaml.isNull text then return none
    else none

/-- What the entries read so far say. -/
structure Entries where
  policy : Option Bool
  distro : Option (Option String)

/-- Read an entry from its key and the items of its value; no option may be given twice. -/
def Entries.add? (e : Entries) (d : Document) (key : String) (value : List Item) :
    Option Entries :=
  if key == "unknown_elements" then
    if e.policy.isSome then none
    else (policy? d value).map fun policy => { e with policy := some policy }
  else if key == "ros_distro" then
    if e.distro.isSome then none
    else (distro? d value).map fun distro => { e with distro := some distro }
  else some e

def entries? (d : Document) : Nat → Entries → List Item → Option Entries
  | 0, _, _ => none
  | _, e, .mappingEnd :: _ => some e
  | turns + 1, e, items => do
    let (_, key, _) ← scalar? d items
    let value := skipNode 0 items
    let e ← e.add? d key value
    entries? d turns e (skipNode 0 value)

/-! ## Documents -/

def parse (text : String) : Option Options := do
  let d ← Yaml.document? text
  match d.items with
  | [] => return standard
  | .scalar _ text plain :: _ => if text.isEmpty && plain then return standard else none
  | .mappingStart _ :: rest => do
    let e ← entries? d (rest.length + 1) ⟨none, none⟩ rest
    return ⟨e.policy.getD false, e.distro.getD none⟩
  | _ => none

end Options
end LaunchFile
