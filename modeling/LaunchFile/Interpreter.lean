import LaunchFile.Model.Basic
import LaunchFile.Walk

/-!
# Interpreter — the model of a launch file

A run starts in a scope whose arguments are given from outside, and with no made-up names. It reads
the tree, walks it, and turns the log of the walk into a model.
-/

namespace LaunchFile

variable {L σ : Type}

/-- What a walk begins with: nothing recorded, and the file of the scope open if there is one. -/
def WalkState.start (registry : σ) (scope : Scope) : WalkState σ :=
  ⟨registry, scope.file.toList, []⟩

variable [Answers L σ]

/-- The model of a tree, walked in a given scope, given how the files that it includes are
walked. -/
def interpretWith (w : World L) (enter : EnterFile σ) (scope : Scope) (root : Element) :
    LaunchT σ Model := fun registry =>
  let walk := walkRoot w enter scope root
  let (result, state) := walk.run (.start registry scope)
  (result.map fun behind => Model.ofLog state.log behind.args, state.registry)

/-- The model of a tree, walked in a given scope. -/
def interpretTree (w : World L) : Scope → Element → LaunchT σ Model :=
  interpretWith w (walkFile w (w.files.size + 1))

/-- The scope of a file, or of a text that stands for one, with arguments given from outside. -/
def topScope (file : Option Path) (args : List (String × String)) : Scope :=
  { Scope.root with
    file
    args := Dict.ofPairs (args.map fun (name, value) => (name, ⟨some value, .override, none⟩)) }

/-- The model of a text; the file only labels places and is where relative references start. -/
def interpretText (w : World L) (file : Option Path) (args : List (String × String))
    (source : String) : LaunchT σ Model := do
  let root ← Element.parse source file
  interpretTree w (topScope file args) root

def interpretFile (w : World L) (path : Path) (args : List (String × String)) :
    LaunchT σ Model := do
  let path := path.normalize
  let source ← w.files.readText path
  interpretText w (some path) args source

/-- The registry of a new run: no names, and suffixes that no earlier run has used. -/
def AnonRegistry.renew (r : AnonRegistry) : AnonRegistry :=
  { r with names := [] }

/-- The results of runs that follow one another. Nothing of a run but which suffixes it drew is seen
by the next one. -/
def runAll {α : Type} : AnonRegistry → List (LaunchM α) → List (Result α)
  | _, [] => []
  | registry, run :: rest =>
    let (result, registry) := run.run registry.renew
    result :: runAll registry rest

end LaunchFile
