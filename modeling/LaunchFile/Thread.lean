import LaunchFile.Interpreter
import LaunchFile.Substitution.Cache

/-!
# Thread — runs that follow one another on a thread

A thread keeps the segments of the texts read last from one run to the next, and where its generator
of suffixes stands. What was looked up is kept for one run, and made-up names belong to the scope
that a run starts in.
-/

namespace LaunchFile

/-! ## Interpreters -/

/-- The files that an interpreter reads, and its options. -/
structure Settings where
  files : Files
  strict : Bool
  distro : Option String

structure Interpreter extends Settings where
  look : Lookups

/-- The world of a run without caches. -/
def Interpreter.world (i : Interpreter) : World :=
  .of i.look i.files i.strict i.distro

/-- What an interpreter is given: a tree with the scope that it is walked in and the names that this
scope's registry holds already, or a text or a file, which start with a registry of their own. -/
inductive Job where
  | tree (scope : Scope) (names : List (String × String)) (root : Element)
  | text (label : Option Path) (args : List (String × String)) (source : String)
  | file (path : Path) (args : List (String × String))

/-- The tree of a text and the scope that it is walked in. -/
def openText (file : Option Path) (args : List (String × String)) (source : String) :
    Result (Scope × Element) := do
  let root ← Element.parse source file
  return (topScope file args, root)

namespace Job

/-- The names that its seeds have at the beginning of the run. -/
def names : Job → List (String × String)
  | .tree _ names _ => names
  | .text _ _ _ | .file _ _ => []

/-- The registry at the beginning of the run, which draws from this supply. -/
def registry (job : Job) (supply : AnonRegistry) : AnonRegistry :=
  { supply with names := job.names }

/-- The tree to be walked and the scope that it is walked in. -/
def opened (files : Files) : Job → Result (Scope × Element)
  | .tree scope _ root => .ok (scope, root)
  | .text label args source => openText label args source
  | .file path args => do
    let source ← files.readText path.normalize
    openText (some path.normalize) args source

/-- The run without any cache. -/
def plain (w : World) : Job → LaunchM Model
  | .tree scope _ root => interpretTree w scope root
  | .text label args source => interpretText w label args source
  | .file path args => interpretFile w path args

end Job

/-! ## Runs -/

section

variable {L σ : Type} [Answers L σ]

/-- The distribution: the given one, else that of the environment, else `noetic`. -/
def Settings.distroFor (s : Settings) (look : L) : LaunchT σ String :=
  match s.distro with
  | some distro => pure distro
  | none => do
    let found ← Answers.env look "ROS_DISTRO"
    return found.getD "noetic"

/-- The model of a job. The distribution is looked up once the tree is there. -/
def interpret (s : Settings) (look : L) (job : Job) : LaunchT σ Model := do
  let (scope, root) ← job.opened s.files
  let distro ← s.distroFor look
  interpretTree ⟨look, s.files, s.strict, distro⟩ scope root

end

/-! ## Threads -/

/-- What a thread keeps from run to run. -/
structure Thread where
  parsed : ParseCache
  /-- The registry that the last run left behind; only its suffixes are drawn from. -/
  supply : AnonRegistry

namespace Thread

/-- A thread that nothing was read on. -/
def start (supply : AnonRegistry) : Thread :=
  ⟨.start, supply⟩

/-- A run on the thread, with look-ups that are kept for its length. -/
def interpret (t : Thread) (i : Interpreter) (job : Job) :
    Result Model × AnonRegistry × Caches :=
  (LaunchFile.interpret i.toSettings (CachedLookups.mk i.look) job).run
    (job.registry t.supply, ⟨t.parsed, .start⟩)

/-- What the run ends in. -/
def result (t : Thread) (i : Interpreter) (job : Job) : Result Model :=
  (t.interpret i job).1

/-- The registry behind the run. -/
def registry (t : Thread) (i : Interpreter) (job : Job) : AnonRegistry :=
  (t.interpret i job).2.1

/-- The thread behind the run. -/
def next (t : Thread) (i : Interpreter) (job : Job) : Thread :=
  ⟨(t.interpret i job).2.2.parsed, t.registry i job⟩

/-- The thread behind runs of any interpreters. -/
def after (t : Thread) (history : List (Interpreter × Job)) : Thread :=
  history.foldl (fun t (i, job) => t.next i job) t

end Thread
end LaunchFile
