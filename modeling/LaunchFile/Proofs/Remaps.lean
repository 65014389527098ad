import LaunchFile.Proofs.Distinct
import LaunchFile.Scope.Basic

/-!
# Proofs/Remaps — of the remappings of one source the last stays

A pair is resolved where it is added; what becomes of the scope later on does not touch it any more.
So the remappings of a scope are the pairs that were added on the way to it, less those whose source
was remapped again (`Scope.remaps_changed`).
-/

namespace LaunchFile.Scope

/-- How one scope of a lineage becomes the next. -/
inductive Change where
  | addRemap (source target : String)
  | pushNamespace (name : String)
  | enterNode (fullName : String)
  | setCondition (condition : Bool)
  | setMachine (name : String)
  | setFile (file : Path)
  | setEnv (name value : String)
  | setArg (name : String) (binding : ArgBinding)

def Change.apply (s : Scope) : Change → Scope
  | .addRemap source target => s.addRemap source target
  | .pushNamespace name => s.pushNamespace name
  | .enterNode fullName => s.enterNode fullName
  | .setCondition condition => s.setCondition condition
  | .setMachine name => s.setMachine name
  | .setFile file => s.setFile file
  | .setEnv name value => s.setEnv name value
  | .setArg name binding => s.setArg name binding

/-- The last scope of a lineage. -/
def changed (s : Scope) (changes : List Change) : Scope :=
  changes.foldl Change.apply s

/-- A source and a target under the names that they have in this scope. -/
def resolvePair (s : Scope) (pair : String × String) : String × String :=
  (s.resolveName pair.1, s.resolveName pair.2)

/-- The pairs that are added along a lineage, each under the names that it has there. -/
def addedPairs (s : Scope) : List Change → List (String × String)
  | [] => []
  | .addRemap source target :: rest =>
    s.resolvePair (source, target) :: (s.addRemap source target).addedPairs rest
  | change :: rest => (change.apply s).addedPairs rest

variable {s : Scope} {pairs : List (String × String)}

/-- A pair that is added takes the place of the one of its source. -/
theorem remaps_addRemap (h : s.remaps = lastOfEach Prod.fst pairs) (source target : String) :
    (s.addRemap source target).remaps =
      lastOfEach Prod.fst (pairs ++ [s.resolvePair (source, target)]) := by
  rw [lastOfEach_concat, ← h]
  rfl

/-- **Of the pairs that are added along a lineage the last of each source stays.** -/
theorem remaps_changed (h : s.remaps = lastOfEach Prod.fst pairs) (changes : List Change) :
    (s.changed changes).remaps = lastOfEach Prod.fst (pairs ++ s.addedPairs changes) := by
  induction changes generalizing s pairs with
  | nil => rwa [addedPairs, List.append_nil]
  | cons change rest ih =>
    cases change with
    | addRemap source target =>
      rw [addedPairs, List.append_cons]
      exact ih (remaps_addRemap h source target)
    | _ => exact ih h

end LaunchFile.Scope
