import LaunchFile.Memo
import LaunchFile.Substitution.Resolve

/-!
# Substitution/Cache — attribute texts that come again

Launch files repeat their attribute texts. A cache holds the segments of the texts read last; texts
that cannot be read are not held, and look-ups are held whether they found something or not.
-/

namespace LaunchFile

/-- The result of splitting a text into segments. -/
abbrev ParseResult := Except SubstitutionError (List Segment)

abbrev ParseCache := Memo String ParseResult

namespace ParseCache

/-- The number of texts held. -/
def capacity : Nat := 1024

def start : ParseCache :=
  .empty (some capacity)

def parse (c : ParseCache) (text : String) : ParseResult × ParseCache :=
  c.ask Segment.parse Except.isOk text

/-- The segments of one text after the other. -/
def parseAll (c : ParseCache) (texts : List String) : List ParseResult :=
  c.askAll Segment.parse Except.isOk texts

/-- The values of one text after the other, in one scope and with one registry. -/
def evaluateAll (scope : Scope) (look : Lookups) :
    ParseCache → AnonRegistry → List String → List (Except SubstitutionError String)
  | _, _, [] => []
  | c, registry, text :: rest =>
    let (found, c) := c.parse text
    let evaluated : ResolveM String := do
      let segments ← found
      Segment.resolveAll scope look segments
    let (value, registry) := evaluated.run registry
    value :: evaluateAll scope look c registry rest

end ParseCache

/-- Look-ups of variables and packages that are held for the length of a run. -/
structure LookupCache where
  env : Memo String (Option String)
  find : Memo String (Option String)

namespace LookupCache

def start : LookupCache :=
  ⟨.empty none, .empty none⟩

def askEnv (c : LookupCache) (look : Lookups) (name : String) : Option String × LookupCache :=
  let (value, env) := c.env.ask look.env (fun _ => true) name
  (value, { c with env })

def askPackage (c : LookupCache) (look : Lookups) (name : String) : Option String × LookupCache :=
  let (path, find) := c.find.ask look.find (fun _ => true) name
  (path, { c with find })

end LookupCache

/-! ## Both -/

/-- What was read and looked up before. -/
structure Caches where
  parsed : ParseCache
  lookups : LookupCache

/-- Variables and packages that are looked up only where the caches do not know. -/
structure CachedLookups where
  look : Lookups

instance : Answers CachedLookups (AnonRegistry × Caches) where
  parse _ text := fun (registry, caches) =>
    let (found, parsed) := caches.parsed.parse text
    (found, registry, { caches with parsed })
  env cached name := fun (registry, caches) =>
    let (value, lookups) := caches.lookups.askEnv cached.look name
    (value, registry, { caches with lookups })
  find cached package := fun (registry, caches) =>
    let (path, lookups) := caches.lookups.askPackage cached.look package
    (path, registry, { caches with lookups })
  anon _ seed := fun (registry, caches) =>
    let (name, registry) := registry.resolve seed
    (name, registry, caches)

end LaunchFile
