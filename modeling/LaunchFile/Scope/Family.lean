import LaunchFile.Scope.Anon
import LaunchFile.Scope.Basic

/-!
# Scope/Family — scopes that share registries of made-up names

Scopes derived from one another use one registry, so that a seed has one name among all of them. A
family numbers its scopes and its registries in the order in which they were made; a member is a
scope together with the number of its registry.
-/

namespace LaunchFile

structure Member where
  scope : Scope
  registry : Nat
  deriving DecidableEq, Repr, Inhabited

structure ScopeFamily where
  members : List Member
  registries : List AnonRegistry
  deriving DecidableEq, Repr, Inhabited

namespace ScopeFamily

/-- One root scope with a registry of its own. -/
def start : ScopeFamily :=
  ⟨[⟨Scope.root, 0⟩], [.empty]⟩

def member (f : ScopeFamily) (index : Nat) : Member :=
  f.members.getD index ⟨Scope.root, 0⟩

def registryOf (f : ScopeFamily) (index : Nat) : AnonRegistry :=
  f.registries.getD (f.member index).registry .empty

/-- Add a scope that uses the registry of member `index`. -/
def derive (f : ScopeFamily) (index : Nat) (scope : Scope) : ScopeFamily :=
  { f with members := f.members ++ [⟨scope, (f.member index).registry⟩] }

/-- An empty registry whose suffixes lie far from those of the other registries. -/
def freshRegistry (f : ScopeFamily) : AnonRegistry :=
  { AnonRegistry.empty with next := f.registries.length * Nat.pow 2 32 }

/-- Add a scope with a registry of its own. -/
def addFresh (f : ScopeFamily) (scope : Scope) : ScopeFamily :=
  ⟨f.members ++ [⟨scope, f.registries.length⟩], f.registries ++ [f.freshRegistry]⟩

/-- The name of a seed for member `index`. -/
def anon (f : ScopeFamily) (index : Nat) (seed : String) : String × ScopeFamily :=
  let (name, registry) := (f.registryOf index).resolve seed
  (name, { f with registries := f.registries.set (f.member index).registry registry })

def shares (f : ScopeFamily) (one other : Nat) : Bool :=
  (f.member one).registry == (f.member other).registry

end ScopeFamily
end LaunchFile
