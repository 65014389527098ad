/-!
# Scope/Anon — made-up names, one for each seed of a run

A registry holds the name of every seed it was asked for and makes up a name for a new seed: the
seed, the number of the process and a suffix, with `.`, `-` and `:` written as `_`. Suffixes are
drawn in order, first those of a row and then the numbers; one whose name another seed has already
is passed over.
-/

namespace LaunchFile

/-- The names of the seeds of a run, and where those of further seeds come from. -/
structure AnonRegistry where
  names : List (String × String)
  /-- The number of the process, which is part of every made-up name. -/
  process : Nat
  /-- The suffixes to be drawn next, whatever they are; behind them come the numbers. -/
  ahead : List (List Char)
  /-- The first number that was not drawn. -/
  next : Nat
  deriving DecidableEq, Repr, Inhabited

namespace AnonRegistry

/-- No names yet, in the process of this number. -/
def empty (process : Nat := 1) : AnonRegistry :=
  ⟨[], process, [], 0⟩

/-! ## Names -/

/-- Characters that no graph name holds. -/
def isForeign (c : Char) : Bool :=
  c == '.' || c == '-' || c == ':'

/-- The text as graph names have it. -/
def sanitized (cs : List Char) : List Char :=
  cs.map fun c => if isForeign c then '_' else c

/-- Number `n` as a suffix: sixteen hexadecimal digits. -/
def suffix (n : Nat) : List Char :=
  let digits := Nat.toDigits 16 n
  List.replicate (16 - digits.length) '0' ++ digits

/-- The name of a seed with this suffix. -/
def candidate (process : Nat) (seed : String) (suffix : List Char) : String :=
  String.ofList (sanitized
    (seed.toList ++ '_' :: (toString process).toList ++ '_' :: suffix))

/-! ## Look-up -/

/-- The name that a seed has, if it has one. -/
def get? (r : AnonRegistry) (seed : String) : Option String :=
  (r.names.find? fun entry => entry.1 == seed).map Prod.snd

/-- Whether some seed has this name. -/
def isUsed (r : AnonRegistry) (name : String) : Bool :=
  r.names.any fun entry => entry.2 == name

/-! ## Drawing -/

/-- The first candidate of a row of suffixes that is unused, and the suffixes behind it. -/
def drawn? (r : AnonRegistry) (seed : String) :
    List (List Char) → Option (String × List (List Char))
  | [] => none
  | suffix :: rest =>
    let name := candidate r.process seed suffix
    if r.isUsed name then drawn? r seed rest else some (name, rest)

/-- The first candidate from number `n` on that is unused, and the number after it; the last one
tried stands if all are used. -/
def counted (r : AnonRegistry) (seed : String) : Nat → Nat → String × Nat
  | 0, n => (candidate r.process seed (suffix n), n + 1)
  | tries + 1, n =>
    let name := candidate r.process seed (suffix n)
    if r.isUsed name then counted r seed tries (n + 1) else (name, n + 1)

/-- A name that no seed has yet. No two numbers have one candidate, so that one more of them than
there are names is enough. -/
def fresh (r : AnonRegistry) (seed : String) : String × AnonRegistry :=
  match r.drawn? seed r.ahead with
  | some (name, ahead) => (name, { r with ahead })
  | none =>
    let (name, next) := r.counted seed r.names.length r.next
    (name, { r with ahead := [], next })

/-- The name of a seed, made up on first use. -/
def resolve (r : AnonRegistry) (seed : String) : String × AnonRegistry :=
  match r.get? seed with
  | some name => (name, r)
  | none =>
    let (name, r) := r.fresh seed
    (name, { r with names := (seed, name) :: r.names })

end AnonRegistry
end LaunchFile
