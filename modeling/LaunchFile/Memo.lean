/-!
# Memo — answers kept for later

A memo keeps answers of a function, the one used last in front, and drops the one at the end when it
grows beyond its capacity. Which answers are worth keeping is up to the user of the memo.
-/

namespace LaunchFile

/-- Kept answers; without a capacity none is ever dropped. -/
structure Memo (α β : Type) where
  entries : List (α × β)
  capacity : Option Nat

namespace Memo

variable {α β : Type} [BEq α]

def empty (capacity : Option Nat) : Memo α β :=
  ⟨[], capacity⟩

def get? (m : Memo α β) (key : α) : Option β :=
  (m.entries.find? (·.1 == key)).map Prod.snd

/-- The entries that fit. -/
def trimmed (capacity : Option Nat) (entries : List (α × β)) : List (α × β) :=
  match capacity with
  | some n => entries.take n
  | none => entries

/-- Put an answer in front. -/
def keep (m : Memo α β) (key : α) (answer : β) : Memo α β :=
  { m with entries := trimmed m.capacity ((key, answer) :: m.entries.filter (! ·.1 == key)) }

/-- Answer from the memo if possible, else ask the function, and keep the answer if `keeps` says
so. -/
def ask (f : α → β) (keeps : β → Bool) (m : Memo α β) (key : α) : β × Memo α β :=
  match m.get? key with
  | some answer => (answer, m.keep key answer)
  | none =>
    let answer := f key
    (answer, if keeps answer then m.keep key answer else m)

/-- Ask for one key after the other. -/
def askAll (f : α → β) (keeps : β → Bool) : Memo α β → List α → List β
  | _, [] => []
  | m, key :: rest =>
    let (answer, m) := m.ask f keeps key
    answer :: askAll f keeps m rest

end Memo
end LaunchFile
