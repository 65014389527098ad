import LaunchFile.Substitution.Cache

/-!
# Proofs/Memo — answers from a memo

All that a memo of a function holds are answers of that function (`IsFaithful`), whatever it was
asked for and whatever it has dropped since, and so it answers as the function does.
-/

namespace LaunchFile

namespace Memo

variable {α β : Type} [BEq α] [LawfulBEq α] {f : α → β} {keeps : β → Bool} {m : Memo α β}

/-- All answers that are held are the function's own. -/
def IsFaithful (f : α → β) (m : Memo α β) : Prop :=
  ∀ entry ∈ m.entries, entry.2 = f entry.1

omit [BEq α] [LawfulBEq α] in
/-- A memo that holds nothing is right about everything. -/
theorem isFaithful_empty (f : α → β) (capacity : Option Nat) : (empty capacity).IsFaithful f :=
  nofun

omit [BEq α] [LawfulBEq α] in
/-- Trimming a memo only drops answers. -/
theorem trimmed_subset (capacity : Option Nat) (entries : List (α × β)) :
    trimmed capacity entries ⊆ entries := by
  cases capacity with
  | none => exact fun _ => id
  | some n => exact List.take_subset n entries

namespace IsFaithful

omit [LawfulBEq α] in
/-- An answer that is kept is the function's own. -/
theorem keep (h : m.IsFaithful f) (key : α) : (m.keep key (f key)).IsFaithful f := by
  intro entry hentry
  rcases List.mem_cons.1 (trimmed_subset _ _ hentry) with rfl | hentry
  · rfl
  · exact h entry (List.mem_filter.1 hentry).1

/-- What is found is what the function says. -/
theorem eq_of_get? (h : m.IsFaithful f) {key : α} {answer : β} (hget : m.get? key = some answer) :
    answer = f key := by
  obtain ⟨entry, hfind, rfl⟩ := Option.map_eq_some_iff.1 hget
  have hkey := List.find?_some hfind
  rw [h entry (List.mem_of_find?_eq_some hfind), eq_of_beq hkey]

/-- **A memo answers as the function does and stays faithful**, whichever answers it keeps. -/
theorem ask (h : m.IsFaithful f) (keeps : β → Bool) (key : α) :
    (m.ask f keeps key).1 = f key ∧ (m.ask f keeps key).2.IsFaithful f := by
  unfold Memo.ask
  split
  · rename_i answer hget
    obtain rfl := h.eq_of_get? hget
    exact ⟨rfl, h.keep key⟩
  · refine ⟨rfl, ?_⟩
    dsimp only
    split
    · exact h.keep key
    · exact h

/-- Keys that are asked one after the other are answered as by the function. -/
theorem askAll (keeps : β → Bool) : ∀ {m : Memo α β}, m.IsFaithful f → ∀ keys : List α,
    m.askAll f keeps keys = keys.map f
  | _, _, [] => rfl
  | m, h, key :: keys => by
    obtain ⟨hanswer, hbehind⟩ := h.ask keeps key
    show (m.ask f keeps key).1 :: (m.ask f keeps key).2.askAll f keeps keys = _
    rw [hanswer, hbehind.askAll keeps keys, List.map_cons]

end IsFaithful
end Memo

/-! ## Texts and look-ups -/

/-- Texts are split as if nothing were held. -/
theorem ParseCache.start_parseAll (texts : List String) :
    ParseCache.start.parseAll texts = texts.map Segment.parse :=
  (Memo.isFaithful_empty _ _).askAll _ texts

/-- A question about a variable or about a package. -/
inductive LookupQuery where
  | env (name : String)
  | find (package : String)

/-- What the collaborators themselves say. -/
def Lookups.answer (look : Lookups) : LookupQuery → Option String
  | .env name => look.env name
  | .find package => look.find package

namespace LookupCache

/-- The answer to a question, and the cache behind it. -/
def answer (c : LookupCache) (look : Lookups) : LookupQuery → Option String × LookupCache
  | .env name => c.askEnv look name
  | .find package => c.askPackage look package

/-- The answers to questions that come one after the other. -/
def answerAll (look : Lookups) : LookupCache → List LookupQuery → List (Option String)
  | _, [] => []
  | c, query :: rest =>
    let (found, c) := c.answer look query
    found :: answerAll look c rest

/-- All look-ups that are held are what the collaborators say. -/
structure IsFaithful (look : Lookups) (c : LookupCache) : Prop where
  env : c.env.IsFaithful look.env
  find : c.find.IsFaithful look.find

/-- A cache at the start holds nothing. -/
theorem isFaithful_start (look : Lookups) : start.IsFaithful look :=
  ⟨Memo.isFaithful_empty _ _, Memo.isFaithful_empty _ _⟩

/-- A variable is answered as the environment says. -/
theorem IsFaithful.askEnv {c : LookupCache} {look : Lookups} (h : c.IsFaithful look)
    (name : String) : (c.askEnv look name).1 = look.env name ∧
      (c.askEnv look name).2.IsFaithful look :=
  have hask := h.env.ask (fun _ => true) name
  ⟨hask.1, hask.2, h.find⟩

/-- A package is answered as the search says. -/
theorem IsFaithful.askPackage {c : LookupCache} {look : Lookups} (h : c.IsFaithful look)
    (package : String) : (c.askPackage look package).1 = look.find package ∧
      (c.askPackage look package).2.IsFaithful look :=
  have hask := h.find.ask (fun _ => true) package
  ⟨hask.1, h.env, hask.2⟩

/-- Either question is answered as the collaborators do. -/
theorem IsFaithful.answer {c : LookupCache} {look : Lookups} (h : c.IsFaithful look)
    (query : LookupQuery) : (c.answer look query).1 = look.answer query ∧
      (c.answer look query).2.IsFaithful look := by
  cases query with
  | env name => exact h.askEnv name
  | find package => exact h.askPackage package

/-- **Questions that come one after the other are answered as if nothing were held.** -/
theorem IsFaithful.answerAll {look : Lookups} : ∀ {c : LookupCache}, c.IsFaithful look →
    ∀ queries : List LookupQuery, c.answerAll look queries = queries.map look.answer
  | _, _, [] => rfl
  | c, h, query :: queries => by
    obtain ⟨hanswer, hbehind⟩ := h.answer query
    show (c.answer look query).1 :: (c.answer look query).2.answerAll look queries = _
    rw [hanswer, hbehind.answerAll queries, List.map_cons]

end LookupCache
end LaunchFile
