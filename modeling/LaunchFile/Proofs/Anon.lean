import LaunchFile.Scope.Family
import Mathlib.Algebra.Group.Nat.Defs
import Mathlib.Data.List.Nodup
import Mathlib.Data.List.Perm.Subperm

/-!
# Proofs/Anon — made-up names stand for one seed each

A name that is made up is one that no seed has yet (`isUsed_fresh`): what is drawn is tried until it
is, and of the numbers one more than there are names is enough, as no two of them have one
candidate. So seeds and names stay in one-to-one correspondence, and what was recorded once stays
(`Reaches.get?`). Two resolutions that one registry is kept through agree in their names just if
they do in their seeds (`resolve_eq_iff`).
-/

namespace LaunchFile.AnonRegistry

/-! ## Numbers as suffixes -/

/-- The number that a hexadecimal digit stands for. -/
def digitValue (c : Char) : Nat :=
  if c.isDigit then c.toNat - '0'.toNat else c.toNat - 'a'.toNat + 10

/-- The value of digits to the base sixteen. -/
def hexValue (digits : List Char) : Nat :=
  digits.foldl (fun value c => 16 * value + digitValue c) 0

/-- A digit more is a factor of sixteen and the digit. -/
theorem hexValue_concat (digits : List Char) (c : Char) :
    hexValue (digits ++ [c]) = 16 * hexValue digits + digitValue c := by
  rw [hexValue, List.foldl_append]
  rfl

theorem digitValue_digitChar : ∀ n < 16, digitValue (Nat.digitChar n) = n := by
  decide

/-- The digits of a number have it as their value. -/
theorem hexValue_toDigits (n : Nat) : hexValue (Nat.toDigits 16 n) = n := by
  induction n using Nat.strongRecOn with
  | ind n ih =>
    by_cases hn : n < 16
    · have hdigit : hexValue [Nat.digitChar n] = digitValue (Nat.digitChar n) := by
        simp [hexValue]
      rw [Nat.toDigits_of_lt_base hn, hdigit, digitValue_digitChar n hn]
    · have hless : n / 16 < n := by omega
      rw [Nat.toDigits_of_base_le (by decide) (Nat.not_lt.1 hn), hexValue_concat, ih _ hless,
        digitValue_digitChar _ (Nat.mod_lt _ (by decide))]
      omega

theorem hexValue_replicate_zero_append (count : Nat) (digits : List Char) :
    hexValue (List.replicate count '0' ++ digits) = hexValue digits := by
  induction count with
  | zero => rfl
  | succ count ih =>
    rw [List.replicate_succ, ← ih]
    rfl

/-- No two numbers have one suffix, however they are padded. -/
theorem suffix_injective : Function.Injective suffix := fun m n h => by
  have hvalue := congrArg hexValue h
  rwa [suffix, suffix, hexValue_replicate_zero_append, hexValue_replicate_zero_append,
    hexValue_toDigits, hexValue_toDigits] at hvalue

/-- Digits are written with letters that graph names may hold. -/
theorem isForeign_of_mem_toDigits (n : Nat) : ∀ c ∈ Nat.toDigits 16 n, isForeign c = false := by
  have hdigit : ∀ d < 16, isForeign (Nat.digitChar d) = false := by decide
  induction n using Nat.strongRecOn with
  | ind n ih =>
    by_cases hn : n < 16
    · rw [Nat.toDigits_of_lt_base hn]
      exact List.forall_mem_singleton.2 (hdigit n hn)
    · have hless : n / 16 < n := by omega
      rw [Nat.toDigits_of_base_le (by decide) (Nat.not_lt.1 hn)]
      refine List.forall_mem_append.2 ⟨ih _ hless, List.forall_mem_singleton.2 ?_⟩
      exact hdigit _ (Nat.mod_lt _ (by decide))

/-- A suffix is written as it is. -/
theorem sanitized_suffix (n : Nat) : sanitized (suffix n) = suffix n := by
  have hforeign : ∀ c ∈ suffix n, isForeign c = false := fun c hc => by
    rcases List.mem_append.1 hc with hzero | hdigit
    · exact List.eq_of_mem_replicate hzero ▸ by decide
    · exact isForeign_of_mem_toDigits n c hdigit
  refine (List.map_congr_left fun c hc => ?_).trans (List.map_id _)
  rw [hforeign c hc]
  rfl

/-- **No two numbers have one candidate.** -/
theorem candidate_suffix_injective (process : Nat) (seed : String) :
    Function.Injective fun n => candidate process seed (suffix n) := fun m n h => by
  have hsanitized : ∀ n, sanitized (seed.toList ++ '_' :: (toString process).toList ++
      '_' :: suffix n) = sanitized (seed.toList ++ '_' :: (toString process).toList ++
        ['_']) ++ suffix n := fun n => by
    rw [List.append_cons, sanitized, List.map_append]
    exact congrArg _ (sanitized_suffix n)
  have hchars : (candidate process seed (suffix m)).toList =
      (candidate process seed (suffix n)).toList :=
    congrArg String.toList h
  rw [candidate, candidate, String.toList_ofList, String.toList_ofList, hsanitized,
    hsanitized] at hchars
  exact suffix_injective (List.append_cancel_left hchars)

/-! ## Fresh names -/

variable {r r' r'' : AnonRegistry} {seed other name : String}

/-- A name is used if some seed has it. -/
theorem isUsed_iff : r.isUsed name = true ↔ name ∈ r.names.map Prod.snd := by
  simp [isUsed]

/-- A name that is drawn is not used by any seed. -/
theorem isUsed_of_drawn? : ∀ {row rest : List (List Char)},
    r.drawn? seed row = some (name, rest) → r.isUsed name = false
  | [], _, h => by cases h
  | suffix :: row, rest, h => by
    rw [drawn?] at h
    split at h
    · exact isUsed_of_drawn? h
    · rename_i hunused
      obtain ⟨rfl, rfl⟩ := Prod.mk.inj (Option.some.inj h)
      exact Bool.eq_false_iff.2 hunused

/-- If the name that stands in the end is used, all that were tried are. -/
theorem isUsed_of_counted : ∀ {tries n : Nat}, r.isUsed (r.counted seed tries n).1 = true →
    ∀ k ≤ tries, r.isUsed (candidate r.process seed (suffix (n + k))) = true
  | 0, n, h, k, hk => by
    obtain rfl : k = 0 := Nat.le_zero.1 hk
    exact h
  | tries + 1, n, h, k, hk => by
    rw [counted] at h
    split at h
    · rename_i hused
      cases k with
      | zero => exact hused
      | succ k =>
        rw [show n + (k + 1) = n + 1 + k by omega]
        exact isUsed_of_counted h k (Nat.le_of_succ_le_succ hk)
    · contradiction

/-- **One number more than there are names is enough.** -/
theorem isUsed_counted (n : Nat) : r.isUsed (r.counted seed r.names.length n).1 = false := by
  refine Bool.eq_false_iff.2 fun hused => ?_
  let tried := (List.range (r.names.length + 1)).map fun k =>
    candidate r.process seed (suffix (n + k))
  have hnodup : tried.Nodup :=
    List.nodup_range.map ((candidate_suffix_injective r.process seed).comp (add_right_injective n))
  have hsubset : tried ⊆ r.names.map Prod.snd := fun name hname => by
    obtain ⟨k, hk, rfl⟩ := List.mem_map.1 hname
    exact isUsed_iff.1 (isUsed_of_counted hused k (Nat.le_of_lt_succ (List.mem_range.1 hk)))
  have hlength := (hnodup.subperm hsubset).length_le
  simp only [tried, List.length_map, List.length_range] at hlength
  omega

/-- **A name that is made up is one that no seed has yet.** -/
theorem isUsed_fresh (r : AnonRegistry) (seed : String) : r.isUsed (r.fresh seed).1 = false := by
  rw [fresh]
  split
  · rename_i hdrawn
    exact isUsed_of_drawn? hdrawn
  · exact isUsed_counted r.next

/-- Drawing a name records nothing. -/
theorem names_fresh (r : AnonRegistry) (seed : String) : (r.fresh seed).2.names = r.names := by
  rw [fresh]
  split <;> rfl

/-! ## Resolutions -/

/-- A seed that has a name keeps it. -/
theorem resolve_of_get? (h : r.get? seed = some name) : r.resolve seed = (name, r) := by
  rw [resolve, h]

/-- A seed without a name gets one and is recorded with it. -/
theorem resolve_of_get?_none (h : r.get? seed = none) :
    r.resolve seed = ((r.fresh seed).1,
      { (r.fresh seed).2 with names := (seed, (r.fresh seed).1) :: r.names }) := by
  rw [resolve, h, ← names_fresh r seed]

/-- Seeds and names in one-to-one correspondence. -/
structure IsInjective (r : AnonRegistry) : Prop where
  seeds : (r.names.map Prod.fst).Nodup
  names : (r.names.map Prod.snd).Nodup

/-- Without names, no two seeds share one. -/
theorem isInjective_of_names (h : r.names = []) : r.IsInjective := by
  constructor <;> rw [h] <;> exact List.nodup_nil

theorem mem_of_get? (h : r.get? seed = some name) : (seed, name) ∈ r.names := by
  obtain ⟨entry, hfound, rfl⟩ := Option.map_eq_some_iff.1 h
  have hseed := List.find?_some hfound
  exact eq_of_beq hseed ▸ List.mem_of_find?_eq_some hfound

/-- A seed has no name if it is not recorded. -/
theorem get?_eq_none_iff : r.get? seed = none ↔ seed ∉ r.names.map Prod.fst := by
  rw [get?, Option.map_eq_none_iff, List.find?_eq_none]
  simp only [List.mem_map, not_exists, not_and, beq_iff_eq]

/-- **A resolution gives no name twice.** -/
theorem IsInjective.resolve (h : r.IsInjective) (seed : String) :
    (r.resolve seed).2.IsInjective := by
  cases hget : r.get? seed with
  | some name => rwa [resolve_of_get? hget]
  | none =>
    rw [resolve_of_get?_none hget]
    refine ⟨List.nodup_cons.2 ⟨get?_eq_none_iff.1 hget, h.seeds⟩,
      List.nodup_cons.2 ⟨fun hmem => ?_, h.names⟩⟩
    have hused := isUsed_fresh r seed
    rw [isUsed_iff.2 hmem] at hused
    cases hused

/-- Two seeds with one name are one seed. -/
theorem IsInjective.eq_of_get? (h : r.IsInjective) (hseed : r.get? seed = some name)
    (hother : r.get? other = some name) : seed = other :=
  congrArg Prod.fst (List.inj_on_of_nodup_map h.names (mem_of_get? hseed) (mem_of_get? hother) rfl)

/-- A seed that was resolved has the name that it was given. -/
theorem get?_resolve_self (r : AnonRegistry) (seed : String) :
    (r.resolve seed).2.get? seed = some (r.resolve seed).1 := by
  cases hget : r.get? seed with
  | some name => rwa [resolve_of_get? hget]
  | none =>
    rw [resolve_of_get?_none hget]
    simp [get?]

/-- What is recorded stays when another seed is resolved. -/
theorem get?_resolve (h : r.get? other = some name) (seed : String) :
    (r.resolve seed).2.get? other = some name := by
  cases hget : r.get? seed with
  | some _ => rwa [resolve_of_get? hget]
  | none =>
    have hne : seed ≠ other := fun heq => Option.some_ne_none name (h.symm.trans (heq ▸ hget))
    rw [resolve_of_get?_none hget]
    simpa [get?, hne] using h

/-! ## Sequences -/

/-- The registry behind the resolutions of some seeds. -/
def after (r : AnonRegistry) (seeds : List String) : AnonRegistry :=
  seeds.foldl (fun r seed => (r.resolve seed).2) r

/-- A registry becomes another one by resolutions alone. -/
def Reaches (r r' : AnonRegistry) : Prop :=
  ∃ seeds, r' = r.after seeds

namespace Reaches

/-- No resolution at all. -/
theorem refl (r : AnonRegistry) : r.Reaches r :=
  ⟨[], rfl⟩

theorem trans (h : r.Reaches r') (h' : r'.Reaches r'') : r.Reaches r'' := by
  obtain ⟨seeds, rfl⟩ := h
  obtain ⟨seeds', rfl⟩ := h'
  exact ⟨seeds ++ seeds', (List.foldl_append ..).symm⟩

/-- One resolution more. -/
theorem resolve (h : r.Reaches r') (seed : String) : r.Reaches (r'.resolve seed).2 :=
  h.trans ⟨[seed], rfl⟩

/-- What each resolution keeps, a sequence of them does. -/
theorem induction {P : AnonRegistry → Prop} (hP : ∀ r seed, P r → P (r.resolve seed).2)
    (h : r.Reaches r') (hr : P r) : P r' := by
  obtain ⟨seeds, rfl⟩ := h
  induction seeds generalizing r with
  | nil => exact hr
  | cons seed rest ih => exact ih (hP r seed hr)

/-- **What was recorded once stays.** -/
theorem get? (h : r.Reaches r') (hget : r.get? seed = some name) : r'.get? seed = some name :=
  h.induction (P := fun r => r.get? seed = some name) (fun _ other h => get?_resolve h other) hget

/-- Names that were made up are still there later. -/
theorem length_names_le (h : r.Reaches r') : r.names.length ≤ r'.names.length := by
  refine h.induction (P := fun r' => r.names.length ≤ r'.names.length) (fun r' seed hr => ?_)
    (Nat.le_refl _)
  cases hget : r'.get? seed with
  | some name => rwa [resolve_of_get? hget]
  | none =>
    rw [resolve_of_get?_none hget]
    exact Nat.le_succ_of_le hr

/-- Names stay apart. -/
theorem isInjective (h : r.Reaches r') (hr : r.IsInjective) : r'.IsInjective :=
  h.induction (fun _ seed h => h.resolve seed) hr

end Reaches

/-- **Of two resolutions, the later names a seed as the earlier did just if it is the same one.** -/
theorem resolve_eq_iff (hr : r.IsInjective) (h : (r.resolve seed).2.Reaches r') :
    (r'.resolve other).1 = (r.resolve seed).1 ↔ other = seed := by
  have hearlier := h.get? (get?_resolve_self r seed)
  constructor
  · intro hname
    have hlater := get?_resolve_self r' other
    have hinjective := (h.resolve other).isInjective (hr.resolve seed)
    exact hinjective.eq_of_get? (hname ▸ hlater) (get?_resolve hearlier other)
  · rintro rfl
    rw [resolve_of_get? hearlier]

/-! ## Suffixes -/

/-- The name of a seed, which is the seed itself as long as it has none. -/
def nameOf (r : AnonRegistry) (seed : String) : String :=
  (r.get? seed).getD seed

/-- A registry of this process, in which every name is one of the given or made up from its seed and
a suffix. -/
structure IsMadeUp (process : Nat) (given : List (String × String)) (r : AnonRegistry) : Prop where
  process_eq : r.process = process
  name : ∀ seed name, r.get? seed = some name →
    (seed, name) ∈ given ∨ ∃ suffix, name = candidate process seed suffix

/-- What is drawn from a row is made up with one of its suffixes. -/
theorem exists_suffix_of_drawn? : ∀ {row rest : List (List Char)},
    r.drawn? seed row = some (name, rest) → ∃ suffix, name = candidate r.process seed suffix
  | [], _, h => by cases h
  | suffix :: row, rest, h => by
    rw [drawn?] at h
    split at h
    · exact exists_suffix_of_drawn? h
    · exact ⟨suffix, (congrArg Prod.fst (Option.some.inj h)).symm⟩

/-- What is counted up to is made up with a number as its suffix. -/
theorem exists_suffix_counted : ∀ tries n,
    ∃ suffix, (r.counted seed tries n).1 = candidate r.process seed suffix
  | 0, n => ⟨suffix n, rfl⟩
  | tries + 1, n => by
    rw [counted]
    split
    · exact exists_suffix_counted tries (n + 1)
    · exact ⟨suffix n, rfl⟩

/-- A new name is made up from its seed and some suffix. -/
theorem exists_suffix_fresh (r : AnonRegistry) (seed : String) :
    ∃ suffix, (r.fresh seed).1 = candidate r.process seed suffix := by
  rw [fresh]
  split
  · exact exists_suffix_of_drawn? ‹_›
  · exact exists_suffix_counted _ _

/-- The process stays the same. -/
theorem process_fresh (r : AnonRegistry) (seed : String) :
    (r.fresh seed).2.process = r.process := by
  rw [fresh]
  split <;> rfl

/-- A resolution does not change the process. -/
theorem process_resolve (r : AnonRegistry) (seed : String) :
    (r.resolve seed).2.process = r.process := by
  cases hget : r.get? seed with
  | some name => rw [resolve_of_get? hget]
  | none =>
    rw [resolve_of_get?_none hget]
    exact process_fresh r seed

/-- A name behind a resolution was there before or is the new one. -/
theorem get?_resolve_cases (h : (r.resolve seed).2.get? other = some name) :
    r.get? other = some name ∨ other = seed ∧ name = (r.fresh seed).1 := by
  cases hget : r.get? seed with
  | some _ =>
    rw [resolve_of_get? hget] at h
    exact .inl h
  | none =>
    rw [resolve_of_get?_none hget] at h
    by_cases hseed : seed = other
    · right
      simpa [get?, hseed, eq_comm] using h
    · left
      simpa [get?, hseed] using h

/-- One resolution more makes up at most one name. -/
theorem IsMadeUp.resolve {process : Nat} {given : List (String × String)}
    (h : r.IsMadeUp process given) (seed : String) :
    (r.resolve seed).2.IsMadeUp process given := by
  refine ⟨(process_resolve r seed).trans h.process_eq, fun other name hother => ?_⟩
  rcases get?_resolve_cases hother with hold | ⟨rfl, rfl⟩
  · exact h.name other name hold
  · exact .inr (h.process_eq ▸ exists_suffix_fresh r other)

/-- **Made-up names are made up in the process of the registry**, and the others were given. -/
theorem Reaches.isMadeUp (h : r.Reaches r') : r'.IsMadeUp r.process r.names :=
  h.induction (fun _ seed h => h.resolve seed) ⟨rfl, fun _ _ hget => .inl (mem_of_get? hget)⟩

end LaunchFile.AnonRegistry
