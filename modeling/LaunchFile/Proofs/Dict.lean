import LaunchFile.Dict
import Mathlib.Data.List.Induction
import Mathlib.Data.List.Nodup

/-!
# Proofs/Dict — looking up

What is found under a name, in a dictionary whose values were changed or dropped and in one that was
filled pair by pair. As names are distinct, dictionaries that answer alike hold the same entries
(`Dict.Alike`); where also the names stand in the same order, entries may be related one by one
(`Dict.Related`).
-/

namespace LaunchFile

/-! ## Rows -/

namespace Entries

variable {α β : Type}

/-- A key that is not there has no value. -/
theorem get?_eq_none {d : Entries α} {key : String} (h : key ∉ d.keys) : d.get? key = none :=
  Option.eq_none_iff_forall_ne_some.2 fun _ hget => h (mem_keys_of_get? hget)

/-- Changing values leaves keys where they are. -/
theorem get?_map (f : String → α → β) (d : Entries α) (key : String) :
    get? (d.map fun entry => (entry.1, f entry.1 entry.2)) key = (d.get? key).map (f key) := by
  induction d with
  | nil => rfl
  | cons entry rest ih =>
    rw [List.map_cons, get?, get?, ih]
    split
    · rename_i heq
      rw [eq_of_beq heq]
      rfl
    · rfl

/-- Where names are distinct, a value that is dropped is not replaced by another. -/
theorem get?_filterMapValues {d : Entries α} (hkeys : d.keys.Nodup) (f : α → Option β)
    (key : String) : (d.filterMapValues f).get? key = (d.get? key).bind f := by
  induction d with
  | nil => rfl
  | cons entry rest ih =>
    obtain ⟨hentry, hrest⟩ := List.nodup_cons.1 hkeys
    rw [filterMapValues, List.filterMap_cons, ← filterMapValues, get?]
    cases hf : f entry.2 with
    | none =>
      rw [Option.map_none, ih hrest]
      split
      · rename_i heq
        rw [get?_eq_none (eq_of_beq heq ▸ hentry), Option.bind_some, hf]
        rfl
      · rfl
    | some value =>
      rw [Option.map_some]
      dsimp only
      rw [get?, ih hrest]
      split
      · rw [Option.bind_some, hf]
      · rfl

/-- Of the keys that are left, each has its value. -/
theorem get?_filter (p : String → Bool) (d : Entries α) (key : String) :
    get? (d.filter fun entry => p entry.1) key = if p key then d.get? key else none := by
  induction d with
  | nil => simp [get?]
  | cons entry rest ih =>
    obtain ⟨k, v⟩ := entry
    by_cases h : k = key
    · subst h
      by_cases hp : p k <;> simp_all [get?]
    · by_cases hp : p k <;> simp_all [get?]

/-- Of two values under one key the later stays. -/
theorem insert_insert (d : Entries α) (key : String) (value value' : α) :
    (d.insert key value).insert key value' = d.insert key value' := by
  induction d with
  | nil => simp [insert]
  | cons entry rest ih =>
    by_cases hkey : entry.1 = key <;> simp [insert, hkey, ih]

/-- A new key comes behind all others. -/
theorem insert_of_notMem {d : Entries α} {key : String} (h : key ∉ d.keys) (value : α) :
    d.insert key value = d ++ [(key, value)] := by
  induction d with
  | nil => rfl
  | cons entry rest ih =>
    obtain ⟨hentry, hrest⟩ := not_or.1 (mt List.mem_cons.2 h)
    rw [insert, if_neg (mt eq_of_beq (Ne.symm hentry)), ih hrest, List.cons_append]

end Entries

namespace Dict

variable {α β : Type}

/-! ## Dictionaries -/

/-- A dictionary is what its entries are. -/
@[ext]
theorem ext {d d' : Dict α} (h : d.entries = d'.entries) : d = d' := by
  cases d
  cases d'
  cases h
  rfl

/-- Inserting is done on the entries. -/
theorem entries_insert (d : Dict α) (key : String) (value : α) :
    (d.insert key value).entries = d.entries.insert key value :=
  rfl

/-- What is found is an entry. -/
theorem mem_of_get? {d : Dict α} {key : String} {value : α} (h : d.get? key = some value) :
    (key, value) ∈ d.entries :=
  Entries.mem_of_get? h

@[simp]
theorem get?_empty (key : String) : (empty : Dict α).get? key = none :=
  rfl

/-- What was inserted is found. -/
theorem get?_insert_self (d : Dict α) (key : String) (value : α) :
    (d.insert key value).get? key = some value :=
  Entries.get?_insert_self d.entries key value

/-- Other keys are found as before. -/
theorem get?_insert_of_ne (d : Dict α) {key other : String} (value : α) (h : key ≠ other) :
    (d.insert key value).get? other = d.get? other :=
  Entries.get?_insert_of_ne d.entries value h

/-- A new key comes last, and an old one stays in its place. -/
theorem keys_insert (d : Dict α) (key : String) (value : α) :
    (d.insert key value).keys = if key ∈ d.keys then d.keys else d.keys ++ [key] :=
  Entries.keys_insert d.entries key value

/-- Of two values under one key the later stays. -/
theorem insert_insert (d : Dict α) (key : String) (value value' : α) :
    (d.insert key value).insert key value' = d.insert key value' :=
  ext (Entries.insert_insert d.entries key value value')

/-- Values that are changed are found changed. -/
theorem get?_mapValues (f : String → α → β) (d : Dict α) (key : String) :
    (d.mapValues f).get? key = (d.get? key).map (f key) :=
  Entries.get?_map f d.entries key

/-- Only values that are left are found. -/
theorem get?_filterMapValues (f : α → Option β) (d : Dict α) (key : String) :
    (d.filterMapValues f).get? key = (d.get? key).bind f :=
  Entries.get?_filterMapValues d.nodup f key

/-- Only keys that are left are found. -/
theorem get?_filterNames (p : String → Bool) (d : Dict α) (key : String) :
    (d.filterNames p).get? key = if p key then d.get? key else none :=
  Entries.get?_filter p d.entries key

/-! ## Pair by pair -/

/-- One pair more is one value inserted. -/
theorem ofPairs_concat (pairs : Entries α) (pair : String × α) :
    ofPairs (pairs ++ [pair]) = (ofPairs pairs).insert pair.1 pair.2 := by
  rw [ofPairs, List.foldl_append, List.foldl_cons, List.foldl_nil, ← ofPairs]

/-- Pairs with distinct names are entries as they stand. -/
theorem entries_ofPairs {pairs : Entries α} (h : pairs.keys.Nodup) :
    (ofPairs pairs).entries = pairs := by
  induction pairs using List.reverseRecOn with
  | nil => rfl
  | append_singleton pairs pair ih =>
    rw [Entries.keys, List.map_append, List.map_singleton, ← List.concat_eq_append,
      List.nodup_concat] at h
    rw [ofPairs_concat, entries_insert, ih h.2]
    exact Entries.insert_of_notMem h.1 pair.2

/-- **The last pair of a name counts.** -/
theorem get?_ofPairs (pairs : Entries α) (key : String) :
    (ofPairs pairs).get? key = (pairs.reverse.find? (·.1 == key)).map Prod.snd := by
  induction pairs using List.reverseRecOn with
  | nil => rfl
  | append_singleton pairs pair ih =>
    rw [ofPairs_concat, List.reverse_append, List.reverse_singleton, List.singleton_append,
      List.find?_cons]
    obtain ⟨name, value⟩ := pair
    by_cases hkey : name = key
    · rw [hkey, get?_insert_self, beq_self_eq_true]
      rfl
    · rw [get?_insert_of_ne _ _ hkey, ih, beq_eq_false_iff_ne.2 hkey]

/-! ## The same entries -/

/-- The same entries under every name, whatever the order of names. -/
def Alike (d d' : Dict α) : Prop :=
  ∀ key, d'.get? key = d.get? key

namespace Alike

variable {d d' : Dict α}

theorem refl (d : Dict α) : Alike d d :=
  fun _ => rfl

/-- The same keys are there. -/
theorem contains (h : Alike d d') (key : String) : d'.contains key = d.contains key :=
  congrArg Option.isSome (h key)

/-- Inserting the same on both sides keeps them alike. -/
theorem insert (h : Alike d d') (key : String) (value : α) :
    Alike (d.insert key value) (d'.insert key value) := by
  intro other
  by_cases hkey : key = other
  · rw [← hkey, get?_insert_self, get?_insert_self]
  · rw [get?_insert_of_ne _ _ hkey, get?_insert_of_ne _ _ hkey, h]

/-- So does changing values in the same way. -/
theorem mapValues (h : Alike d d') (f : String → α → β) :
    Alike (d.mapValues f) (d'.mapValues f) := fun key => by
  rw [get?_mapValues, get?_mapValues, h]

/-- And so does leaving values out. -/
theorem filterMapValues (h : Alike d d') (f : α → Option β) :
    Alike (d.filterMapValues f) (d'.filterMapValues f) := fun key => by
  rw [get?_filterMapValues, get?_filterMapValues, h]

end Alike

/-! ## Related entries -/

/-- The same names in the same order, with related entries. -/
def Related (R : α → β → Prop) (d : Dict α) (d' : Dict β) : Prop :=
  List.Forall₂ (fun entry entry' => entry'.1 = entry.1 ∧ R entry.2 entry'.2) d.entries d'.entries

namespace Related

variable {R : α → β → Prop} {d : Dict α} {d' : Dict β}

theorem refl {R : α → α → Prop} (hR : ∀ a, R a a) (d : Dict α) : Related R d d :=
  List.forall₂_same.2 fun entry _ => ⟨rfl, hR entry.2⟩

/-- What is found under a key is related, or is there on neither side. -/
theorem get? (h : Related R d d') (key : String) : Option.Rel R (d.get? key) (d'.get? key) := by
  rw [Related] at h
  rw [Dict.get?, Dict.get?]
  generalize d.entries = entries, d'.entries = entries' at h
  induction h with
  | nil => exact .none
  | cons hentry _ ih =>
    obtain ⟨hname, hvalue⟩ := hentry
    rw [Entries.get?, Entries.get?, hname]
    split
    · exact .some hvalue
    · exact ih

/-- Related values may be inserted on both sides. -/
theorem insert (h : Related R d d') (key : String) {value : α} {value' : β}
    (hvalue : R value value') : Related R (d.insert key value) (d'.insert key value') := by
  rw [Related] at h
  rw [Related, entries_insert, entries_insert]
  generalize d.entries = entries, d'.entries = entries' at h
  induction h with
  | nil => exact .cons ⟨rfl, hvalue⟩ .nil
  | cons hentry hrest ih =>
    rw [Entries.insert, Entries.insert, hentry.1]
    split
    · exact .cons ⟨rfl, hvalue⟩ hrest
    · exact .cons ⟨rfl, hentry.2⟩ ih

/-- What is taken from related entries in the same way is the same. -/
theorem filterMap_eq {γ : Type} {f : String × α → Option γ} {f' : String × β → Option γ}
    (h : Related R d d') (hf : ∀ key a b, R a b → f' (key, b) = f (key, a)) :
    d'.entries.filterMap f' = d.entries.filterMap f := by
  rw [Related] at h
  generalize d.entries = entries, d'.entries = entries' at h
  induction h with
  | nil => rfl
  | @cons entry entry' _ _ hentry _ ih =>
    obtain ⟨name, value⟩ := entry'
    obtain ⟨rfl, hvalue⟩ : name = entry.1 ∧ R entry.2 value := hentry
    rw [List.filterMap_cons, List.filterMap_cons, ih, hf _ _ _ hvalue]

/-- Entries are the same once what relates them is left out. -/
theorem map_eq {γ : Type} {f : α → γ} {f' : β → γ} (h : Related R d d')
    (hf : ∀ a b, R a b → f' b = f a) :
    d'.map (fun entry => (entry.1, f' entry.2)) = d.map fun entry => (entry.1, f entry.2) := by
  rw [Dict.map, Dict.map, ← List.filterMap_eq_map', ← List.filterMap_eq_map']
  exact h.filterMap_eq fun key a b hvalue => by rw [hf a b hvalue]

/-- So are entries of which some are left out. -/
theorem filterMapValues_eq {γ : Type} {f : α → Option γ} {f' : β → Option γ} (h : Related R d d')
    (hf : ∀ a b, R a b → f' b = f a) : d'.filterMapValues f' = d.filterMapValues f :=
  ext (h.filterMap_eq fun key a b hvalue => by rw [hf a b hvalue])

end Related
end Dict
end LaunchFile
