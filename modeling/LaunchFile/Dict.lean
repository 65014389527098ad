/-!
# Dict — entries under names, in the order in which the names came

Looking up takes the entry of a name; inserting replaces an entry in its place and puts a new name
at the end. Rows of entries may hold a name twice (`Entries`); in a dictionary names are distinct,
whatever was done to it (`Dict`).
-/

namespace LaunchFile

/-- Entries under names, in a row; of two under one name the first is found. -/
abbrev Entries (α : Type) := List (String × α)

namespace Entries

variable {α β : Type}

/-- The value of the first entry with this key. -/
def get? : Entries α → String → Option α
  | [], _ => none
  | (k, v) :: rest, key => if k == key then some v else get? rest key

/-- Whether there is an entry with this key. -/
def contains (d : Entries α) (key : String) : Bool :=
  (d.get? key).isSome

/-- Put a value in the place of the one that the key has, or behind all others. -/
def insert : Entries α → String → α → Entries α
  | [], key, value => [(key, value)]
  | (k, v) :: rest, key, value =>
    if k == key then (k, value) :: rest else (k, v) :: insert rest key value

/-- The keys in order. -/
def keys (d : Entries α) : List String :=
  d.map Prod.fst

/-- The entries whose values are not dropped. -/
def filterMapValues (f : α → Option β) (d : Entries α) : Entries β :=
  d.filterMap fun entry => (f entry.2).map (entry.1, ·)

/-! ## What inserting does -/

/-- What was inserted is found. -/
theorem get?_insert_self (d : Entries α) (key : String) (value : α) :
    (d.insert key value).get? key = some value := by
  induction d with
  | nil => simp [insert, get?]
  | cons e rest ih =>
    obtain ⟨k, v⟩ := e
    by_cases h : k = key <;> simp [insert, get?, h, ih]

/-- Other keys are found as before. -/
theorem get?_insert_of_ne (d : Entries α) {key other : String} (value : α) (h : key ≠ other) :
    (d.insert key value).get? other = d.get? other := by
  induction d with
  | nil => simp [insert, get?, h]
  | cons e rest ih =>
    obtain ⟨k, v⟩ := e
    by_cases hk : k = key
    · subst hk; simp [insert, get?, h]
    · simp [insert, get?, hk, ih]

/-- A key stays in its place, and a new one comes last. -/
theorem keys_insert (d : Entries α) (key : String) (value : α) :
    (d.insert key value).keys = if key ∈ d.keys then d.keys else d.keys ++ [key] := by
  induction d with
  | nil => simp [insert, keys]
  | cons e rest ih =>
    obtain ⟨k, v⟩ := e
    simp only [keys] at ih ⊢
    by_cases h : k = key
    · simp [insert, h]
    · by_cases hm : key ∈ rest.map Prod.fst <;> simp [insert, h, Ne.symm h, ih, hm]

/-! ## What is found -/

/-- What is found is an entry. -/
theorem mem_of_get? {d : Entries α} {key : String} {value : α} (h : d.get? key = some value) :
    (key, value) ∈ d := by
  induction d with
  | nil => cases h
  | cons entry rest ih =>
    rw [get?] at h
    split at h
    · rename_i heq
      rw [← eq_of_beq heq, ← Option.some.inj h]
      exact List.mem_cons_self
    · exact List.mem_cons_of_mem _ (ih h)

/-- A key that is found is there. -/
theorem mem_keys_of_get? {d : Entries α} {key : String} {value : α}
    (h : d.get? key = some value) : key ∈ d.keys :=
  List.mem_map_of_mem (mem_of_get? h)

/-! ## Distinct names -/

/-- Inserting keeps keys distinct. -/
theorem nodup_keys_insert {d : Entries α} (h : d.keys.Nodup) (key : String) (value : α) :
    (d.insert key value).keys.Nodup := by
  rw [keys_insert]
  split
  · exact h
  · rename_i hnew
    refine List.nodup_append.2
      ⟨h, List.pairwise_singleton _ _, fun name hname other hother heq => ?_⟩
    exact hnew (List.mem_singleton.1 hother ▸ heq ▸ hname)

/-- Leaving entries out keeps the order of keys. -/
theorem keys_filterMapValues (f : α → Option β) (d : Entries α) :
    (d.filterMapValues f).keys.Sublist d.keys := by
  induction d with
  | nil => exact .slnil
  | cons entry rest ih =>
    rw [filterMapValues, List.filterMap_cons]
    cases f entry.2 with
    | none => exact ih.cons entry.1
    | some value => exact ih.cons_cons entry.1

/-- Changing values leaves keys as they are. -/
theorem keys_map (f : String → α → β) (d : Entries α) :
    keys (d.map fun entry => (entry.1, f entry.1 entry.2)) = d.keys := by
  rw [keys, keys, List.map_map]
  rfl

end Entries

/-- Entries under distinct names. -/
structure Dict (α : Type) where
  entries : Entries α
  nodup : entries.keys.Nodup
  deriving DecidableEq, Repr

namespace Dict

variable {α β : Type}

/-- No entries. -/
def empty : Dict α :=
  ⟨[], .nil⟩

instance : Inhabited (Dict α) :=
  ⟨empty⟩

/-- A dictionary stands for its entries where a row of them is wanted. -/
instance : CoeOut (Dict α) (Entries α) :=
  ⟨entries⟩

/-- The value of a key. -/
def get? (d : Dict α) (key : String) : Option α :=
  d.entries.get? key

/-- Whether there is a value for this key. -/
def contains (d : Dict α) (key : String) : Bool :=
  (d.get? key).isSome

/-- The keys in order, each once. -/
def keys (d : Dict α) : List String :=
  d.entries.keys

/-- Put a value under a key. -/
def insert (d : Dict α) (key : String) (value : α) : Dict α :=
  ⟨d.entries.insert key value, Entries.nodup_keys_insert d.nodup key value⟩

/-- The entries of a row of pairs, a later pair standing for an earlier one of its name. -/
def ofPairs (pairs : Entries α) : Dict α :=
  pairs.foldl (fun d (key, value) => d.insert key value) empty

/-- What is made of each entry, in order. -/
def map (d : Dict α) (f : String × α → β) : List β :=
  d.entries.map f

/-- The same names with other values. -/
def mapValues (f : String → α → β) (d : Dict α) : Dict β :=
  ⟨d.entries.map fun entry => (entry.1, f entry.1 entry.2),
    (Entries.keys_map f d.entries).symm ▸ d.nodup⟩

/-- The names whose values are not dropped. -/
def filterMapValues (f : α → Option β) (d : Dict α) : Dict β :=
  ⟨d.entries.filterMapValues f, d.nodup.sublist (Entries.keys_filterMapValues f d.entries)⟩

/-- The entries of these names. -/
def filterNames (p : String → Bool) (d : Dict α) : Dict α :=
  ⟨d.entries.filter fun entry => p entry.1, d.nodup.sublist (List.filter_sublist.map Prod.fst)⟩

end Dict
end LaunchFile
