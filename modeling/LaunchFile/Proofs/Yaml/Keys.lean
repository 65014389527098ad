import LaunchFile.Yaml.Value
import Mathlib.Data.List.Basic

/-!
# Proofs/Yaml/Keys — documents have no two equal keys

A mapping is read entry by entry, and a key that equals an earlier one of it is refused. So no
mapping of a document has two equal keys, however deep it stands and whichever aliases repeat it
(`distinctKeys_of_parse`).
-/

namespace LaunchFile.Yaml

variable {v : Value} {entries found : List (Value × Value)} {items rest : List Item}

/-! ## The mappings of a value -/

/-- The value has a mapping with these entries in it, but not in a key. -/
inductive Value.HasMapping (entries : List (Value × Value)) : Value → Prop where
  | here : HasMapping entries (.map entries)
  | item {values : List Value} {value : Value} (hmem : value ∈ values)
    (h : HasMapping entries value) : HasMapping entries (.seq values)
  | entry {others : List (Value × Value)} {other : Value × Value} (hmem : other ∈ others)
    (h : HasMapping entries other.2) : HasMapping entries (.map others)
  | tagged {tag : String} {value : Value} (h : HasMapping entries value) :
    HasMapping entries (.tagged tag value)

/-- All mappings of the value have the property. -/
def Value.AllMappings (P : List (Value × Value) → Prop) (v : Value) : Prop :=
  ∀ entries, v.HasMapping entries → P entries

/-- No key equals an earlier one. -/
def DistinctKeys (entries : List (Value × Value)) : Prop :=
  (entries.map Prod.fst).Pairwise fun key later => later.same key = false

variable {P : List (Value × Value) → Prop}

namespace Value

/-- All mappings in a sequence are those in its items. -/
theorem allMappings_seq {values : List Value} :
    (seq values).AllMappings P ↔ ∀ value ∈ values, value.AllMappings P := by
  constructor
  · exact fun h value hvalue entries hentries => h entries (.item hvalue hentries)
  · rintro h entries (_ | ⟨hmem, hentries⟩)
    exact h _ hmem entries hentries

/-- All mappings in a mapping are itself and those in its values. -/
theorem allMappings_map :
    (map entries).AllMappings P ↔ P entries ∧ ∀ entry ∈ entries, entry.2.AllMappings P := by
  constructor
  · exact fun h => ⟨h entries .here, fun e he others hothers => h others (.entry he hothers)⟩
  · rintro ⟨hentries, h⟩ others (_ | _ | ⟨hmem, hothers⟩)
    · exact hentries
    · exact h _ hmem others hothers

/-- A tag holds what is inside of it. -/
theorem allMappings_tagged {tag : String} : (tagged tag v).AllMappings P ↔ v.AllMappings P := by
  constructor
  · exact fun h entries hentries => h entries (.tagged hentries)
  · rintro h entries (_ | _ | _ | hentries)
    exact h entries hentries

/-- A value without parts. -/
def IsScalar : Value → Prop
  | .seq _ | .map _ | .tagged .. => False
  | _ => True

/-- A value in a mapping is smaller than it. -/
theorem sizeOf_lt_of_mem {entry : Value × Value} (h : entry ∈ entries) :
    sizeOf entry.2 < sizeOf (map entries) := by
  have hentry := List.sizeOf_lt_of_mem h
  obtain ⟨key, value⟩ := entry
  rw [Prod.mk.sizeOf_spec] at hentry
  rw [map.sizeOf_spec]
  dsimp only
  omega

/-- Induction into collections and tags, but not into keys. -/
theorem induction {motive : Value → Prop} (scalar : ∀ v, v.IsScalar → motive v)
    (seq : ∀ values, (∀ value ∈ values, motive value) → motive (.seq values))
    (map : ∀ entries, (∀ entry ∈ entries, motive entry.2) → motive (.map entries))
    (tagged : ∀ tag value, motive value → motive (.tagged tag value)) : ∀ v, motive v
  | .null | .bool _ | .int _ | .float _ | .str _ => scalar _ trivial
  | .seq values => seq values fun value _ => induction scalar seq map tagged value
  | .map entries => map entries fun entry _ => induction scalar seq map tagged entry.2
  | .tagged tag value => tagged tag value (induction scalar seq map tagged value)
termination_by v => sizeOf v
decreasing_by
  · rename_i hmem
    have hvalue := List.sizeOf_lt_of_mem hmem
    rw [Value.seq.sizeOf_spec]
    omega
  · exact sizeOf_lt_of_mem (by assumption)
  · rw [Value.tagged.sizeOf_spec]
    omega

/-- A scalar holds no mapping. -/
theorem IsScalar.allMappings (h : v.IsScalar) : v.AllMappings P := by
  rintro entries (_ | _ | _ | _) <;> cases h

/-- A mapping of scalars holds no other. -/
theorem allMappings_map_of_isScalar (h : ∀ entry ∈ entries, entry.2.IsScalar) :
    (map entries).AllMappings P ↔ P entries := by
  rw [allMappings_map]
  exact and_iff_left fun entry hentry => (h entry hentry).allMappings

end Value

/-! ## Scalars -/

/-- A whole number is a scalar. -/
theorem isScalar_of_wholeNumber {n : Int} (h : wholeNumber n = some (some v)) : v.IsScalar := by
  unfold wholeNumber at h
  split at h
  · cases h
    trivial
  · split at h <;> cases h

/-- A plain scalar without a tag is a scalar value. -/
theorem isScalar_of_untagged? {s : String} (h : untagged? s = some v) : v.IsScalar := by
  unfold untagged? at h
  split at h
  · cases h
    trivial
  split at h
  · cases h
    trivial
  cases hinteger : integer? s.toList <;> rw [hinteger] at h <;>
    obtain ⟨_ | value, hwhole, h⟩ := Option.bind_eq_some_iff.1 h <;> dsimp only at h
  case none.none | some.none =>
    split at h
    · cases h
      trivial
    · split at h <;> cases h <;> trivial
  case none.some => cases hwhole
  case some.some =>
    cases h
    exact isScalar_of_wholeNumber hwhole

/-- A scalar is one whatever tag it has. -/
theorem isScalar_of_scalar? {tag : Option Tag} {text : String} {plain : Bool}
    (h : scalar? tag text plain = some v) : v.IsScalar := by
  unfold scalar? at h
  split at h
  · split at h
    · exact isScalar_of_untagged? h
    · cases h
      trivial
  split at h
  · obtain ⟨b, -, rfl⟩ := Option.map_eq_some_iff.1 h
    trivial
  split at h
  · obtain ⟨n, -, h⟩ := Option.bind_eq_some_iff.1 h
    obtain ⟨value, hwhole, rfl⟩ := Option.bind_eq_some_iff.1 h
    exact isScalar_of_wholeNumber hwhole
  split at h
  · obtain ⟨x, -, rfl⟩ := Option.map_eq_some_iff.1 h
    trivial
  split at h
  · obtain ⟨-, h⟩ := Option.ite_none_right_eq_some.1 h
    cases h
    trivial
  split at h
  · exact isScalar_of_untagged? h
  · cases h
    trivial

/-! ## Collections -/

/-- Wrapping in a tag adds no mapping. -/
theorem allMappings_wrap (tag : Option Tag) (v : Value) :
    (wrap tag v).AllMappings P ↔ v.AllMappings P := by
  unfold wrap
  split
  · exact Value.allMappings_tagged
  · rfl

/-- A reader of nodes whose values have distinct keys. -/
def Reader.IsDistinct (inside : Reader) : Prop :=
  ∀ ⦃items jumps value rest count⦄, inside items jumps = some (value, rest, count) →
    value.AllMappings DistinctKeys

variable {inside : Reader} {turns jumps count : Nat}

/-- The items of a collection have distinct keys. -/
theorem allMappings_of_elements? {values : List Value} (hinside : inside.IsDistinct)
    (h : elements? inside turns items jumps = some (values, rest, count)) :
    ∀ value ∈ values, value.AllMappings DistinctKeys := by
  fun_induction elements? inside turns items jumps generalizing values with
  | case1 => cases h
  | case2 =>
    cases h
    nofun
  | case3 turns items jumps _ ih =>
    obtain ⟨⟨value, _, _⟩, hvalue, h⟩ := Option.bind_eq_some_iff.1 h
    obtain ⟨⟨others, _, _⟩, hothers, h⟩ := Option.bind_eq_some_iff.1 h
    cases h
    exact List.forall_mem_cons.2 ⟨hinside hvalue, ih _ _ hothers⟩

/-- The keys of a mapping are distinct from what was seen before, and from one another. -/
theorem distinctKeys_of_entries? {seen : List Value} (hinside : inside.IsDistinct)
    (h : entries? inside seen turns items jumps = some (found, rest, count)) :
    (∀ key ∈ seen, ∀ entry ∈ found, entry.1.same key = false) ∧ DistinctKeys found ∧
      ∀ entry ∈ found, entry.2.AllMappings DistinctKeys := by
  fun_induction entries? inside seen turns items jumps generalizing found with
  | case1 => cases h
  | case2 =>
    cases h
    exact ⟨fun _ _ => nofun, .nil, nofun⟩
  | case3 seen turns items jumps _ ih =>
    obtain ⟨⟨key, _, _⟩, hkey, h⟩ := Option.bind_eq_some_iff.1 h
    obtain ⟨hnew, h⟩ := Option.ite_none_left_eq_some.1 h
    obtain ⟨⟨value, _, _⟩, hvalue, h⟩ := Option.bind_eq_some_iff.1 h
    obtain ⟨⟨others, _, _⟩, hothers, h⟩ := Option.bind_eq_some_iff.1 h
    cases h
    obtain ⟨hseen, hdistinct, hvalues⟩ := ih _ _ _ hothers
    rw [List.any_eq_true] at hnew
    refine ⟨fun earlier hearlier => List.forall_mem_cons.2 ⟨?_, ?_⟩, ?_, ?_⟩
    · by_contra hsame
      exact hnew ⟨earlier, hearlier, by simpa using hsame⟩
    · exact hseen earlier (List.mem_cons_of_mem _ hearlier)
    · exact List.pairwise_cons.2 ⟨List.forall_mem_map.2 (hseen key List.mem_cons_self), hdistinct⟩
    · exact List.forall_mem_cons.2 ⟨hinside hvalue, hvalues⟩

/-- A node that is no reference has distinct keys. -/
theorem allMappings_of_plainNode? {inside : Option Reader}
    (hinside : ∀ reader ∈ inside, reader.IsDistinct)
    (h : plainNode? inside items jumps = some (v, rest, count)) : v.AllMappings DistinctKeys := by
  unfold plainNode? at h
  split at h
  · obtain ⟨value, hvalue, h⟩ := Option.bind_eq_some_iff.1 h
    cases h
    exact (allMappings_wrap _ _).2 (isScalar_of_scalar? hvalue).allMappings
  · obtain ⟨reader, hreader, h⟩ := Option.bind_eq_some_iff.1 h
    obtain ⟨⟨values, _, _⟩, hvalues, h⟩ := Option.bind_eq_some_iff.1 h
    cases h
    exact (allMappings_wrap _ _).2
      (Value.allMappings_seq.2 (allMappings_of_elements? (hinside reader hreader) hvalues))
  · obtain ⟨reader, hreader, h⟩ := Option.bind_eq_some_iff.1 h
    obtain ⟨⟨found, _, _⟩, hfound, h⟩ := Option.bind_eq_some_iff.1 h
    cases h
    obtain ⟨-, hkeys, hvalues⟩ := distinctKeys_of_entries? (hinside reader hreader) hfound
    exact (allMappings_wrap _ _).2 (Value.allMappings_map.2 ⟨hkeys, hvalues⟩)
  · cases h

/-! ## Documents -/

/-- An alias stands for a node of the document, which is read in its place. -/
theorem Document.isDistinct_nodeWith? (d : Document) {inside : Option Reader}
    (hinside : ∀ reader ∈ inside, reader.IsDistinct) : (d.nodeWith? inside).IsDistinct := by
  intro items jumps value rest count h
  unfold nodeWith? at h
  split at h
  · obtain ⟨-, h⟩ := Option.ite_none_left_eq_some.1 h
    obtain ⟨start, -, h⟩ := Option.bind_eq_some_iff.1 h
    obtain ⟨⟨found, _, _⟩, hfound, h⟩ := Option.bind_eq_some_iff.1 h
    cases h
    exact allMappings_of_plainNode? hinside hfound
  · exact allMappings_of_plainNode? hinside h

/-- **The nodes of a document have distinct keys**, however deep they are looked into. -/
theorem Document.isDistinct_node? (d : Document) (depth : Nat) : (d.node? depth).IsDistinct := by
  induction depth with
  | zero => exact d.isDistinct_nodeWith? nofun
  | succ depth ih => exact d.isDistinct_nodeWith? fun reader hreader => Option.some.inj hreader ▸ ih

/-- **No mapping of a document has two equal keys.** -/
theorem distinctKeys_of_parse {text : String} (h : parse text = some v) :
    v.AllMappings DistinctKeys := by
  obtain ⟨document, -, h⟩ := Option.bind_eq_some_iff.1 h
  split at h
  · cases h
    exact Value.IsScalar.allMappings trivial
  · obtain ⟨⟨value, _, _⟩, hvalue, h⟩ := Option.bind_eq_some_iff.1 h
    cases h
    exact document.isDistinct_node? maxNesting hvalue

end LaunchFile.Yaml
