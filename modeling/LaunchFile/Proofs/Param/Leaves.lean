import LaunchFile.Param.Spec
import LaunchFile.Proofs.GraphName.Reroot
import Mathlib.Data.List.Nodup

/-!
# Proofs/Param/Leaves — a value and the leaves that it is set as

The leaves of a value stand in it under the keys that lead to them (`ParamValue.leaves`). Unfolding
the value under a name lists these leaves, each under that name with its keys behind it, and so
within the name, whatever the keys are (`isWithin_of_mem_unfold`). Where keys are segments of names
and differ from one another, so do the names of leaves, and no two values have the same leaves
(`leaves_inj`).
-/

namespace LaunchFile

/-! ## Names within others -/

namespace GraphName

variable {base name : String}

/-- A name in absolute form that is another one or lies below it. -/
structure IsWithin (base name : String) : Prop where
  isAbsolute : IsAbsolute name
  segments : segmentsOf base <+: segmentsOf name

/-- Joining a key stays within the base. -/
theorem IsWithin.join (h : IsWithin base name) (key : String) :
    IsWithin base (GraphName.join name key) where
  isAbsolute := isAbsolute_join name key
  segments := by
    rw [segmentsOf_join]
    exact h.segments.trans (List.prefix_append _ _)

/-- A name is within itself. -/
theorem IsWithin.refl (h : IsAbsolute name) : IsWithin name name :=
  ⟨h, List.prefix_rfl⟩

/-- What is within a name is that name itself or begins with it and a slash. -/
theorem IsWithin.eq_or_isBelow (h : IsWithin base name) (hbase : IsAbsolute base)
    (hroot : base ≠ "/") : name = base ∨ isBelow base name = true := by
  obtain ⟨more, hmore⟩ := h.segments
  cases more with
  | nil => exact .inl (h.isAbsolute.ext hbase (hmore ▸ List.append_nil _))
  | cons piece more =>
    exact .inr ((isBelow_iff hbase hroot h.isAbsolute).2 ⟨_, List.cons_ne_nil _ _, hmore.symm⟩)

/-- What the names below a name begin with: that name and a slash, which the root is already. -/
def stem (base : String) : String :=
  if base = "/" then "/" else base ++ "/"

/-- A name within a base is the base, or begins with it and a slash. -/
theorem IsWithin.eq_or_begins (h : IsWithin base name) (hbase : IsAbsolute base) :
    name = base ∨ (stem base).toList <+: name.toList := by
  by_cases hroot : base = "/"
  · rw [hroot, h.isAbsolute.toList_eq]
    exact .inr ⟨_, rfl⟩
  · rw [stem, if_neg hroot, String.toList_append]
    refine (h.eq_or_isBelow hbase hroot).imp_right fun hbelow => ?_
    exact List.isPrefixOf_iff_prefix.1 hbelow

/-! ## Keys behind a name -/

/-- A name with keys behind it, one after the other. -/
def joinAll (base : String) (keys : List String) : String :=
  keys.foldl join base

/-- The segments of joined keys come one after the other. -/
theorem segmentsOf_joinAll (base : String) (keys : List String) :
    segmentsOf (joinAll base keys) = segmentsOf base ++ keys.flatMap segmentsOf := by
  induction keys generalizing base with
  | nil => rw [joinAll, List.foldl_nil, List.flatMap_nil, List.append_nil]
  | cons key keys ih =>
    rw [joinAll, List.foldl_cons, ← joinAll, ih, segmentsOf_join, List.flatMap_cons,
      List.append_assoc]

/-- Joining several keys stays within the base. -/
theorem IsWithin.joinAll (h : IsWithin base name) (keys : List String) :
    IsWithin base (joinAll name keys) := by
  induction keys generalizing name with
  | nil => exact h
  | cons key keys ih => exact ih (h.join key)

/-- The segments that a name has behind another. -/
def keysBehind (base name : String) : List String :=
  ((segmentsOf name).drop (segmentsOf base).length).map String.ofList

/-- **Keys that are segments are read off the name** that they lead to. -/
theorem keysBehind_joinAll (base : String) {keys : List String}
    (h : ∀ key ∈ keys, IsSegment key.toList) : keysBehind base (joinAll base keys) = keys := by
  have hsegments : keys.flatMap segmentsOf = keys.map String.toList := by
    rw [List.map_eq_flatMap]
    exact List.flatMap_congr fun key hkey => segments_of_isSegment (h key hkey)
  rw [keysBehind, segmentsOf_joinAll, List.drop_left, hsegments, List.map_map]
  exact (List.map_congr_left fun key _ => String.ofList_toList).trans (List.map_id keys)

end GraphName

namespace ParamValue

variable {base : String} {value : ParamValue} {entries : List (String × ParamValue)}

/-! ## Leaves -/

/-- A leaf is anything but a mapping with entries. -/
def IsLeaf (value : ParamValue) : Prop :=
  ∀ entry rest, value ≠ .map (entry :: rest)

/-- A leaf as it stands in a mapping that holds its value under a key. -/
def under (key : String) (leaf : List String × ParamValue) : List String × ParamValue :=
  (key :: leaf.1, leaf.2)

mutual

/-- The leaves of a value in depth-first order, each with the keys that lead to it. -/
def leaves : ParamValue → List (List String × ParamValue)
  | .map [] => [([], .map [])]
  | .map ((key, value) :: rest) => value.leaves.map (under key) ++ leavesOfEntries rest
  | value => [([], value)]

/-- The leaves of some entries, each under its key. -/
def leavesOfEntries : List (String × ParamValue) → List (List String × ParamValue)
  | [] => []
  | (key, value) :: rest => value.leaves.map (under key) ++ leavesOfEntries rest

end

/-- The keys down to the leaves are segments of names, and distinct in each mapping. -/
inductive HasPlainKeys : ParamValue → Prop where
  | leaf {value : ParamValue} (h : value.IsLeaf) : HasPlainKeys value
  | map {entries : List (String × ParamValue)} (hdistinct : (entries.map Prod.fst).Nodup)
    (hsegments : ∀ entry ∈ entries, GraphName.IsSegment entry.1.toList)
    (hvalues : ∀ entry ∈ entries, HasPlainKeys entry.2) : HasPlainKeys (.map entries)

/-- A value in a mapping is smaller than it. -/
theorem sizeOf_lt_of_mem {entry : String × ParamValue} (h : entry ∈ entries) :
    sizeOf entry.2 < sizeOf (map entries) := by
  have hentry := List.sizeOf_lt_of_mem h
  obtain ⟨key, value⟩ := entry
  rw [Prod.mk.sizeOf_spec] at hentry
  rw [map.sizeOf_spec]
  dsimp only
  omega

/-- Induction along the mappings of a value, down to its leaves. -/
theorem induction {motive : ParamValue → Prop} (leaf : ∀ value, IsLeaf value → motive value)
    (map : ∀ entries, entries ≠ [] → (∀ entry ∈ entries, motive entry.2) → motive (.map entries)) :
    ∀ value, motive value
  | .map [] => leaf _ nofun
  | .map (entry :: rest) => map _ (List.cons_ne_nil _ _) fun e _ => induction leaf map e.2
  | .str _ | .int _ | .float _ | .bool _ | .list _ | .binary _ | .command _ => leaf _ nofun
termination_by value => sizeOf value
decreasing_by exact sizeOf_lt_of_mem (by assumption)

/-- A leaf is its only leaf. -/
theorem IsLeaf.leaves_eq (h : value.IsLeaf) : value.leaves = [([], value)] := by
  unfold leaves
  split
  · rfl
  · exact absurd rfl (h _ _)
  · rfl

/-- A leaf is unfolded to itself. -/
theorem IsLeaf.unfold_eq (h : value.IsLeaf) (base : String) :
    value.unfold base = [(base, value)] := by
  unfold unfold
  split
  · rfl
  · exact absurd rfl (h _ _)
  · rfl

/-- The leaves of entries are those of each entry, under its key. -/
theorem leavesOfEntries_eq_flatMap (entries : List (String × ParamValue)) :
    leavesOfEntries entries = entries.flatMap fun entry => entry.2.leaves.map (under entry.1) := by
  induction entries with
  | nil => rfl
  | cons entry rest ih => rw [leavesOfEntries, ih, List.flatMap_cons]

theorem leaves_map_eq (h : entries ≠ []) : leaves (.map entries) = leavesOfEntries entries := by
  obtain ⟨entry, rest, rfl⟩ := List.exists_cons_of_ne_nil h
  rw [leaves, leavesOfEntries]

/-- A leaf of some entries is a leaf of one of them. -/
theorem mem_leavesOfEntries {leaf : List String × ParamValue} :
    leaf ∈ leavesOfEntries entries ↔
      ∃ entry ∈ entries, ∃ inner ∈ entry.2.leaves, under entry.1 inner = leaf := by
  simp only [leavesOfEntries_eq_flatMap, List.mem_flatMap, List.mem_map]

/-- A mapping is unfolded entry by entry, below its name. -/
theorem unfold_map_eq (h : entries ≠ []) (base : String) : unfold base (.map entries) =
    entries.flatMap fun entry => entry.2.unfold (GraphName.join base entry.1) := by
  have hentries (rest : List (String × ParamValue)) : unfoldEntries base rest =
      rest.flatMap fun entry => entry.2.unfold (GraphName.join base entry.1) := by
    induction rest with
    | nil => rfl
    | cons entry rest ih => rw [unfoldEntries, ih, List.flatMap_cons]
  obtain ⟨entry, rest, rfl⟩ := List.exists_cons_of_ne_nil h
  rw [unfold, hentries, List.flatMap_cons]

/-- **Unfolding lists the leaves**, each under the name with its keys behind it. -/
theorem unfold_eq (value : ParamValue) : ∀ base : String, value.unfold base =
    value.leaves.map fun leaf => (GraphName.joinAll base leaf.1, leaf.2) := by
  induction value using induction with
  | leaf value h => exact fun base => by rw [h.unfold_eq, h.leaves_eq]; rfl
  | map entries hne ih =>
    intro base
    rw [unfold_map_eq hne, leaves_map_eq hne, leavesOfEntries_eq_flatMap, List.map_flatMap]
    refine List.flatMap_congr fun entry hentry => ?_
    rw [ih entry hentry, List.map_map]
    rfl

/-- **The leaves of a value are within the name that it is set under.** -/
theorem isWithin_of_mem_unfold (value : ParamValue) {name : String}
    (hname : GraphName.IsWithin base name) : ∀ leaf ∈ value.unfold name,
      GraphName.IsWithin base leaf.1 := by
  rw [unfold_eq]
  intro leaf hleaf
  obtain ⟨found, -, rfl⟩ := List.mem_map.1 hleaf
  exact hname.joinAll found.1

/-- What is listed are leaves. -/
theorem isLeaf_of_mem_leaves (value : ParamValue) : ∀ leaf ∈ value.leaves, IsLeaf leaf.2 := by
  induction value using induction with
  | leaf value h =>
    rw [h.leaves_eq]
    exact fun leaf hleaf => List.mem_singleton.1 hleaf ▸ h
  | map entries hne ih =>
    rw [leaves_map_eq hne]
    intro leaf hleaf
    obtain ⟨entry, hentry, inner, hinner, rfl⟩ := mem_leavesOfEntries.1 hleaf
    exact ih entry hentry inner hinner

/-- Every value has a leaf. -/
theorem leaves_ne_nil (value : ParamValue) : value.leaves ≠ [] := by
  induction value using induction with
  | leaf value h => exact h.leaves_eq ▸ List.cons_ne_nil _ _
  | map entries hne ih =>
    obtain ⟨entry, rest, rfl⟩ := List.exists_cons_of_ne_nil hne
    rw [leaves]
    refine List.append_ne_nil_of_left_ne_nil ?_ _
    exact mt List.map_eq_nil_iff.1 (ih entry List.mem_cons_self)

/-! ## Plain keys -/

namespace HasPlainKeys

/-- The keys of a mapping are plain at each depth. -/
theorem of_map (h : HasPlainKeys (.map entries)) : (entries.map Prod.fst).Nodup ∧
    (∀ entry ∈ entries, GraphName.IsSegment entry.1.toList) ∧
      ∀ entry ∈ entries, HasPlainKeys entry.2 := by
  cases h with
  | leaf h =>
    cases entries with
    | nil => exact ⟨List.nodup_nil, nofun, nofun⟩
    | cons entry rest => exact absurd rfl (h entry rest)
  | map hdistinct hsegments hvalues => exact ⟨hdistinct, hsegments, hvalues⟩

/-- All keys on the way to a leaf are segments. -/
theorem isSegment (h : value.HasPlainKeys) :
    ∀ leaf ∈ value.leaves, ∀ key ∈ leaf.1, GraphName.IsSegment key.toList := by
  induction value using induction with
  | leaf value hleaf =>
    rw [hleaf.leaves_eq]
    exact fun leaf hmem => List.mem_singleton.1 hmem ▸ nofun
  | map entries hne ih =>
    obtain ⟨-, hsegments, hvalues⟩ := h.of_map
    rw [leaves_map_eq hne]
    intro leaf hleaf
    obtain ⟨entry, hentry, inner, hinner, rfl⟩ := mem_leavesOfEntries.1 hleaf
    exact List.forall_mem_cons.2
      ⟨hsegments entry hentry, ih entry hentry (hvalues entry hentry) inner hinner⟩

/-- **No two leaves stand under the same keys.** -/
theorem nodup_leaves (h : value.HasPlainKeys) : (value.leaves.map Prod.fst).Nodup := by
  induction value using induction with
  | leaf value hleaf =>
    rw [hleaf.leaves_eq]
    exact List.nodup_singleton _
  | map entries hne ih =>
    obtain ⟨hdistinct, -, hvalues⟩ := h.of_map
    have hkeys (entry : String × ParamValue) : (entry.2.leaves.map (under entry.1)).map Prod.fst =
        (entry.2.leaves.map Prod.fst).map (entry.1 :: ·) := by
      rw [List.map_map, List.map_map]
      rfl
    rw [leaves_map_eq hne, leavesOfEntries_eq_flatMap, List.map_flatMap, List.nodup_flatMap]
    refine ⟨fun entry hentry => ?_, ?_⟩
    · rw [hkeys]
      exact (ih entry hentry (hvalues entry hentry)).map List.cons_injective
    · rw [List.Nodup, List.pairwise_map] at hdistinct
      refine hdistinct.imp fun {entry other} hne keys hmem hmem' => ?_
      simp only [hkeys] at hmem hmem'
      obtain ⟨_, -, rfl⟩ := List.mem_map.1 hmem
      obtain ⟨_, -, hother⟩ := List.mem_map.1 hmem'
      exact hne (List.cons.inj hother).1.symm

end HasPlainKeys

/-! ## Values from their leaves -/

/-- Paths below one key differ where they did before. -/
theorem under_injective (key : String) : Function.Injective (under key) := fun _ _ h =>
  Prod.ext (List.cons.inj (Prod.mk.inj h).1).2 (Prod.mk.inj h).2

/-- The leaves of the first entry are those whose keys begin with its key. -/
theorem leaves_append_inj {key : String} {value value' : ParamValue}
    {rest rest' : List (List String × ParamValue)}
    (hrest : ∀ leaf ∈ rest, leaf.1.head? ≠ some key)
    (hrest' : ∀ leaf ∈ rest', leaf.1.head? ≠ some key)
    (h : value.leaves.map (under key) ++ rest = value'.leaves.map (under key) ++ rest') :
    value.leaves = value'.leaves ∧ rest = rest' := by
  have hfirst (value : ParamValue) {rest : List (List String × ParamValue)}
      (hrest : ∀ leaf ∈ rest, leaf.1.head? ≠ some key) :
      (value.leaves.map (under key) ++ rest).filter (fun leaf => leaf.1.head? == some key) =
        value.leaves.map (under key) := by
    have hnone : rest.filter (fun leaf => leaf.1.head? == some key) = [] :=
      List.filter_eq_nil_iff.2 fun leaf hleaf => by simpa using hrest leaf hleaf
    rw [List.filter_append, hnone, List.append_nil, List.filter_eq_self]
    intro leaf hleaf
    obtain ⟨found, -, rfl⟩ := List.mem_map.1 hleaf
    exact beq_self_eq_true _
  have heq : value.leaves.map (under key) = value'.leaves.map (under key) := by
    rw [← hfirst value hrest, h, hfirst value' hrest']
  exact ⟨List.map_injective_iff.2 (under_injective key) heq, List.append_cancel_left (heq ▸ h)⟩

/-- No leaf of the other entries has the key of the first one. -/
theorem head?_ne_of_nodup {key : String} {rest : List (String × ParamValue)}
    (h : key ∉ rest.map Prod.fst) : ∀ leaf ∈ leavesOfEntries rest, leaf.1.head? ≠ some key := by
  intro leaf hleaf hkey
  obtain ⟨entry, hentry, inner, -, rfl⟩ := mem_leavesOfEntries.1 hleaf
  exact h (Option.some.inj hkey ▸ List.mem_map_of_mem hentry)

/-- Entries with distinct keys have the leaves of no others, if this is so of their values. -/
theorem leavesOfEntries_inj : ∀ {entries entries' : List (String × ParamValue)},
    (entries.map Prod.fst).Nodup → (entries'.map Prod.fst).Nodup →
    (∀ entry ∈ entries, ∀ entry' ∈ entries', entry.2.leaves = entry'.2.leaves →
      entry.2 = entry'.2) →
    leavesOfEntries entries = leavesOfEntries entries' → entries = entries'
  | [], [], _, _, _, _ => rfl
  | [], (key, value) :: rest, _, _, _, h =>
    absurd (List.append_eq_nil_iff.1 h.symm).1 (mt List.map_eq_nil_iff.1 value.leaves_ne_nil)
  | (key, value) :: rest, [], _, _, _, h =>
    absurd (List.append_eq_nil_iff.1 h).1 (mt List.map_eq_nil_iff.1 value.leaves_ne_nil)
  | (key, value) :: rest, (key', value') :: rest', hkeys, hkeys', hvalues, h => by
    rw [leavesOfEntries, leavesOfEntries] at h
    obtain rfl : key = key' := by
      obtain ⟨leaf, leaves, hleaves⟩ := List.exists_cons_of_ne_nil value.leaves_ne_nil
      obtain ⟨leaf', leaves', hleaves'⟩ := List.exists_cons_of_ne_nil value'.leaves_ne_nil
      rw [hleaves, hleaves'] at h
      exact (List.cons.inj (congrArg Prod.fst (List.cons.inj h).1)).1
    rw [List.map_cons, List.nodup_cons] at hkeys hkeys'
    obtain ⟨hvalue, hrest⟩ :=
      leaves_append_inj (head?_ne_of_nodup hkeys.1) (head?_ne_of_nodup hkeys'.1) h
    have hsame : value = value' := hvalues _ List.mem_cons_self _ List.mem_cons_self hvalue
    have htails := leavesOfEntries_inj hkeys.2 hkeys'.2 (fun entry hentry entry' hentry' =>
      hvalues entry (List.mem_cons_of_mem _ hentry) entry' (List.mem_cons_of_mem _ hentry')) hrest
    rw [hsame, htails]

/-- What is no leaf is a mapping that is not empty. -/
theorem exists_map_of_not_isLeaf (h : ¬value.IsLeaf) :
    ∃ entries, entries ≠ [] ∧ value = .map entries := by
  simp only [IsLeaf, not_forall, Classical.not_not] at h
  obtain ⟨entry, rest, rfl⟩ := h
  exact ⟨_, List.cons_ne_nil entry rest, rfl⟩

/-- A leaf stands under no keys, and the leaves of a mapping under some. -/
theorem IsLeaf.leaves_ne (h : value.IsLeaf) (entries : List (String × ParamValue)) :
    value.leaves ≠ leavesOfEntries entries := by
  intro heq
  have hmem : ([], value) ∈ leavesOfEntries entries :=
    heq ▸ h.leaves_eq ▸ List.mem_cons_self
  obtain ⟨entry, -, inner, -, hunder⟩ := mem_leavesOfEntries.1 hmem
  cases hunder

/-- **Values with plain keys and the same leaves are the same.** -/
theorem HasPlainKeys.leaves_inj {value value' : ParamValue} (h : value.HasPlainKeys)
    (h' : value'.HasPlainKeys) (heq : value.leaves = value'.leaves) : value = value' := by
  induction value using induction generalizing value' with
  | leaf value hleaf =>
    by_cases hleaf' : value'.IsLeaf
    · rw [hleaf.leaves_eq, hleaf'.leaves_eq] at heq
      exact (Prod.mk.inj (List.cons.inj heq).1).2
    · obtain ⟨entries, hne, rfl⟩ := exists_map_of_not_isLeaf hleaf'
      exact absurd (heq.trans (leaves_map_eq hne)) (hleaf.leaves_ne entries)
  | map entries hne ih =>
    by_cases hleaf' : value'.IsLeaf
    · exact absurd (heq.symm.trans (leaves_map_eq hne)) (hleaf'.leaves_ne entries)
    · obtain ⟨entries', hne', rfl⟩ := exists_map_of_not_isLeaf hleaf'
      rw [leaves_map_eq hne, leaves_map_eq hne'] at heq
      obtain ⟨hkeys, -, hvalues⟩ := h.of_map
      obtain ⟨hkeys', -, hvalues'⟩ := h'.of_map
      rw [leavesOfEntries_inj hkeys hkeys' (fun entry hentry entry' hentry' =>
        ih entry hentry (hvalues entry hentry) (hvalues' entry' hentry')) heq]

/-- With plain keys, the leaves are read off what the value is unfolded to. -/
theorem HasPlainKeys.leaves_eq (h : value.HasPlainKeys) (base : String) :
    value.leaves =
      (value.unfold base).map fun leaf => (GraphName.keysBehind base leaf.1, leaf.2) := by
  rw [unfold_eq, List.map_map]
  refine ((List.map_congr_left fun leaf hleaf => ?_).trans (List.map_id _)).symm
  exact Prod.ext (GraphName.keysBehind_joinAll base (h.isSegment leaf hleaf)) rfl

/-- **Unfolding loses and mixes nothing.** It lists the leaves of a value in depth-first order, as
they are, each under the name with its keys behind it, so that every name is the given one or lies
below it. With plain keys the names are distinct, and no other such value unfolds to the same. -/
theorem unfold_leaves (hbase : GraphName.IsAbsolute base) (value : ParamValue) :
    value.unfold base =
      value.leaves.map (fun leaf => (GraphName.joinAll base leaf.1, leaf.2)) ∧
    (∀ leaf ∈ value.unfold base, leaf.2.IsLeaf ∧
      (leaf.1 = base ∨ (GraphName.stem base).toList <+: leaf.1.toList)) ∧
    (value.HasPlainKeys → ((value.unfold base).map Prod.fst).Nodup ∧
      ∀ value' : ParamValue, value'.HasPlainKeys →
        value'.unfold base = value.unfold base → value' = value) := by
  refine ⟨value.unfold_eq base, fun leaf hleaf => ⟨?_, ?_⟩, fun h => ⟨?_, fun value' h' heq => ?_⟩⟩
  · rw [unfold_eq] at hleaf
    obtain ⟨found, hfound, rfl⟩ := List.mem_map.1 hleaf
    exact isLeaf_of_mem_leaves value found hfound
  · exact (isWithin_of_mem_unfold value (.refl hbase) leaf hleaf).eq_or_begins hbase
  · have hkeys := h.nodup_leaves
    rw [h.leaves_eq base, List.map_map] at hkeys
    exact List.Nodup.of_map (GraphName.keysBehind base) (by rwa [List.map_map])
  · exact h'.leaves_inj h (by rw [h'.leaves_eq base, heq, ← h.leaves_eq base])

/-- A mapping in a mapping, and an empty one, which is a leaf. -/
theorem unfold_leaves_gains :
    let gains : ParamValue := .map [("p", .int 1), ("i", .int 0)]
    let value : ParamValue := .map [("gains", gains), ("off", .map []), ("name", .str "arm")]
    let found : List (String × ParamValue) := [("/ctrl/gains/p", .int 1), ("/ctrl/gains/i", .int 0),
      ("/ctrl/off", .map []), ("/ctrl/name", .str "arm")]
    GraphName.IsAbsolute "/ctrl" ∧ value.HasPlainKeys ∧ value.unfold "/ctrl" = found ∧
      (found.map Prod.fst).Nodup ∧
      (∀ leaf ∈ found, leaf.1 = "/ctrl" ∨ "/ctrl/".toList <+: leaf.1.toList) ∧
      ∀ value' : ParamValue, value'.HasPlainKeys → value'.unfold "/ctrl" = found →
        value' = value := by
  intro gains value found
  have hbase : GraphName.IsAbsolute "/ctrl" := by decide
  have hgains : gains.HasPlainKeys := .map (by decide) (by simp [GraphName.IsSegment])
    (by simp only [List.forall_mem_cons]; exact ⟨.leaf nofun, .leaf nofun, nofun⟩)
  have hvalue : value.HasPlainKeys := .map (by decide) (by simp [GraphName.IsSegment])
    (by simp only [List.forall_mem_cons]; exact ⟨hgains, .leaf nofun, .leaf nofun, nofun⟩)
  have hfound : value.unfold "/ctrl" = found := by cbv
  obtain ⟨-, hleaves, hplain⟩ := unfold_leaves hbase value
  obtain ⟨hnames, hsame⟩ := hplain hvalue
  rw [hfound] at hleaves hnames hsame
  exact ⟨hbase, hvalue, hfound, hnames, fun leaf hleaf => (hleaves leaf hleaf).2, hsame⟩

end ParamValue
end LaunchFile
