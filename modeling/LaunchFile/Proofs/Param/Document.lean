import LaunchFile.Param.Value
import LaunchFile.Proofs.Decimal.Layout
import LaunchFile.Proofs.Dict
import LaunchFile.Except
import LaunchFile.Proofs.Yaml.Keys

/-!
# Proofs/Param/Document — what the mappings of a document become

A mapping becomes one under the texts of its keys, where an entry takes the place of an earlier one
with the same text. Texts tell numbers and booleans apart (`Spells.same`), but a string key can be
spelled like another key of its mapping. Where none is, each entry is kept with the conversion of
its own value, at every depth; where one is, an entry is lost (`converts_iff_not_respelled`). A text
that is read has no equal keys to begin with, and so needs no more (`converts_iff_of_parseYaml`).
-/

namespace LaunchFile.ParamValue

open Decimal

variable {key key' v : Yaml.Value} {text source : String} {p : ParamValue}
  {entries : List (Yaml.Value × Yaml.Value)} {pairs : List (String × ParamValue)}

/-! ## The texts of keys -/

/-- Keys are written in a layout that can be read back. -/
theorem keyLayout_isLegible : keyLayout.IsLegible where
  word_injective := by
    rintro (_ | _ | _) (_ | _ | _) h <;> first | rfl | exact absurd h (by decide)
  word_unread := by rintro (_ | _ | _) <;> rfl

/-- A key that is no string is written like this. -/
inductive Spells (text : String) : Yaml.Value → Prop where
  | int {n : Int} (h : toString n = text) : Spells text (.int n)
  | float {x : Float} (h : keyLayout.write x = text) : Spells text (.float x)
  | bool {b : Bool} (h : toString b = text) : Spells text (.bool b)

/-- The text of a key is itself, or spells it. -/
theorem keyText_eq_ok_iff : keyText key = .ok text ↔ key = .str text ∨ Spells text key := by
  constructor
  · intro h
    cases key with
    | str s => exact .inl (congrArg _ (Except.ok.inj h))
    | int n => exact .inr (.int (Except.ok.inj h))
    | float x => exact .inr (.float (Except.ok.inj h))
    | bool b => exact .inr (.bool (by cases b <;> exact Except.ok.inj h))
    | null | seq | map | tagged => cases h
  · rintro (rfl | ⟨rfl⟩ | ⟨rfl⟩ | ⟨rfl⟩)
    · rfl
    · rfl
    · rfl
    · rename_i b
      cases b <;> rfl

/-- No whole number is written as a float is. -/
theorem toString_int_ne_write (n : Int) (x : Float) : toString n ≠ keyLayout.write x := by
  intro h
  have hread := readInt?_toString n
  rw [h] at hread
  obtain ⟨special, -, hword⟩ | hnumber := keyLayout.write_cases x
  · have hnone : ∀ special, readInt? (keyLayout.word special).toList = none := by
      rintro (_ | _ | _) <;> rfl
    rw [hword, hnone] at hread
    cases hread
  · rw [hnumber, String.toList_ofList] at hread
    obtain ⟨hpoint, hletter⟩ := not_mark_mem_of_readInt? hread
    obtain hmark | hmark := Layout.mark_mem_finite (l := keyLayout) rfl x
    · exact hpoint (List.mem_append_right _ hmark)
    · exact hletter (List.mem_append_right _ hmark)

/-- No whole number is written as a boolean is. -/
theorem toString_int_ne_bool (n : Int) (b : Bool) : toString n ≠ toString b := by
  intro h
  have hread := readInt?_toString n
  rw [h] at hread
  cases b <;> cases hread

/-- No float is written as a boolean is. -/
theorem write_ne_toString_bool (x : Float) (b : Bool) : keyLayout.write x ≠ toString b := by
  intro h
  obtain ⟨special, -, hword⟩ | hnumber := keyLayout.write_cases x
  · rw [h] at hword
    revert hword
    rcases special with _ | _ | _ <;> cases b <;> decide
  · obtain ⟨s, hs, -⟩ := keyLayout.exists_readSigned? x
    rw [h] at hnumber
    rw [← String.toList_ofList (l := keyLayout.number x), ← hnumber] at hs
    cases b <;> cases hs

/-- **Floats that are written alike are the same key.** -/
theorem sameFloat_of_write_eq {x y : Float} (h : keyLayout.write x = keyLayout.write y) :
    Yaml.sameFloat x y = true := by
  rw [Yaml.sameFloat, Bool.or_eq_true, Bool.and_eq_true]
  obtain hnan | rfl := keyLayout_isLegible.eq_of_write_eq h
  · exact .inl hnan
  · by_cases hnan : x.isNaN = true
    · exact .inl ⟨hnan, hnan⟩
    · exact .inr (beq_self_of_not_isNaN hnan)

/-- **Numbers and booleans that are written alike are the same.** -/
theorem Spells.same (h : Spells text key) (h' : Spells text key') : key.same key' = true := by
  cases h with
  | @int n h =>
    cases h' with
    | @int n' h' =>
      have hread := readInt?_toString n
      rw [h, ← h', readInt?_toString] at hread
      rw [Option.some.inj hread, Yaml.Value.same, beq_self_eq_true]
    | @float x' h' => exact absurd (h.trans h'.symm) (toString_int_ne_write n x')
    | @bool b' h' => exact absurd (h.trans h'.symm) (toString_int_ne_bool n b')
  | @float x h =>
    cases h' with
    | @int n' h' => exact absurd (h'.trans h.symm) (toString_int_ne_write n' x)
    | @float x' h' => exact sameFloat_of_write_eq (h.trans h'.symm)
    | @bool b' h' => exact absurd (h.trans h'.symm) (write_ne_toString_bool x b')
  | @bool b h =>
    cases h' with
    | @int n' h' => exact absurd (h'.trans h.symm) (toString_int_ne_bool n' b)
    | @float x' h' => exact absurd (h'.trans h.symm) (write_ne_toString_bool x' b)
    | @bool b' h' =>
      have htexts : ∀ b b' : Bool, toString b = toString b' → (b == b') = true := by decide
      exact htexts b b' (h.trans h'.symm)

/-! ## Entries kept -/

/-- The value keeps all entries of the document, in their order and each under the text of its
key. -/
inductive Converts : Yaml.Value → ParamValue → Prop where
  | bool (b : Bool) : Converts (.bool b) (.bool b)
  | int (n : Int) : Converts (.int n) (ofWhole n)
  | float (x : Float) : Converts (.float x) (.float x)
  | str (s : String) : Converts (.str s) (.str s)
  | seq {items : List Yaml.Value} {values : List ParamValue}
    (h : List.Forall₂ Converts items values) : Converts (.seq items) (.list values)
  | map {entries : List (Yaml.Value × Yaml.Value)} {found : List (String × ParamValue)}
    (hkeys : (entries.map Prod.fst).map keyText = (found.map Prod.fst).map .ok)
    (hvalues : List.Forall₂ Converts (entries.map Prod.snd) (found.map Prod.snd)) :
    Converts (.map entries) (.map found)
  | tagged {tag : String} {value : Yaml.Value} {p : ParamValue} (h : Converts value p) :
    Converts (.tagged tag value) p

/-- The values are those of the documents. -/
abbrev AreOfYaml : List Yaml.Value → List ParamValue → Prop :=
  List.Forall₂ fun value p => ofYaml value = .ok p

/-- Items are turned into values one by one. -/
theorem areOfYaml_of_ofYamlItems {items : List Yaml.Value} {values : List ParamValue}
    (h : ofYamlItems items = .ok values) : AreOfYaml items values := by
  induction items generalizing values with
  | nil =>
    cases h
    exact .nil
  | cons item items ih =>
    obtain ⟨p, hp, h⟩ := Except.bind_eq_ok h
    obtain ⟨others, hothers, h⟩ := Except.bind_eq_ok h
    cases h
    exact .cons hp (ih hothers)

/-- The pairs that the entries come to, one by one, are put into the dictionary. -/
theorem exists_pairs_of_ofYamlEntries {found d : Dict ParamValue}
    (h : ofYamlEntries found entries = .ok d) : ∃ pairs : List (String × ParamValue),
      (entries.map Prod.fst).map keyText = (pairs.map Prod.fst).map .ok ∧
      AreOfYaml (entries.map Prod.snd) (pairs.map Prod.snd) ∧
      d = pairs.foldl (fun d (key, value) => d.insert key value) found := by
  induction entries generalizing found with
  | nil =>
    cases h
    exact ⟨[], rfl, .nil, rfl⟩
  | cons entry entries ih =>
    obtain ⟨text, htext, h⟩ := Except.bind_eq_ok h
    obtain ⟨p, hp, h⟩ := Except.bind_eq_ok h
    obtain ⟨pairs, htexts, hvalues, hd⟩ := ih h
    refine ⟨(text, p) :: pairs, ?_, .cons hp hvalues, hd⟩
    simp only [List.map_cons, htext, htexts]

/-- A mapping that is turned into a value has a text for each key. -/
theorem exists_pairs (h : ofYaml (.map entries) = .ok p) :
    ∃ pairs : List (String × ParamValue),
      (entries.map Prod.fst).map keyText = (pairs.map Prod.fst).map .ok ∧
      AreOfYaml (entries.map Prod.snd) (pairs.map Prod.snd) ∧ p = .map (Dict.ofPairs pairs) := by
  obtain ⟨d, hd, h⟩ := Except.bind_eq_ok h
  obtain ⟨pairs, htexts, hvalues, rfl⟩ := exists_pairs_of_ofYamlEntries hd
  cases h
  exact ⟨pairs, htexts, hvalues, rfl⟩

/-! ## Distinct texts -/

/-- No two keys have one text. -/
def DistinctTexts (entries : List (Yaml.Value × Yaml.Value)) : Prop :=
  ((entries.map Prod.fst).map keyText).Nodup

/-- Keys have distinct texts if the pairs have distinct names. -/
theorem distinctTexts_iff (h : (entries.map Prod.fst).map keyText = (pairs.map Prod.fst).map .ok) :
    DistinctTexts entries ↔ (pairs.map Prod.fst).Nodup := by
  rw [DistinctTexts, h, List.nodup_map_iff fun _ _ heq => Except.ok.inj heq]

/-- Values convert if each of them does. -/
theorem forall₂_converts_iff {values : List Yaml.Value} {ps : List ParamValue}
    (h : AreOfYaml values ps) (hvalues : ∀ value ∈ values, ∀ p, ofYaml value = .ok p →
      (Converts value p ↔ value.AllMappings DistinctTexts)) :
    List.Forall₂ Converts values ps ↔ ∀ value ∈ values, value.AllMappings DistinctTexts := by
  induction h with
  | nil => exact ⟨fun _ => nofun, fun _ => .nil⟩
  | cons hp _ ih =>
    rw [List.forall₂_cons, List.forall_mem_cons, hvalues _ List.mem_cons_self _ hp,
      ih fun value hvalue => hvalues value (List.mem_cons_of_mem _ hvalue)]

/-- **Entries are kept where texts are distinct**, and only there. -/
theorem converts_iff_distinctTexts (v : Yaml.Value) : ∀ p, ofYaml v = .ok p →
    (Converts v p ↔ v.AllMappings DistinctTexts) := by
  induction v using Yaml.Value.induction with
  | scalar v hv =>
    intro p h
    refine iff_of_true ?_ hv.allMappings
    cases v with
    | null => cases h
    | bool b => exact Except.ok.inj h ▸ .bool b
    | int n => exact Except.ok.inj h ▸ .int n
    | float x => exact Except.ok.inj h ▸ .float x
    | str s => exact Except.ok.inj h ▸ .str s
    | seq | map | tagged => cases hv
  | seq items ih =>
    intro p h
    obtain ⟨values, hvalues, h⟩ := Except.bind_eq_ok h
    cases h
    rw [Yaml.Value.allMappings_seq, ← forall₂_converts_iff (areOfYaml_of_ofYamlItems hvalues) ih]
    exact ⟨fun | .seq h => h, .seq⟩
  | map entries ih =>
    intro p h
    obtain ⟨pairs, htexts, hvalues, rfl⟩ := exists_pairs h
    have hentries := forall₂_converts_iff hvalues (List.forall_mem_map.2 ih)
    rw [List.forall_mem_map] at hentries
    rw [Yaml.Value.allMappings_map, ← hentries, distinctTexts_iff htexts]
    constructor
    · rintro (_ | _ | _ | _ | _ | ⟨hkeys, hfound⟩)
      -- the dictionary has distinct names, and these are all of the texts
      have hdistinct : (pairs.map Prod.fst).Nodup :=
        (distinctTexts_iff htexts).1 ((distinctTexts_iff hkeys).2 (Dict.ofPairs pairs).nodup)
      rw [Dict.entries_ofPairs hdistinct] at hfound
      exact ⟨hdistinct, hfound⟩
    · rintro ⟨hdistinct, hfound⟩
      rw [Dict.entries_ofPairs hdistinct]
      exact .map htexts hfound
  | tagged tag v ih =>
    intro p h
    rw [Yaml.Value.allMappings_tagged, ← ih p h]
    exact ⟨fun | .tagged h => h, .tagged⟩

/-! ## Keys that are written alike -/

/-- A string key is how another key, which is no string, is written. -/
def Respelled (entries : List (Yaml.Value × Yaml.Value)) : Prop :=
  ∃ text, .str text ∈ entries.map Prod.fst ∧ ∃ key ∈ entries.map Prod.fst, Spells text key

/-- Distinct keys have distinct texts unless one is a respelling of another. -/
theorem distinctTexts_iff_not_respelled (hkeys : Yaml.DistinctKeys entries)
    (htexts : ∀ key ∈ entries.map Prod.fst, ∃ text, keyText key = .ok text) :
    DistinctTexts entries ↔ ¬Respelled entries := by
  constructor
  · rintro hdistinct ⟨text, hstr, key, hkey, hspells⟩
    have heq := List.inj_on_of_nodup_map hdistinct hkey hstr (keyText_eq_ok_iff.2 (.inr hspells))
    cases heq ▸ hspells
  · intro hno
    refine List.pairwise_map.2 (hkeys.imp_of_mem fun {key later} hkey hlater hsame heq => ?_)
    obtain ⟨text, htext⟩ := htexts key hkey
    obtain rfl | hspells := keyText_eq_ok_iff.1 htext <;>
      obtain rfl | hspells' := keyText_eq_ok_iff.1 (heq ▸ htext)
    · rw [Yaml.Value.same, beq_self_eq_true] at hsame
      cases hsame
    · exact hno ⟨text, hkey, later, hlater, hspells'⟩
    · exact hno ⟨text, hlater, key, hkey, hspells⟩
    · rw [hspells'.same hspells] at hsame
      cases hsame

/-- Each item that was turned into a value has one. -/
theorem exists_ofYaml_of_mem {values : List Yaml.Value} {ps : List ParamValue}
    (h : AreOfYaml values ps) {value : Yaml.Value} (hmem : value ∈ values) :
    ∃ p, ofYaml value = .ok p := by
  induction h with
  | nil => cases hmem
  | cons hp _ ih =>
    obtain rfl | hmem := List.mem_cons.1 hmem
    · exact ⟨_, hp⟩
    · exact ih hmem

/-- Where a value is converted, all keys of its mappings have texts. -/
theorem exists_keyText (hentries : v.HasMapping entries) (h : ofYaml v = .ok p) :
    ∀ key ∈ entries.map Prod.fst, ∃ text, keyText key = .ok text := by
  induction hentries generalizing p with
  | here =>
    obtain ⟨pairs, htexts, -⟩ := exists_pairs h
    intro key hkey
    have hmem := List.mem_map_of_mem (f := keyText) hkey
    rw [htexts] at hmem
    obtain ⟨text, -, htext⟩ := List.mem_map.1 hmem
    exact ⟨text, htext.symm⟩
  | item hmem _ ih =>
    obtain ⟨values, hvalues, -⟩ := Except.bind_eq_ok h
    obtain ⟨q, hq⟩ := exists_ofYaml_of_mem (areOfYaml_of_ofYamlItems hvalues) hmem
    exact ih hq
  | entry hmem _ ih =>
    obtain ⟨pairs, -, hvalues, -⟩ := exists_pairs h
    obtain ⟨q, hq⟩ := exists_ofYaml_of_mem hvalues (List.mem_map_of_mem hmem)
    exact ih hq
  | tagged _ ih => exact ih h

/-- In a value that is converted, distinct keys have distinct texts unless one is a respelling. -/
theorem allMappings_distinctTexts_iff (hkeys : v.AllMappings Yaml.DistinctKeys)
    (h : ofYaml v = .ok p) :
    v.AllMappings DistinctTexts ↔ v.AllMappings fun entries => ¬Respelled entries :=
  forall₂_congr fun entries hentries =>
    distinctTexts_iff_not_respelled (hkeys entries hentries) (exists_keyText hentries h)

/-- **No entry of a mapping is lost unless a string is written like another key.** -/
theorem converts_iff_not_respelled (hkeys : v.AllMappings Yaml.DistinctKeys)
    (h : ofYaml v = .ok p) :
    Converts v p ↔ v.AllMappings fun entries => ¬Respelled entries := by
  rw [converts_iff_distinctTexts v p h]
  exact allMappings_distinctTexts_iff hkeys h

/-- A decimal, a boolean and a string of other letters are kept, below a sequence and a tag. -/
theorem converts_mixed_keys :
    Converts (.seq [.tagged "t" (.map
        [(.float 1.5, .str "a"), (.bool true, .str "b"), (.str "1", .str "c")])])
      (.list [.map [("1.5", .str "a"), ("true", .str "b"), ("1", .str "c")]]) := by
  have hwrite : keyLayout.write 1.5 = "1.5" := by decide +kernel
  have hkey : keyText (.float 1.5) = .ok "1.5" := congrArg Except.ok hwrite
  refine (converts_iff_not_respelled ?_ ?_).2 ?_
  · rw [Yaml.Value.allMappings_seq, List.forall_mem_singleton, Yaml.Value.allMappings_tagged,
      Yaml.Value.allMappings_map_of_isScalar (by simp [Yaml.Value.IsScalar])]
    simp [Yaml.DistinctKeys, Yaml.Value.same]
  · simp only [ofYaml, ofYamlItems, ofYamlEntries, hkey]
    rfl
  · rw [Yaml.Value.allMappings_seq, List.forall_mem_singleton, Yaml.Value.allMappings_tagged,
      Yaml.Value.allMappings_map_of_isScalar (by simp [Yaml.Value.IsScalar])]
    rintro ⟨text, hstr, key, hkey, hspells⟩
    obtain rfl : text = "1" := by simpa using hstr
    obtain rfl | rfl | rfl : key = .float 1.5 ∨ key = .bool true ∨ key = .str "1" := by
      simpa using hkey
    · obtain _ | hspells := hspells
      rw [hwrite] at hspells
      exact absurd hspells (by decide)
    · obtain _ | _ | hspells := hspells
      exact absurd hspells (by decide)
    · cases hspells

/-- A whole number and a string of its digits are different keys, and one entry is lost. -/
theorem not_converts_respelled_key : ∃ entries : List (Yaml.Value × Yaml.Value),
    (Yaml.Value.map entries).AllMappings Yaml.DistinctKeys ∧
      ofYaml (.map entries) = .ok (.map [("1", .str "b")]) ∧
      ¬Converts (.map entries) (.map [("1", .str "b")]) := by
  refine ⟨[(.int 1, .str "a"), (.str "1", .str "b")], ?_, rfl, ?_⟩
  · rw [Yaml.Value.allMappings_map_of_isScalar (by simp [Yaml.Value.IsScalar])]
    simp [Yaml.DistinctKeys, Yaml.Value.same]
  · rintro (_ | _ | _ | _ | _ | ⟨hkeys, -⟩)
    cases hkeys

/-- **What is read from a text loses no entry unless a string is written like another key**: the
reader has refused equal keys, so nothing is asked of the text. -/
theorem converts_iff_of_parseYaml (hv : Yaml.parse source = some v) (h : parseYaml source = .ok p) :
    Converts v p ↔ v.AllMappings fun entries => ¬Respelled entries := by
  have hvalue : ofYaml v = .ok p := by rwa [parseYaml, hv] at h
  rw [converts_iff_distinctTexts v p hvalue]
  exact allMappings_distinctTexts_iff (Yaml.distinctKeys_of_parse hv) hvalue

end LaunchFile.ParamValue
