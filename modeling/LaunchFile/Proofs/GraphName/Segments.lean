import LaunchFile.GraphName
import LaunchFile.Proofs.Text.Words

/-!
# Proofs/GraphName/Segments — a resolved name is its segments

The absolute form of a name holds exactly the non-empty pieces between its slashes
(`segments_normalizeChars`), so that names in absolute form are equal when their segments are
(`IsAbsolute.ext`), and joining appends segments (`segmentsOf_join`). Two consequences are used all
over: joining is associative (`join_join`), and a name in absolute form is its own absolute form.
-/

namespace LaunchFile.GraphName

/-! ## Segments of a text -/

/-- The segments of a name. -/
abbrev segmentsOf (name : String) : List (List Char) :=
  segments name.toList

/-- A segment is a non-empty text without slashes. -/
def IsSegment (cs : List Char) : Prop :=
  cs ≠ [] ∧ '/' ∉ cs

/-- A slash divides segments. -/
theorem segments_append_slash (a b : List Char) :
    segments (a ++ '/' :: b) = segments a ++ segments b := by
  simp only [segments, Text.splitWhere_eq_splitOnP]
  rw [List.splitOnP_append_cons a b (by rfl), List.filter_append]

@[simp] theorem segments_slash_cons (cs : List Char) : segments ('/' :: cs) = segments cs :=
  segments_append_slash [] cs

/-- A text without slashes is its own only segment, unless it is empty. -/
theorem segments_of_isSegment {cs : List Char} (h : IsSegment cs) : segments cs = [cs] := by
  have hne : ∀ c ∈ cs, (c == '/') = false := fun c hc =>
    beq_eq_false_iff_ne.2 fun heq => h.2 (heq ▸ hc)
  rw [segments, Text.splitWhere_eq_splitOnP, List.splitOnP_eq_singleton hne]
  simp [h.1]

/-- Segments are not empty and hold no slash. -/
theorem isSegment_of_mem {cs piece : List Char} (h : piece ∈ segments cs) : IsSegment piece := by
  rw [segments, Text.splitWhere_eq_splitOnP, List.mem_filter] at h
  exact ⟨by simpa using h.2, Text.notMem_of_mem_splitOnP h.1⟩

/-! ## Absolute form -/

/-- **The absolute form of segments has these segments.** -/
theorem segments_absolute : ∀ {pieces : List (List Char)}, (∀ p ∈ pieces, IsSegment p) →
    segments (absolute pieces) = pieces
  | [], _ => rfl
  | [p], h => by
    simp only [absolute, List.intercalate_singleton, segments_slash_cons]
    exact segments_of_isSegment (h p List.mem_cons_self)
  | p :: q :: rest, h => by
    have hp := segments_of_isSegment (h p List.mem_cons_self)
    have hrest : segments (absolute (q :: rest)) = q :: rest :=
      segments_absolute fun r hr => h r (List.mem_cons_of_mem _ hr)
    simp only [absolute, segments_slash_cons] at hrest ⊢
    rw [List.intercalate_cons_cons, List.append_assoc, List.singleton_append,
      segments_append_slash, hp, hrest, List.singleton_append]

/-- Normalizing keeps the segments. -/
theorem segments_normalizeChars (cs : List Char) : segments (normalizeChars cs) = segments cs :=
  segments_absolute fun _ => isSegment_of_mem

@[simp] theorem segmentsOf_normalize (name : String) :
    segmentsOf (normalize name) = segmentsOf name := by
  rw [segmentsOf, normalize, String.toList_ofList, segments_normalizeChars]

@[simp] theorem segmentsOf_join (base name : String) :
    segmentsOf (join base name) = segmentsOf base ++ segmentsOf name := by
  rw [segmentsOf, join, String.toList_ofList, segments_normalizeChars, segments_append_slash]

/-! ## Names in absolute form -/

/-- A name in absolute form. -/
def IsAbsolute (name : String) : Prop :=
  normalize name = name

instance (name : String) : Decidable (IsAbsolute name) :=
  inferInstanceAs (Decidable (normalize name = name))

/-- A normal form is a matter of the segments. -/
theorem normalize_congr {a b : String} (h : segmentsOf a = segmentsOf b) :
    normalize a = normalize b := by
  rw [normalize, normalize, normalizeChars, normalizeChars]
  exact congrArg (fun s => String.ofList (absolute s)) h

/-- A normal form is absolute. -/
theorem isAbsolute_normalize (name : String) : IsAbsolute (normalize name) :=
  normalize_congr (segmentsOf_normalize name)

/-- Joining names is normalizing them behind one another. -/
theorem join_eq_normalize (base name : String) :
    join base name = normalize (String.ofList (base.toList ++ '/' :: name.toList)) := by
  rw [join, normalize, String.toList_ofList]

/-- Joined names are absolute. -/
theorem isAbsolute_join (base name : String) : IsAbsolute (join base name) :=
  join_eq_normalize base name ▸ isAbsolute_normalize _

theorem isAbsolute_root : IsAbsolute "/" := by decide

/-- **Names in absolute form are told apart by their segments.** -/
theorem IsAbsolute.ext {a b : String} (ha : IsAbsolute a) (hb : IsAbsolute b)
    (h : segmentsOf a = segmentsOf b) : a = b :=
  ha.symm.trans ((normalize_congr h).trans hb)

/-- **Joining is associative.** -/
theorem join_join (a b c : String) : join (join a b) c = join a (b ++ "/" ++ c) := by
  have hsegments : segmentsOf (b ++ "/" ++ c) = segmentsOf b ++ segmentsOf c := by
    rw [segmentsOf, String.toList_append, String.toList_append, List.append_assoc]
    exact segments_append_slash b.toList c.toList
  refine (isAbsolute_join _ _).ext (isAbsolute_join _ _) ?_
  rw [segmentsOf_join, segmentsOf_join, segmentsOf_join, hsegments, List.append_assoc]

/-- The text of a name in absolute form: a slash, and its segments with slashes between them. -/
theorem IsAbsolute.toList_eq {name : String} (h : IsAbsolute name) :
    name.toList = absolute (segmentsOf name) := by
  conv => lhs; rw [← h]
  rw [normalize, String.toList_ofList, normalizeChars]

/-! ## Well-formed names -/

/-- A well-formed resolved name: the root, or identifiers with a slash before each. -/
def IsWellFormed (name : String) : Prop :=
  ∃ pieces, (∀ p ∈ pieces, isIdentifier p = true) ∧ name.toList = absolute pieces

/-- An identifier is not empty, and its characters are those of words. -/
theorem mem_of_isIdentifier {piece : List Char} (h : isIdentifier piece = true) :
    piece ≠ [] ∧ ∀ c ∈ piece, c.isAlphanum = true ∨ c = '_' := by
  cases piece with
  | nil => cases h
  | cons first rest =>
    rw [isIdentifier, Bool.and_eq_true, List.all_eq_true] at h
    refine ⟨List.cons_ne_nil _ _, List.forall_mem_cons.2 ⟨.inl ?_, fun c hc => ?_⟩⟩
    · rw [Char.isAlphanum, h.1, Bool.true_or]
    · simpa using h.2 c hc

/-- Word characters are ASCII. -/
theorem toNat_of_isAlphanum {c : Char} (h : c.isAlphanum = true ∨ c = '_') :
    48 ≤ c.toNat ∧ c.toNat ≤ 122 := by
  rcases h with h | rfl
  · change ((decide (65 ≤ c.val ∧ c.val ≤ 90) || decide (97 ≤ c.val) && decide (c.val ≤ 122)) ||
      decide (48 ≤ c.val) && decide (c.val ≤ 57)) = true at h
    simp only [Bool.or_eq_true, Bool.and_eq_true, decide_eq_true_eq, UInt32.le_iff_toNat_le] at h
    change ((65 ≤ c.toNat ∧ c.toNat ≤ 90) ∨ (97 ≤ c.toNat ∧ c.toNat ≤ 122)) ∨
      (48 ≤ c.toNat ∧ c.toNat ≤ 57) at h
    omega
  · decide

/-- An identifier is a segment. -/
theorem isSegment_of_isIdentifier {piece : List Char} (h : isIdentifier piece = true) :
    IsSegment piece := by
  obtain ⟨hne, hchars⟩ := mem_of_isIdentifier h
  refine ⟨hne, fun hslash => ?_⟩
  have := toNat_of_isAlphanum (hchars _ hslash)
  simp at this

/-- Well-formed names are absolute. -/
theorem IsWellFormed.isAbsolute {name : String} (h : IsWellFormed name) : IsAbsolute name := by
  obtain ⟨pieces, hpieces, hname⟩ := h
  rw [IsAbsolute, normalize, normalizeChars, hname,
    segments_absolute fun p hp => isSegment_of_isIdentifier (hpieces p hp), ← hname,
    String.ofList_toList]

/-- A character of an absolute name is a slash or one of a segment. -/
theorem mem_absolute {c : Char} : ∀ {pieces : List (List Char)}, c ∈ absolute pieces →
    c = '/' ∨ ∃ p ∈ pieces, c ∈ p
  | [], h => .inl (List.mem_singleton.1 h)
  | [p], h => by
    rw [absolute, List.intercalate_singleton] at h
    exact (List.mem_cons.1 h).imp_right fun h => ⟨p, List.mem_singleton_self p, h⟩
  | p :: q :: rest, h => by
    rw [absolute, List.intercalate_cons_cons, List.append_assoc, List.singleton_append] at h
    rcases List.mem_cons.1 h with h | h
    · exact .inl h
    · rcases List.mem_append.1 h with h | h
      · exact .inr ⟨p, List.mem_cons_self, h⟩
      · exact (mem_absolute h).imp_right fun ⟨r, hr, hc⟩ =>
          ⟨r, List.mem_cons_of_mem _ hr, hc⟩

/-- A well-formed name has no blanks. -/
theorem IsWellFormed.trimChars {name : String} (h : IsWellFormed name) :
    Text.trimChars name.toList = name.toList := by
  obtain ⟨pieces, hpieces, hname⟩ := h
  refine Text.trimChars_eq_self fun c hc => ?_
  have hvisible : 33 ≤ c.toNat ∧ c.toNat ≤ 126 := by
    rcases mem_absolute (hname ▸ hc) with rfl | ⟨p, hp, hmem⟩
    · decide
    · have := toNat_of_isAlphanum ((mem_of_isIdentifier (hpieces p hp)).2 c hmem)
      omega
  exact Text.isBlank_eq_false hvisible.1 hvisible.2

/-! ## Names of one segment -/

/-- A checked name of one segment is one segment, up to the blanks around it, and not private. -/
theorem isSegment_of_checkBase {name : String} (h : checkBase name = .ok ()) :
    IsSegment (Text.trimChars name.toList) ∧ (Text.trimChars name.toList).head? ≠ some '~' := by
  rw [checkBase, checkBaseChars] at h
  split at h
  · cases h
  · rename_i hempty
    split at h
    · cases h
    · rename_i hslash
      split at h
      · cases h
      · rename_i htilde
        exact ⟨⟨by simpa using hempty, by simpa using hslash⟩, by simpa using htilde⟩

end LaunchFile.GraphName
