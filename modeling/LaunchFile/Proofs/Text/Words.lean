import LaunchFile.Proofs.Text.Trim
import LaunchFile.Text.Search

/-!
# Proofs/Text/Words — words and parts of a text

A word is a part of its text without blanks (`isWord_of_mem_words`), and words between which a blank
stands are read one after the other (`words_append_cons`). `occurs` finds exactly the parts of a
text (`occurs_iff_infix`).
-/

namespace LaunchFile.Text

/-! ## Parts -/

theorem occurs_iff_infix {part cs : List Char} : occurs part cs = true ↔ part <:+: cs := by
  induction cs with
  | nil => simp [occurs]
  | cons c cs ih =>
    rw [occurs, Bool.or_eq_true, ih, List.isPrefixOf_iff_prefix, List.infix_cons_iff]

theorem occurs_eq_false_of_infix {part cs whole : List Char} (h : occurs part whole = false)
    (hpart : cs <:+: whole) : occurs part cs = false := by
  rw [Bool.eq_false_iff, Ne, occurs_iff_infix] at h ⊢
  exact fun hcs => h (hcs.trans hpart)

theorem trimStartChars_suffix (cs : List Char) : trimStartChars cs <:+ cs :=
  List.dropWhile_suffix isBlank

theorem trimChars_infix (cs : List Char) : trimChars cs <:+: cs := by
  have hend : trimChars cs <+: trimStartChars cs := trimEndChars_prefix _
  exact hend.isInfix.trans (trimStartChars_suffix cs).isInfix

/-- A pair of characters occurs on one of the two sides of a character that is neither. -/
theorem occurs_pair_append_cons {a b c : Char} (hac : a ≠ c) (hbc : b ≠ c)
    (before behind : List Char) :
    occurs [a, b] (before ++ c :: behind) = (occurs [a, b] before || occurs [a, b] behind) := by
  induction before with
  | nil => simp [occurs, hac]
  | cons x before ih =>
    have hfirst : [a, b].isPrefixOf (x :: (before ++ c :: behind)) =
        [a, b].isPrefixOf (x :: before) := by
      cases before <;> simp [List.isPrefixOf, hbc]
    rw [List.cons_append, occurs, hfirst, ih, occurs, Bool.or_assoc]

/-! ## Words -/

/-- A word is not empty and holds no blank. -/
def IsWord (cs : List Char) : Prop :=
  cs ≠ [] ∧ ∀ c ∈ cs, isBlank c = false

instance (cs : List Char) : Decidable (IsWord cs) :=
  decidable_of_iff (cs ≠ [] ∧ cs.any isBlank = false) (by simp [IsWord])

/-- **The words of a text** are words and parts of it. -/
theorem isWord_of_mem_words {cs word : List Char} (h : word ∈ words cs) :
    IsWord word ∧ word <:+: cs := by
  rw [words, splitWhere_eq_splitOnP, List.mem_filter] at h
  obtain ⟨first, rest, hsplit, -, hpieces⟩ := splitOnP_pieces isBlank cs
  obtain ⟨hplain, hpart⟩ := hpieces word (hsplit ▸ h.1)
  exact ⟨⟨by simpa using h.2, hplain⟩, hpart⟩

theorem words_of_isWord {word : List Char} (h : IsWord word) : words word = [word] := by
  rw [words, splitWhere_eq_splitOnP, List.splitOnP_eq_singleton h.2]
  simp [h.1]

/-- A blank ends a word. -/
theorem words_append_cons {word : List Char} (h : IsWord word) {blank : Char}
    (hblank : isBlank blank = true) (cs : List Char) :
    words (word ++ blank :: cs) = word :: words cs := by
  have hword := words_of_isWord h
  rw [words, splitWhere_eq_splitOnP] at hword ⊢
  rw [List.splitOnP_append_cons word cs hblank, List.filter_append, hword, words,
    splitWhere_eq_splitOnP, List.singleton_append]

theorem trimStartChars_cons {blank : Char} (hblank : isBlank blank = true) (cs : List Char) :
    trimStartChars (blank :: cs) = trimStartChars cs :=
  List.dropWhile_cons_of_pos hblank

theorem trimChars_cons {blank : Char} (hblank : isBlank blank = true) (cs : List Char) :
    trimChars (blank :: cs) = trimChars cs := by
  rw [trimChars, trimStartChars_cons hblank, trimChars]

/-- A text that begins with a word begins with no blank. -/
theorem trimStartChars_append_of_isWord {word : List Char} (h : IsWord word) (cs : List Char) :
    trimStartChars (word ++ cs) = word ++ cs := by
  obtain ⟨c, rest, rfl⟩ := List.exists_cons_of_ne_nil h.1
  rw [trimStartChars, List.cons_append, List.dropWhile_cons_of_neg]
  simp [h.2 c List.mem_cons_self]

end LaunchFile.Text
