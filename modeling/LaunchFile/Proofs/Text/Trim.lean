import Mathlib.Data.List.DropRight
import LaunchFile.Text.Blank

/-!
# Proofs/Text/Trim — what trimming leaves

A trimmed text neither begins nor ends with a blank, so that trimming it again changes nothing, and
all that trimming takes away is blank.
-/

namespace LaunchFile.Text

theorem trimEndChars_eq_rdropWhile (cs : List Char) :
    trimEndChars cs = cs.rdropWhile isBlank := rfl

theorem trimEndChars_prefix (cs : List Char) : trimEndChars cs <+: cs :=
  List.rdropWhile_prefix isBlank cs

/-- Trimming at the end leaves the first character alone, unless nothing is left. -/
theorem trimStartChars_trimChars (cs : List Char) :
    trimStartChars (trimChars cs) = trimChars cs := by
  obtain ⟨tail, htail⟩ := trimEndChars_prefix (trimStartChars cs)
  rw [← trimChars] at htail
  cases htrim : trimChars cs with
  | nil => rfl
  | cons c rest =>
    have hfirst := List.head?_dropWhile_not isBlank cs
    rw [← trimStartChars, ← htail, htrim] at hfirst
    rw [trimStartChars, List.dropWhile_cons_of_neg (by simpa using hfirst)]

theorem trimChars_trimChars (cs : List Char) : trimChars (trimChars cs) = trimChars cs := by
  conv => lhs; rw [trimChars, trimStartChars_trimChars]
  rw [trimChars, trimEndChars_eq_rdropWhile, trimEndChars_eq_rdropWhile,
    List.rdropWhile_idempotent]

/-- **Only blanks are trimmed.** -/
theorem exists_trimChars (cs : List Char) : ∃ before behind,
    cs = before ++ (trimChars cs ++ behind) ∧ (∀ c ∈ before, isBlank c = true) ∧
      ∀ c ∈ behind, isBlank c = true :=
  ⟨cs.takeWhile isBlank, (trimStartChars cs).rtakeWhile isBlank,
    by
      rw [trimChars, trimEndChars_eq_rdropWhile, List.rdropWhile_append_rtakeWhile,
        trimStartChars, List.takeWhile_append_dropWhile],
    fun _ => List.mem_takeWhile_imp, fun _ => List.mem_rtakeWhile_imp⟩

theorem isBlank_or_mem_trimChars {c : Char} {cs : List Char} (h : c ∈ cs) :
    isBlank c = true ∨ c ∈ trimChars cs := by
  obtain ⟨before, behind, heq, hbefore, hbehind⟩ := exists_trimChars cs
  rw [heq, List.mem_append, List.mem_append] at h
  rcases h with h | h | h
  · exact .inl (hbefore c h)
  · exact .inr h
  · exact .inl (hbehind c h)

/-- A text without blanks at its two ends is trimmed already. -/
theorem trimChars_eq_self {cs : List Char} (h : ∀ c ∈ cs, isBlank c = false) :
    trimChars cs = cs := by
  have hstart : trimStartChars cs = cs := List.dropWhile_eq_self_iff.2 fun hlen => by
    simp [h _ (List.getElem_mem hlen)]
  rw [trimChars, hstart, trimEndChars_eq_rdropWhile, List.rdropWhile_eq_self_iff]
  exact fun hne => by simp [h _ (List.getLast_mem hne)]

/-- A text from which nothing is trimmed ends with no blank. -/
theorem isBlank_getLast {cs : List Char} (h : trimChars cs = cs) (hne : cs ≠ []) :
    isBlank (cs.getLast hne) = false := by
  have hstart : trimStartChars cs = cs := by
    have hagain := trimStartChars_trimChars cs
    rwa [h] at hagain
  rw [trimChars, hstart, trimEndChars_eq_rdropWhile, List.rdropWhile_eq_self_iff] at h
  simpa using h hne

/-- Nothing is trimmed between two visible characters, nor from a trimmed text behind the second of
them. -/
theorem trimChars_append_cons {first last : Char} (hfirst : isBlank first = false)
    (hlast : isBlank last = false) {cs : List Char} (h : trimChars cs = cs) (between : List Char) :
    trimChars (first :: (between ++ last :: cs)) = first :: (between ++ last :: cs) := by
  have hstart : trimStartChars (first :: (between ++ last :: cs)) =
      first :: (between ++ last :: cs) := List.dropWhile_cons_of_neg (by simp [hfirst])
  rw [trimChars, hstart, trimEndChars_eq_rdropWhile, List.rdropWhile_eq_self_iff]
  intro hne
  cases cs with
  | nil => simp [hlast]
  | cons c rest => simpa using isBlank_getLast h (List.cons_ne_nil c rest)

/-- No visible ASCII character is blank. -/
theorem isBlank_eq_false {c : Char} (hlow : 33 ≤ c.toNat) (hhigh : c.toNat ≤ 126) :
    isBlank c = false := by
  have hspace : (c == ' ') = false := beq_eq_false_iff_ne.2 fun h => by
    rw [h] at hlow
    exact absurd hlow (by decide)
  simp only [isBlank, hspace, Bool.or_eq_false_iff, Bool.and_eq_false_iff, and_true,
    decide_eq_false_iff_not, beq_eq_false_iff_ne]
  omega

end LaunchFile.Text
