import LaunchFile.Model.Basic
import Mathlib.Data.List.Induction
import Mathlib.Data.List.Nodup

/-!
# Proofs/Distinct — one entry under each name

A list in which later entries take the place of earlier ones of the same name, or in which earlier
ones stay. Both are sublists in which names are distinct and none is lost. A table that is filled
entry by entry holds just these: the parameters of a model the last ones (`foldl_withParam`), its
machines the first ones (`firstOfEach`).
-/

namespace LaunchFile

section

variable {α : Type} (name : α → String)

/-- The last entry under each name: an entry is dropped if one of its name follows. -/
def lastOfEach : List α → List α
  | [] => []
  | a :: rest => if rest.any (name · == name a) then lastOfEach rest else a :: lastOfEach rest

/-- The first entry under each name: an entry is dropped if one of its name precedes. -/
def firstOfEach (as : List α) : List α :=
  (lastOfEach name as.reverse).reverse

variable {name} {a : α} {as : List α}

theorem any_name_eq_true {n : String} : as.any (name · == n) = true ↔ n ∈ as.map name := by
  simp only [List.any_eq_true, beq_iff_eq, List.mem_map]

/-! ## The last of each -/

theorem lastOfEach_sublist : ∀ as : List α, (lastOfEach name as).Sublist as
  | [] => .slnil
  | a :: rest => by
    rw [lastOfEach]
    split
    · exact (lastOfEach_sublist rest).cons a
    · exact (lastOfEach_sublist rest).cons_cons a

theorem nodup_lastOfEach : ∀ as : List α, ((lastOfEach name as).map name).Nodup
  | [] => List.nodup_nil
  | a :: rest => by
    rw [lastOfEach]
    split
    · exact nodup_lastOfEach rest
    · rename_i hlast
      refine List.nodup_cons.2 ⟨fun hmem => hlast ?_, nodup_lastOfEach rest⟩
      exact any_name_eq_true.2 (((lastOfEach_sublist rest).map name).subset hmem)

/-- No name is lost. -/
theorem mem_names_lastOfEach {n : String} (as : List α) :
    n ∈ (lastOfEach name as).map name ↔ n ∈ as.map name := by
  induction as with
  | nil => exact Iff.rfl
  | cons a rest ih =>
    rw [lastOfEach, List.map_cons, List.mem_cons]
    split
    · rename_i hany
      exact ih.trans ⟨.inr, fun h => h.elim (fun hn => hn ▸ any_name_eq_true.1 hany) id⟩
    · rw [List.map_cons, List.mem_cons, ih]

/-- An entry at the end takes the place of the one of its name. -/
theorem lastOfEach_concat (as : List α) (a : α) :
    lastOfEach name (as ++ [a]) = (lastOfEach name as).filter (name · != name a) ++ [a] := by
  induction as with
  | nil => rfl
  | cons b rest ih =>
    rw [List.cons_append, lastOfEach, lastOfEach, List.any_append, ih]
    by_cases hany : rest.any (name · == name b) = true
    · rw [hany, Bool.true_or, if_pos rfl, if_pos rfl]
    · rw [if_neg hany, Bool.eq_false_iff.2 hany, Bool.false_or, List.any_cons,
        List.any_nil, Bool.or_false]
      by_cases hab : name a = name b
      · rw [if_pos (beq_iff_eq.2 hab), List.filter_cons_of_neg (by simp [hab])]
      · rw [if_neg (by simpa using hab), List.filter_cons_of_pos (by simpa using Ne.symm hab),
          List.cons_append]

/-- What is found under a name is the last entry of that name. -/
theorem find?_lastOfEach (n : String) (as : List α) :
    (lastOfEach name as).find? (name · == n) = as.reverse.find? (name · == n) := by
  induction as using List.reverseRecOn with
  | nil => rfl
  | append_singleton as a ih =>
    rw [lastOfEach_concat, List.reverse_concat, List.find?_append, List.find?_cons, List.find?_cons,
      ← ih, List.find?_filter]
    by_cases han : name a = n
    · have hnone : (lastOfEach name as).find? (fun b => decide (name b != name a ∧ name b == n)) =
          none :=
        List.find?_eq_none.2 fun b _ => by simp [han]
      rw [hnone, beq_iff_eq.2 han, Option.none_or]
    · have hsame : (fun b => decide (name b != name a ∧ name b == n)) = (name · == n) := by
        funext b
        by_cases hbn : name b = n
        · simp [hbn, Ne.symm han]
        · simp [hbn]
      rw [hsame, beq_eq_false_iff_ne.2 han, List.find?_nil, Option.or_none]

/-! ## The first of each -/

theorem mem_names_firstOfEach {n : String} (as : List α) :
    n ∈ (firstOfEach name as).map name ↔ n ∈ as.map name := by
  rw [firstOfEach, List.map_reverse, List.mem_reverse, mem_names_lastOfEach, List.map_reverse,
    List.mem_reverse]

/-- An entry at the end is dropped if there is one of its name. -/
theorem firstOfEach_concat (as : List α) (a : α) :
    firstOfEach name (as ++ [a]) =
      if as.any (name · == name a) then firstOfEach name as else firstOfEach name as ++ [a] := by
  rw [firstOfEach, List.reverse_concat, lastOfEach, List.any_reverse]
  split
  · rfl
  · rw [List.reverse_cons]
    rfl

end

/-! ## Tables -/

/-- **Of the parameters that are set the last of each name stays.** -/
theorem foldl_withParam (params : List ParamSpec) :
    params.foldl Model.withParam [] = lastOfEach ParamSpec.name params := by
  induction params using List.reverseRecOn with
  | nil => rfl
  | append_singleton params spec ih =>
    rw [List.foldl_concat, ih, lastOfEach_concat]
    rfl

end LaunchFile
