import LaunchFile.Path.Normal
import LaunchFile.Proofs.GraphName.Segments

/-!
# Proofs/Path — joined paths and directories

The steps of a joined path are those of its parts (`stepsOf_joinChars`), and an absolute path with a
step has an absolute directory (`exists_parent?`). A reference names the same file whether or not
the directory that it is seen from is written before it (`resolve_directory_append`).
-/

namespace LaunchFile.Path

/-! ## Joining -/

theorem stepsOf_append_slash (cs ds : List Char) :
    stepsOf (cs ++ '/' :: ds) = stepsOf cs ++ stepsOf ds := by
  simp only [stepsOf, Text.splitWhere_eq_splitOnP]
  rw [List.splitOnP_append_cons cs ds (by simp), List.filter_append]

/-- The steps of a joined path are those of its parts. -/
theorem stepsOf_joinChars (base : List Char) {reference : List Char}
    (h : absoluteChars reference = false) :
    stepsOf (joinChars base reference) = stepsOf base ++ stepsOf reference := by
  rw [joinChars, if_neg (by simp [h])]
  split
  · rename_i hbase
    rw [Bool.or_eq_true, beq_iff_eq, beq_iff_eq] at hbase
    rcases hbase with rfl | hlast
    · rfl
    · obtain ⟨front, rfl⟩ := List.getLast?_eq_some_iff.1 hlast
      have hfront : stepsOf (front ++ ['/']) = stepsOf front ++ stepsOf [] :=
        stepsOf_append_slash front []
      rw [List.append_assoc, List.singleton_append, stepsOf_append_slash, hfront]
      simp [stepsOf, Text.splitWhere, isIdle]
  · exact stepsOf_append_slash base reference

theorem absoluteChars_joinChars {base : List Char} (h : absoluteChars base = true)
    (reference : List Char) : absoluteChars (joinChars base reference) = true := by
  obtain ⟨rest, rfl⟩ := absoluteChars_iff_exists.1 h
  rw [joinChars]
  split
  · assumption
  · split <;> rfl

/-- A normal form depends on the start and on the steps. -/
theorem normalizeChars_congr {cs ds : List Char} (hstart : absoluteChars cs = absoluteChars ds)
    (hsteps : stepsOf cs = stepsOf ds) : normalizeChars cs = normalizeChars ds := by
  rw [normalizeChars, normalizeChars, hstart, hsteps]

/-! ## Parents -/

/-- An absolute path with a step has a parent, which is absolute as well. -/
theorem exists_parent? {p : Path} (h : p.isAbsolute = true)
    (hsteps : stepsOf p.text.toList ≠ []) :
    ∃ directory, p.parent? = some directory ∧ directory.isAbsolute = true := by
  obtain ⟨rest, hrest⟩ := absoluteChars_iff_exists.1 h
  rw [hrest, stepsOf_slash_cons, stepsOf] at hsteps
  rw [parent?, parentChars?, hrest]
  simp only [lead, List.length_singleton, List.drop_succ_cons, List.drop_zero]
  split
  · rename_i hidle
    rw [List.dropWhile_eq_nil_iff] at hidle
    refine absurd (List.filter_eq_nil_iff.2 fun piece hmem => ?_) hsteps
    simpa using hidle piece (List.mem_reverse.2 hmem)
  · refine ⟨_, rfl, ?_⟩
    rw [isAbsolute, String.toList_ofList]
    rfl

/-- **Seen from an absolute directory, a trimmed relative reference names the same file with and
without that directory before it.** -/
theorem resolve_directory_append {directory : Path} (h : directory.isAbsolute = true)
    {reference : String} (hrelative : Path.isAbsolute ⟨reference⟩ = false)
    (htrim : Text.trim reference = reference) :
    resolve (directory.text ++ "/" ++ reference) (some directory) =
      resolve reference (some directory) := by
  obtain ⟨rest, hrest⟩ := absoluteChars_iff_exists.1 h
  have htrimChars : Text.trimChars reference.toList = reference.toList := by
    rw [← String.toList_ofList (l := Text.trimChars _), ← Text.trim, htrim]
  have hwhole : (directory.text ++ "/" ++ reference).toList =
      directory.text.toList ++ '/' :: reference.toList := by simp
  have hkept : Text.trimChars (directory.text.toList ++ '/' :: reference.toList) =
      directory.text.toList ++ '/' :: reference.toList := by
    rw [hrest, List.cons_append]
    exact Text.trimChars_append_cons (by decide) (by decide) htrimChars rest
  have habsolute : absoluteChars (directory.text.toList ++ '/' :: reference.toList) = true := by
    rw [hrest]; rfl
  simp only [resolve, normalize, join, Text.trim, htrimChars, hwhole, hkept, String.toList_ofList]
  refine congrArg (fun cs => Path.mk (String.ofList cs)) (normalizeChars_congr ?_ ?_)
  · rw [joinChars, if_pos habsolute, habsolute, absoluteChars_joinChars h]
  · rw [stepsOf_joinChars _ hrelative, joinChars, if_pos habsolute, stepsOf_append_slash]

end LaunchFile.Path
