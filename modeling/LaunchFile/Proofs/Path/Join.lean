import LaunchFile.Files
import LaunchFile.Proofs.Dict
import LaunchFile.Proofs.Path

/-!
# Proofs/Path/Join — a base may be normalized before anything is joined to it

Normalizing goes through the steps from left to right, and all that it keeps of a base is kept again
when it starts over (`foldl_keptSteps`). So nothing that follows a base tells whether it was
normalized: references resolve to the same files, and files in memory, which are stored and looked
up by normal forms, are found under every spelling of their path (`normalize_composes`).
-/

namespace LaunchFile

namespace Path

variable {base reference : List Char}

/-! ## Joined paths -/

/-- A relative reference starts where its base starts. -/
theorem absoluteChars_joinChars_of_relative (h : absoluteChars reference = false) :
    absoluteChars (joinChars base reference) = absoluteChars base := by
  cases hbase : absoluteChars base with
  | true => exact absoluteChars_joinChars hbase reference
  | false =>
    rw [joinChars, if_neg (by simp [h])]
    cases base with
    | nil => exact h
    | cons c cs =>
      have hc : c ≠ '/' := by
        rintro rfl
        cases hbase
      split <;> simp [absoluteChars, hc]

/-- Normalizing what was kept goes as far as normalizing the whole. -/
theorem foldl_keptSteps (cs : List Char) :
    (keptSteps cs).foldl normalizeStep [] = (stepsOf cs).foldl normalizeStep [] :=
  foldl_normalizeStep_reverse (kept_nil.foldl (stepsOf cs))

/-- **The base of a joined path may be normalized first.** -/
theorem normalizeChars_joinChars_normalizeChars (base reference : List Char) :
    normalizeChars (joinChars (normalizeChars base) reference) =
      normalizeChars (joinChars base reference) := by
  cases h : absoluteChars reference with
  | true => simp only [joinChars, h, if_true]
  | false =>
    rw [normalizeChars, normalizeChars.eq_1 (joinChars base reference),
      absoluteChars_joinChars_of_relative h, absoluteChars_joinChars_of_relative h,
      absoluteChars_normalizeChars, stepsOf_joinChars _ h, stepsOf_joinChars _ h,
      List.foldl_append, List.foldl_append, stepsOf_normalizeChars, foldl_keptSteps]

theorem normalize_join_normalize (base reference : Path) :
    (base.normalize.join reference).normalize = (base.join reference).normalize := by
  simp only [normalize, join, String.toList_ofList, normalizeChars_joinChars_normalizeChars]

/-- A reference names the same file from a directory and from its normal form. -/
theorem resolve_some_normalize (reference : String) (base : Path) :
    resolve reference (some base.normalize) = resolve reference (some base) :=
  normalize_join_normalize base _

theorem normalize_text_inj {p q : Path} :
    p.normalize.text = q.normalize.text ↔ p.normalize = q.normalize :=
  ⟨fun h => congrArg Path.mk h, congrArg Path.text⟩

end Path

/-! ## Files in memory -/

namespace MemoryFiles

variable {p q : Path} {files : MemoryFiles}

theorem bytes_add_of_eq (files : MemoryFiles) (contents : List UInt8)
    (h : p.normalize = q.normalize) : (files.add p contents).toFiles.bytes q = .ok contents := by
  simp only [add, toFiles, bytes, h, Entries.get?_insert_self]

theorem bytes_add_of_ne (files : MemoryFiles) (contents : List UInt8)
    (h : p.normalize ≠ q.normalize) :
    (files.add p contents).toFiles.bytes q = files.toFiles.bytes q := by
  have hkey : p.normalize.text ≠ q.normalize.text := fun heq => h (Path.normalize_text_inj.1 heq)
  simp only [add, toFiles, bytes, Entries.get?_insert_of_ne _ _ hkey]

/-- **A stored file is read under the spellings of its path**, and all others as before. -/
theorem bytes_add (files : MemoryFiles) (p q : Path) (contents : List UInt8) :
    (files.add p contents).toFiles.bytes q =
      if p.normalize = q.normalize then .ok contents else files.toFiles.bytes q := by
  split
  · rename_i h
    exact bytes_add_of_eq files contents h
  · rename_i h
    exact bytes_add_of_ne files contents h

theorem text_add (files : MemoryFiles) (p q : Path) (contents : List UInt8) :
    (files.add p contents).toFiles.text q =
      if p.normalize = q.normalize then (Text.Utf8.decode contents).mapError .notText
      else files.toFiles.text q := by
  rw [Files.text, bytes_add]
  split <;> rfl

end MemoryFiles

/-- **Normalizing goes through joining.** It can be done before a base is joined to a reference, and
once is enough; so references resolve alike from a directory and from its normal form, and what they
resolve to is normalized. A file in memory is read, as bytes or as text, under exactly the paths
that normalize as the one that it was stored under. -/
theorem Path.normalize_composes :
    (∀ base reference : Path,
      (base.normalize.join reference).normalize = (base.join reference).normalize) ∧
    (∀ p : Path, (p.join ⟨""⟩).normalize = p.normalize ∧ p.normalize.normalize = p.normalize) ∧
    (∀ (reference : String) (base : Path),
      resolve reference (some base.normalize) = resolve reference (some base)) ∧
    (∀ (reference : String) (base : Option Path),
      (resolve reference base).normalize = resolve reference base) ∧
    ∀ (files : MemoryFiles) (p q : Path) (contents : List UInt8),
      (files.add p contents).toFiles.bytes q =
        (if p.normalize = q.normalize then .ok contents else files.toFiles.bytes q) ∧
      (files.add p contents).toFiles.text q =
        (if p.normalize = q.normalize then (Text.Utf8.decode contents).mapError .notText
          else files.toFiles.text q) ∧
      ((MemoryFiles.add [] p contents).toFiles.bytes q = .ok contents ↔
        p.normalize = q.normalize) := by
  refine ⟨normalize_join_normalize, fun p => ⟨?_, isNormal_normalize p⟩, resolve_some_normalize,
    isNormal_resolve, fun files p q contents =>
      ⟨MemoryFiles.bytes_add .., MemoryFiles.text_add .., ?_⟩⟩
  · have hsteps : stepsOf (joinChars p.text.toList []) = stepsOf p.text.toList ++ [] :=
      stepsOf_joinChars p.text.toList rfl
    rw [List.append_nil] at hsteps
    simp only [normalize, join, String.toList_ofList]
    exact congrArg (fun cs => Path.mk (String.ofList cs))
      (normalizeChars_congr (absoluteChars_joinChars_of_relative rfl) hsteps)
  · refine ⟨fun h => ?_, MemoryFiles.bytes_add_of_eq [] contents⟩
    by_contra hne
    rw [MemoryFiles.bytes_add_of_ne [] contents hne] at h
    cases h

end LaunchFile
