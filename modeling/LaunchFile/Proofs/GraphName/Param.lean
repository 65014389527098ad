import LaunchFile.Proofs.GraphName.Inner

/-!
# Proofs/GraphName/Param — where the name of a parameter leads

A name resolves as it does without the blanks around it. One that is not absolute leads below the
namespace of relative parameters, with or without a tilde in front (`resolveParamName_of_relative`);
what lies below is its segments, which are identifiers once it is accepted.
-/

namespace LaunchFile

namespace GraphName

variable {name : String} {cs rest : List Char}

/-- Trimming leaves a visible first character. -/
theorem exists_trimChars_cons {c : Char} (hc : Text.isBlank c = false) (cs : List Char) :
    ∃ rest, Text.trimChars (c :: cs) = c :: rest := by
  obtain ⟨before, behind, heq, hbefore, hbehind⟩ := Text.exists_trimChars (c :: cs)
  cases before with
  | cons d before =>
    obtain rfl : c = d := (List.cons.inj heq).1
    rw [hbefore c List.mem_cons_self] at hc
    cases hc
  | nil =>
    cases htrim : Text.trimChars (c :: cs) with
    | nil =>
      rw [htrim, List.nil_append, List.nil_append] at heq
      rw [hbehind c (heq ▸ List.mem_cons_self)] at hc
      cases hc
    | cons d rest =>
      rw [htrim] at heq
      exact ⟨rest, by rw [(List.cons.inj heq).1]⟩

/-- What is not trimmed has a blank in it. -/
theorem exists_isBlank_of_trimChars_ne (h : Text.trimChars cs ≠ cs) :
    ∃ c ∈ cs, Text.isBlank c = true := by
  by_contra hnone
  refine h (Text.trimChars_eq_self fun c hc => ?_)
  rw [Bool.eq_false_iff]
  exact fun hblank => hnone ⟨c, hc, hblank⟩

theorem isBlank_of_isIdentifier {piece : List Char} (h : isIdentifier piece = true) :
    ∀ c ∈ piece, Text.isBlank c = false := fun c hc => by
  have := toNat_of_isAlphanum ((mem_of_isIdentifier h).2 c hc)
  exact Text.isBlank_eq_false (by omega) (by omega)

/-- Where no piece may be empty, accepted pieces are identifiers. -/
theorem isIdentifier_of_checkRest_false : ∀ {pieces : List (List Char)},
    checkRest false pieces = .ok () → ∀ p ∈ pieces, isIdentifier p = true
  | [], _ => nofun
  | [piece], h => fun p hp => by
    refine isIdentifier_of_checkRest h p hp fun hnil => ?_
    rw [← List.mem_singleton.1 hp, hnil] at h
    cases h
  | piece :: next :: rest, h => by
    rw [checkRest] at h
    · split at h
      · rename_i hpiece
        exact List.forall_mem_cons.2 ⟨hpiece, isIdentifier_of_checkRest_false h⟩
      · cases h
    · exact fun heq => absurd heq (List.cons_ne_nil _ _)

/-- **Of the accepted names that are not absolute, only the tilde by itself has no segments.** -/
theorem trimChars_eq_tilde (h : check false name = .ok ())
    (hrelative : (Text.trimChars name.toList).head? ≠ some '/')
    (hnone : segments (dropTilde (Text.trimChars name.toList)) = []) :
    Text.trimChars name.toList = ['~'] := by
  rw [check] at h
  generalize Text.trimChars name.toList = cs at h hrelative hnone ⊢
  have hslash : ∀ c ∈ dropTilde cs, c = '/' := by
    intro c hc
    rcases eq_slash_or_mem_segments hc with hslash | ⟨p, hp, _⟩
    · exact hslash
    · rw [hnone] at hp
      cases hp
  cases cs with
  | nil => cases h
  | cons c cs =>
    by_cases htilde : c = '~'
    · subst htilde
      cases cs with
      | nil => rfl
      | cons d cs =>
        obtain rfl : d = '/' := hslash d List.mem_cons_self
        have hrest : checkRest false (Text.splitWhere (· == '/') cs) = .ok () := h
        obtain ⟨piece, pieces, hpieces⟩ : ∃ piece pieces,
            Text.splitWhere (· == '/') cs = piece :: pieces := by
          rw [Text.splitWhere_eq_splitOnP]
          exact List.exists_cons_of_ne_nil (List.splitOnP_ne_nil _ _)
        have hpiece := isIdentifier_of_checkRest_false hrest piece (hpieces ▸ List.mem_cons_self)
        have hmem : piece ∈ segments cs := by
          rw [segments, hpieces, List.mem_filter]
          exact ⟨List.mem_cons_self, by simpa using (mem_of_isIdentifier hpiece).1⟩
        have hnil : segments ('/' :: cs) = [] := hnone
        rw [← segments_slash_cons, hnil] at hmem
        cases hmem
    · have hkept : dropTilde (c :: cs) = c :: cs :=
        dropTilde_eq_self fun rest heq => htilde (List.cons.inj heq).1
      have hmem : c ∈ dropTilde (c :: cs) := by
        rw [hkept]
        exact List.mem_cons_self
      exact absurd (congrArg some (hslash c hmem)) hrelative

end GraphName

namespace Scope

variable {s : Scope} {name : String} {rest : List Char}

/-- Names resolve as without the blanks around them. -/
theorem resolveName_trim (s : Scope) (name : String) :
    s.resolveName (Text.trim name) = s.resolveName name := by
  rw [resolveName, resolveName, Text.trim, String.toList_ofList, Text.trimChars_trimChars]

theorem resolveParamName_of_isAnchored (h : isAnchored (Text.trimChars name.toList) = true) :
    s.resolveParamName name = s.resolveName name := by
  simp only [resolveParamName, h, if_true]
  exact resolveName_trim s name

theorem resolveParamName_of_absolute (h : Text.trimChars name.toList = '/' :: rest) :
    s.resolveParamName name = GraphName.normalize (String.ofList rest) := by
  rw [resolveParamName_of_isAnchored (by rw [h]; rfl), resolveName, h]
  rfl

/-- **A name that is not absolute** leads below the namespace of relative parameters. -/
theorem resolveParamName_of_relative (h : (Text.trimChars name.toList).head? ≠ some '/') :
    s.resolveParamName name = GraphName.join s.paramNs
      (String.ofList (GraphName.dropTilde (Text.trimChars name.toList))) := by
  by_cases hanchored : isAnchored (Text.trimChars name.toList) = true
  · rw [resolveParamName_of_isAnchored hanchored, resolveName]
    unfold isAnchored at hanchored
    split at hanchored
    · rename_i hslash
      exact absurd (congrArg List.head? hslash) h
    · rename_i htilde
      rw [htilde]
      rfl
    · cases hanchored
  · have htilde : ∀ rest, Text.trimChars name.toList ≠ '~' :: rest := fun rest heq =>
      hanchored (by rw [heq]; rfl)
    rw [resolveParamName, GraphName.dropTilde_eq_self htilde]
    exact if_neg hanchored

/-- The segments of the name of a parameter: those of the name as it is written, behind those of the
namespace of relative parameters unless it is absolute. -/
theorem segmentsOf_resolveParamName (s : Scope) (name : String) : ∃ base,
    (base = [] ∨ base = GraphName.segmentsOf s.paramNs) ∧
      GraphName.segmentsOf (s.resolveParamName name) =
        base ++ GraphName.segments (GraphName.dropTilde (Text.trimChars name.toList)) := by
  by_cases h : (Text.trimChars name.toList).head? = some '/'
  · obtain ⟨rest, hrest⟩ := List.head?_eq_some_iff.1 h
    refine ⟨[], .inl rfl, ?_⟩
    rw [resolveParamName_of_absolute hrest, GraphName.segmentsOf_normalize, GraphName.segmentsOf,
      String.toList_ofList, hrest]
    exact (GraphName.segments_slash_cons rest).symm
  · refine ⟨_, .inr rfl, ?_⟩
    rw [resolveParamName_of_relative h, GraphName.segmentsOf_join, GraphName.segmentsOf,
      GraphName.segmentsOf, String.toList_ofList]

end Scope
end LaunchFile
