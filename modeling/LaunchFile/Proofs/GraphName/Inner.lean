import LaunchFile.Proofs.GraphName.WellFormed
import LaunchFile.Proofs.Substitution.Plain
import LaunchFile.Proofs.Text.Trim

/-!
# Proofs/GraphName/Inner — namespaces written inside of others

A namespace without a slash or a tilde in front is accepted piece by piece
(`checkChars_of_isAnchored`), so that two accepted ones with a slash between them are accepted again
(`IsInner.append_slash`). It resolves to itself behind the namespace at hand, so that entering one
and then the other is entering both at once (`Scope.pushNamespace_pushNamespace`).
-/

namespace LaunchFile

namespace GraphName

/-! ## Pieces -/

/-- A text that does not end with a slash does not end with an empty piece. -/
theorem getLast?_splitWhere : ∀ {cs : List Char}, cs ≠ [] → cs.getLast? ≠ some '/' →
    (Text.splitWhere (· == '/') cs).getLast? ≠ some []
  | [], hne, _ => absurd rfl hne
  | [c], _, hlast => by
    have hc : c ≠ '/' := fun heq => hlast (by rw [heq]; rfl)
    obtain ⟨piece, pieces, hnil, hsplit⟩ := exists_splitWhere_cons hc []
    cases hnil
    simp [hsplit]
  | c :: d :: cs, _, hlast => by
    have ih : (Text.splitWhere (· == '/') (d :: cs)).getLast? ≠ some [] :=
      getLast?_splitWhere (List.cons_ne_nil d cs) (by simpa using hlast)
    by_cases hc : c = '/'
    · rw [Text.splitWhere, if_pos (by simpa using hc), List.getLast?_cons]
      cases hrest : (Text.splitWhere (· == '/') (d :: cs)).getLast? with
      | none =>
        rw [List.getLast?_eq_none_iff, Text.splitWhere_eq_splitOnP] at hrest
        exact absurd hrest (List.splitOnP_ne_nil _ _)
      | some piece => rwa [hrest] at ih
    · obtain ⟨piece, pieces, hpieces, hsplit⟩ := exists_splitWhere_cons hc (d :: cs)
      rw [hpieces] at ih
      rw [hsplit]
      cases pieces with
      | nil => simp
      | cons next rest => simpa using ih

/-- Every character of a name is a slash or stands in one of its segments. -/
theorem eq_slash_or_mem_segments {c : Char} : ∀ {cs : List Char}, c ∈ cs →
    c = '/' ∨ ∃ p ∈ segments cs, c ∈ p
  | d :: cs, h => by
    by_cases hd : d = '/'
    · rw [hd, segments_slash_cons]
      rcases List.mem_cons.1 h with rfl | h
      · exact .inl hd
      · exact eq_slash_or_mem_segments h
    · obtain ⟨piece, pieces, hpieces, hsplit⟩ := exists_splitWhere_cons hd cs
      have hfirst : d :: piece ∈ segments (d :: cs) := by simp [segments, hsplit]
      rcases List.mem_cons.1 h with rfl | h
      · exact .inr ⟨_, hfirst, List.mem_cons_self⟩
      · rcases eq_slash_or_mem_segments h with hslash | ⟨p, hp, hc⟩
        · exact .inl hslash
        · rw [segments, hpieces, List.mem_filter] at hp
          rcases List.mem_cons.1 hp.1 with rfl | hmem
          · exact .inr ⟨_, hfirst, List.mem_cons_of_mem _ hc⟩
          · refine .inr ⟨p, ?_, hc⟩
            rw [segments, hsplit, List.mem_filter]
            exact ⟨List.mem_cons_of_mem _ hmem, hp.2⟩

/-! ## Checks piece by piece -/

/-- Of accepted pieces only the last may be empty. -/
theorem nil_notMem_of_checkRest {allowEmpty : Bool} : ∀ {pieces : List (List Char)},
    checkRest allowEmpty pieces = .ok () → pieces.getLast? ≠ some [] → [] ∉ pieces
  | [], _, _ => List.not_mem_nil
  | [piece], _, hlast => fun hmem => hlast (by rw [← List.mem_singleton.1 hmem]; rfl)
  | piece :: next :: rest, h, hlast => by
    rw [checkRest] at h
    · split at h
      · rename_i hpiece
        have hrest := nil_notMem_of_checkRest h (by simpa using hlast)
        intro hmem
        rcases List.mem_cons.1 hmem with heq | hmem
        · exact (mem_of_isIdentifier hpiece).1 heq.symm
        · exact hrest hmem
      · cases h
    · exact fun heq => absurd heq (List.cons_ne_nil _ _)

/-- Identifiers in front are no matter. -/
theorem checkRest_append {allowEmpty : Bool} {rest : List (List Char)} (hrest : rest ≠ []) :
    ∀ {pieces : List (List Char)}, (∀ p ∈ pieces, isIdentifier p = true) →
      checkRest allowEmpty (pieces ++ rest) = checkRest allowEmpty rest
  | [], _ => rfl
  | piece :: pieces, h => by
    rw [List.cons_append, checkRest, if_pos (h piece List.mem_cons_self),
      checkRest_append hrest fun p hp => h p (List.mem_cons_of_mem _ hp)]
    exact fun heq => absurd heq (List.append_ne_nil_of_right_ne_nil _ hrest)

/-- **A namespace that is neither absolute nor private is checked piece by piece.** -/
theorem checkChars_of_isAnchored {cs : List Char} (h : Scope.isAnchored cs = false) :
    checkChars true cs = checkRest true (Text.splitWhere (· == '/') cs) := by
  cases cs with
  | nil => rfl
  | cons c cs =>
    have hslash : c ≠ '/' := fun heq => by simp [heq, Scope.isAnchored] at h
    have htilde : c ≠ '~' := fun heq => by simp [heq, Scope.isAnchored] at h
    obtain ⟨piece, pieces, -, hsplit⟩ := exists_splitWhere_cons hslash cs
    have hdrop : dropTilde (c :: piece) = c :: piece :=
      dropTilde_eq_self fun rest heq => htilde (List.cons.inj heq).1
    rw [checkChars, hsplit]
    cases pieces with
    | nil => simp [hdrop, checkRest]
    | cons next rest => simp [hdrop, checkRest]

/-- An accepted name has no character that means something in an attribute text. -/
theorem isPlain_of_check {allowEmpty : Bool} {name : String}
    (h : check allowEmpty name = .ok ()) : Segment.IsPlain name.toList := by
  have hpieces := isIdentifier_of_check h
  have hchars : ∀ c ∈ name.toList, Text.isBlank c = true ∨ c = '~' ∨
      47 ≤ c.toNat ∧ c.toNat ≤ 122 := by
    intro c hc
    refine (Text.isBlank_or_mem_trimChars hc).imp_right fun hc => ?_
    have hdrop : c = '~' ∨ c ∈ dropTilde (Text.trimChars name.toList) := by
      unfold dropTilde
      split
      · rename_i htrim
        rwa [htrim, List.mem_cons] at hc
      · exact .inr hc
    refine hdrop.imp_right fun hc => ?_
    rcases eq_slash_or_mem_segments hc with rfl | ⟨p, hp, hmem⟩
    · decide
    · have := toNat_of_isAlphanum ((mem_of_isIdentifier (hpieces p hp)).2 c hmem)
      omega
  intro c hc
  simp only [Segment.isSpecial, Bool.or_eq_false_iff, beq_eq_false_iff_ne]
  refine ⟨⟨?_, ?_⟩, ?_⟩ <;> rintro rfl <;> exact absurd (hchars _ hc) (by decide)

/-! ## Inner namespaces -/

/-- A namespace as it may be written inside of another: accepted, without blanks around it, and
neither absolute nor private. -/
structure IsInner (name : String) : Prop where
  trimmed : Text.trim name = name
  accepted : check true name = .ok ()
  relative : Scope.isAnchored name.toList = false

namespace IsInner

variable {name x y : String}

theorem trimChars (h : IsInner name) : Text.trimChars name.toList = name.toList := by
  conv => rhs; rw [← h.trimmed]
  rw [Text.trim, String.toList_ofList]

theorem checkRest (h : IsInner name) :
    GraphName.checkRest true (Text.splitWhere (· == '/') name.toList) = .ok () := by
  rw [← checkChars_of_isAnchored h.relative, ← h.trimChars]
  exact h.accepted

/-- An inner namespace resolves to itself behind the namespace at hand. -/
theorem resolveName (h : IsInner name) (s : Scope) : s.resolveName name = join s.ns name := by
  have hrelative := h.relative
  rw [Scope.resolveName, h.trimChars]
  split
  · rename_i heq
    rw [heq] at hrelative
    cases hrelative
  · rename_i heq
    rw [heq] at hrelative
    cases hrelative
  · rw [String.ofList_toList]

/-- An inner namespace has no character that means something in an attribute text. -/
theorem isPlain (h : IsInner name) : Segment.IsPlain name.toList :=
  isPlain_of_check h.accepted

/-- **Two inner namespaces with a slash between them are one.** -/
theorem append_slash (hx : IsInner x) (hy : IsInner y) (hne : x ≠ "")
    (hlast : x.toList.getLast? ≠ some '/') : IsInner (x ++ "/" ++ y) := by
  have hchars : (x ++ "/" ++ y).toList = x.toList ++ '/' :: y.toList := by simp
  obtain ⟨c, cs, hcons⟩ := List.exists_cons_of_ne_nil (mt String.toList_eq_nil_iff.1 hne)
  have hvisible : Text.isBlank c = false := by
    have htrim := Text.trimStartChars_trimChars x.toList
    rw [hx.trimChars, hcons, Text.trimStartChars] at htrim
    by_contra hblank
    rw [List.dropWhile_cons_of_pos (by simpa using hblank)] at htrim
    have hlength := congrArg List.length htrim
    have hle := (List.dropWhile_sublist Text.isBlank (l := cs)).length_le
    simp at hlength
    omega
  have htrim : Text.trimChars (x.toList ++ '/' :: y.toList) = x.toList ++ '/' :: y.toList := by
    rw [hcons]
    exact Text.trimChars_append_cons hvisible (by decide) hy.trimChars cs
  have hrelative : Scope.isAnchored (x.toList ++ '/' :: y.toList) = false := by
    rw [← hx.relative, hcons]
    unfold Scope.isAnchored
    split <;> split <;> simp_all
  refine ⟨?_, ?_, hchars ▸ hrelative⟩
  · rw [Text.trim, hchars, htrim, ← hchars, String.ofList_toList]
  · have hpieces : ∀ p ∈ Text.splitWhere (· == '/') x.toList, isIdentifier p = true :=
      fun p hp => isIdentifier_of_checkRest hx.checkRest p hp fun hnil =>
        nil_notMem_of_checkRest hx.checkRest
          (getLast?_splitWhere (mt String.toList_eq_nil_iff.1 hne) hlast) (hnil ▸ hp)
    have hsplit : Text.splitWhere (· == '/') (x.toList ++ '/' :: y.toList) =
        Text.splitWhere (· == '/') x.toList ++ Text.splitWhere (· == '/') y.toList := by
      simp only [Text.splitWhere_eq_splitOnP]
      exact List.splitOnP_append_cons _ _ (by rfl)
    have hrest : Text.splitWhere (· == '/') y.toList ≠ [] := by
      rw [Text.splitWhere_eq_splitOnP]
      exact List.splitOnP_ne_nil _ _
    rw [check, hchars, htrim, checkChars_of_isAnchored hrelative, hsplit,
      checkRest_append hrest hpieces, hy.checkRest]

end IsInner
end GraphName

/-! ## Entering one behind the other -/

/-- **Entering two inner namespaces one behind the other is entering them at once.** -/
theorem Scope.pushNamespace_pushNamespace (s : Scope) {x y : String} (hx : GraphName.IsInner x)
    (hy : GraphName.IsInner y) (hne : x ≠ "") (hlast : x.toList.getLast? ≠ some '/') :
    (s.pushNamespace x).pushNamespace y = s.pushNamespace (x ++ "/" ++ y) := by
  have hns : (s.pushNamespace x).resolveName y = s.resolveName (x ++ "/" ++ y) :=
    calc (s.pushNamespace x).resolveName y
        = GraphName.join (s.resolveName x) y := hy.resolveName _
      _ = GraphName.join (GraphName.join s.ns x) y := by rw [hx.resolveName]
      _ = GraphName.join s.ns (x ++ "/" ++ y) := GraphName.join_join _ _ _
      _ = s.resolveName (x ++ "/" ++ y) := ((hx.append_slash hy hne hlast).resolveName s).symm
  exact congrArg (fun ns => { s with ns }) hns

end LaunchFile
