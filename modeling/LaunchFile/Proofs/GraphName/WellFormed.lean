import LaunchFile.Namespace
import LaunchFile.Except
import LaunchFile.Proofs.GraphName.Segments

/-!
# Proofs/GraphName/WellFormed — accepted names resolve to well-formed names

Checks look at a name as it is written; resolving trims it, takes its first character for what it
may say about where the name starts, and puts it together from segments. The two fit: behind that
first character an accepted name has identifiers for segments (`isIdentifier_of_check`), so that it
resolves to a well-formed name where namespaces are well formed (`Scope.IsWellNamed`).
-/

namespace LaunchFile

namespace GraphName

/-! ## Well-formed names by their segments -/

/-- A name is well-formed if it is absolute and all its segments are identifiers. -/
theorem isWellFormed_iff {name : String} : IsWellFormed name ↔
    IsAbsolute name ∧ ∀ p ∈ segmentsOf name, isIdentifier p = true := by
  constructor
  · intro h
    refine ⟨h.isAbsolute, ?_⟩
    obtain ⟨pieces, hpieces, hname⟩ := h
    rwa [segmentsOf, hname,
      segments_absolute fun p hp => isSegment_of_isIdentifier (hpieces p hp)]
  · rintro ⟨habsolute, hsegments⟩
    exact ⟨segmentsOf name, hsegments, habsolute.toList_eq⟩

theorem isWellFormed_root : IsWellFormed "/" :=
  ⟨[], nofun, by decide⟩

/-- A well-formed name joined with identifiers. -/
theorem IsWellFormed.join {base name : String} (h : IsWellFormed base)
    (hname : ∀ p ∈ segmentsOf name, isIdentifier p = true) : IsWellFormed (join base name) := by
  rw [isWellFormed_iff, segmentsOf_join]
  exact ⟨isAbsolute_join base name,
    List.forall_mem_append.2 ⟨(isWellFormed_iff.1 h).2, hname⟩⟩

/-- Normalizing makes identifiers a well-formed name. -/
theorem isWellFormed_normalize {name : String}
    (h : ∀ p ∈ segmentsOf name, isIdentifier p = true) : IsWellFormed (normalize name) := by
  rw [isWellFormed_iff, segmentsOf_normalize]
  exact ⟨isAbsolute_normalize name, h⟩

/-! ## Accepted names -/

/-- The pieces that pass the check are identifiers, or empty. -/
theorem isIdentifier_of_checkRest {allowEmpty : Bool} : ∀ {pieces : List (List Char)},
    checkRest allowEmpty pieces = .ok () → ∀ p ∈ pieces, p ≠ [] → isIdentifier p = true
  | [], _, _, hmem, _ => absurd hmem List.not_mem_nil
  | [piece], h, p, hmem, hne => by
    obtain rfl := List.mem_singleton.1 hmem
    rw [checkRest, if_neg (by simpa using hne)] at h
    by_contra hnot
    rw [if_neg hnot] at h
    cases h
  | piece :: next :: rest, h, p, hmem, hne => by
    rw [checkRest] at h
    · split at h
      · rename_i hpiece
        rcases List.mem_cons.1 hmem with rfl | hmem
        · exact hpiece
        · exact isIdentifier_of_checkRest h p hmem hne
      · cases h
    · exact fun heq => absurd heq (List.cons_ne_nil _ _)

/-- What begins with another character has no tilde to drop. -/
theorem dropTilde_eq_self {cs : List Char} (h : ∀ rest, cs ≠ '~' :: rest) : dropTilde cs = cs := by
  unfold dropTilde
  split
  · rename_i rest
    exact absurd rfl (h rest)
  · rfl

/-- A character that is no slash goes with the first piece. -/
theorem exists_splitWhere_cons {c : Char} (hc : c ≠ '/') (cs : List Char) :
    ∃ piece pieces, Text.splitWhere (· == '/') cs = piece :: pieces ∧
      Text.splitWhere (· == '/') (c :: cs) = (c :: piece) :: pieces := by
  have hne : Text.splitWhere (· == '/') cs ≠ [] := by
    rw [Text.splitWhere_eq_splitOnP]
    exact List.splitOnP_ne_nil _ _
  obtain ⟨piece, pieces, hpieces⟩ := List.exists_cons_of_ne_nil hne
  refine ⟨piece, pieces, hpieces, ?_⟩
  rw [Text.splitWhere, if_neg (by simpa using hc), hpieces]

/-- The pieces of a text behind its tilde. -/
theorem splitWhere_dropTilde {cs first : List Char} {rest : List (List Char)}
    (h : Text.splitWhere (· == '/') cs = first :: rest) :
    Text.splitWhere (· == '/') (dropTilde cs) = dropTilde first :: rest := by
  cases cs with
  | nil =>
    cases h
    rfl
  | cons c cs =>
    by_cases hslash : c = '/'
    · rw [hslash] at h ⊢
      rw [Text.splitWhere, if_pos (by decide)] at h
      cases h
      rfl
    · obtain ⟨piece, pieces, hpieces, hsplit⟩ := exists_splitWhere_cons hslash cs
      rw [hsplit] at h
      cases h
      by_cases htilde : c = '~'
      · rw [htilde]
        exact hpieces
      · have hkept : ∀ tail, dropTilde (c :: tail) = c :: tail := fun tail =>
          dropTilde_eq_self fun rest heq => htilde (List.cons.inj heq).1
        rw [hkept, hkept, hsplit]

/-- **Behind its first character, an accepted name has identifiers for segments.** -/
theorem isIdentifier_of_check {allowEmpty : Bool} {name : String}
    (h : check allowEmpty name = .ok ()) :
    ∀ p ∈ segments (dropTilde (Text.trimChars name.toList)), isIdentifier p = true := by
  rw [check] at h
  generalize Text.trimChars name.toList = cs at h ⊢
  rw [checkChars] at h
  intro p hp
  split at h
  · rename_i hempty
    rw [List.isEmpty_iff.1 hempty] at hp
    cases hp
  · split at h
    · rename_i hnil
      rw [Text.splitWhere_eq_splitOnP] at hnil
      exact absurd hnil (List.splitOnP_ne_nil _ _)
    · rename_i first rest hsplit
      rw [segments, splitWhere_dropTilde hsplit, List.mem_filter] at hp
      obtain ⟨hmem, hne⟩ := hp
      dsimp only at h
      split at h
      · rename_i hfirst
        rcases List.mem_cons.1 hmem with rfl | hmem
        · simpa [show dropTilde first ≠ [] by simpa using hne] using hfirst
        · exact isIdentifier_of_checkRest h p hmem (by simpa using hne)
      · cases h

/-! ## Names of one segment -/

/-- A checked base name is an identifier between blanks. -/
theorem isIdentifier_of_checkBase {name : String} (h : checkBase name = .ok ()) :
    isIdentifier (Text.trimChars name.toList) = true := by
  by_contra hnot
  rw [checkBase, checkBaseChars, if_neg hnot] at h
  split at h
  · cases h
  · split at h
    · cases h
    · split at h <;> cases h

/-- A checked base name is one segment. -/
theorem segmentsOf_of_checkBase {name : String} (h : checkBase name = .ok ()) :
    segmentsOf (Text.trim name) = [Text.trimChars name.toList] := by
  rw [segmentsOf, Text.trim, String.toList_ofList]
  exact segments_of_isSegment (isSegment_of_isIdentifier (isIdentifier_of_checkBase h))

end GraphName

/-- What is checked under a name passes as it does by itself. -/
theorem Result.eq_ok_of_ofName {α : Type} {name : String} {r : Except NameFault α} {a : α}
    (h : Result.ofName name r = .ok a) : r = .ok a := by
  cases r with
  | error fault => cases h
  | ok b => exact congrArg Except.ok (Except.ok.inj h)

/-! ## Resolving -/

/-- A name of one segment is put behind the namespace, also when blanks are around it. -/
theorem resolveName_of_checkBase (s : Scope) {name : String}
    (h : GraphName.checkBase name = .ok ()) :
    s.resolveName name = GraphName.join s.ns (Text.trim name) ∧ s.resolveName name ≠ "/" := by
  obtain ⟨hsegment, htilde⟩ := GraphName.isSegment_of_checkBase h
  have hjoin : s.resolveName name = GraphName.join s.ns (Text.trim name) := by
    rw [Scope.resolveName]
    split
    · rename_i rest htrim
      exact absurd (htrim ▸ List.mem_cons_self) hsegment.2
    · rename_i rest htrim
      exact absurd (congrArg List.head? htrim) htilde
    · rfl
  refine ⟨hjoin, fun hroot => ?_⟩
  have hsegs := GraphName.segmentsOf_join s.ns (Text.trim name)
  rw [← hjoin, hroot, GraphName.segmentsOf_of_checkBase h] at hsegs
  exact List.append_ne_nil_of_right_ne_nil _ (List.cons_ne_nil _ _) hsegs.symm

/-- A well-formed name resolves to itself. -/
theorem Scope.resolveName_of_isWellFormed (s : Scope) {name : String}
    (h : GraphName.IsWellFormed name) : s.resolveName name = name := by
  have htrim := h.trimChars
  rw [h.isAbsolute.toList_eq, GraphName.absolute] at htrim
  rw [Scope.resolveName, h.isAbsolute.toList_eq, GraphName.absolute, htrim]
  refine (GraphName.isAbsolute_normalize _).ext h.isAbsolute ?_
  rw [GraphName.segmentsOf_normalize, GraphName.segmentsOf, String.toList_ofList,
    ← GraphName.segments_slash_cons, ← GraphName.absolute, ← h.isAbsolute.toList_eq]

namespace Scope

open GraphName (IsWellFormed check dropTilde isIdentifier_of_check)

/-- Where the names of a scope start is well formed, and so is every name that it maps. -/
structure IsWellNamed (s : Scope) : Prop where
  ns : IsWellFormed s.ns
  privateNs : ∀ ns ∈ s.privateNs, IsWellFormed ns
  remaps : ∀ pair ∈ s.remaps, IsWellFormed pair.1 ∧ IsWellFormed pair.2

namespace IsWellNamed

variable {s : Scope}

/-- The namespace of parameters is well-formed. -/
theorem paramNs (h : s.IsWellNamed) : IsWellFormed s.paramNs := by
  rw [Scope.paramNs]
  cases hprivate : s.privateNs with
  | none => exact h.ns
  | some ns => exact h.privateNs ns hprivate

/-- **An accepted name resolves to a well-formed one.** -/
theorem resolveName (h : s.IsWellNamed) {allowEmpty : Bool} {name : String}
    (hcheck : check allowEmpty name = .ok ()) : IsWellFormed (s.resolveName name) := by
  have hpieces := isIdentifier_of_check hcheck
  rw [Scope.resolveName]
  split
  · rename_i rest htrim
    rw [htrim] at hpieces
    refine GraphName.isWellFormed_normalize ?_
    rwa [GraphName.segmentsOf, String.toList_ofList, ← GraphName.segments_slash_cons]
  · rename_i rest htrim
    rw [htrim] at hpieces
    refine h.paramNs.join ?_
    rwa [GraphName.segmentsOf, String.toList_ofList]
  · rename_i hslash htilde
    rw [GraphName.dropTilde_eq_self htilde] at hpieces
    refine h.ns.join ?_
    rwa [GraphName.segmentsOf, String.toList_ofList]

/-- **An accepted name of a parameter resolves to a well-formed one.** -/
theorem resolveParamName (h : s.IsWellNamed) {allowEmpty : Bool} {name : String}
    (hcheck : check allowEmpty name = .ok ()) : IsWellFormed (s.resolveParamName name) := by
  have hpieces := isIdentifier_of_check hcheck
  rw [Scope.resolveParamName]
  split
  · have htrimmed : check allowEmpty (String.ofList (Text.trimChars name.toList)) = .ok () := by
      rw [check, String.toList_ofList, Text.trimChars_trimChars]
      exact hcheck
    exact h.resolveName htrimmed
  · rename_i hrelative
    have htilde : ∀ rest, Text.trimChars name.toList ≠ '~' :: rest := fun rest heq =>
      hrelative (by rw [heq]; rfl)
    rw [GraphName.dropTilde_eq_self htilde] at hpieces
    refine h.paramNs.join ?_
    rwa [GraphName.segmentsOf, String.toList_ofList]

/-! ## Derived scopes -/

/-- A namespace that is entered is well-formed. -/
theorem enterNs (h : s.IsWellNamed) {ns : Option String} {inner : Scope}
    (hentered : s.enterNs ns = .ok inner) : inner.IsWellNamed := by
  cases ns with
  | none => exact Except.ok.inj hentered ▸ h
  | some ns =>
    obtain ⟨_, hcheck, hentered⟩ := Except.bind_eq_ok hentered
    cases hentered
    exact { h with ns := h.resolveName (Result.eq_ok_of_ofName hcheck) }

/-- Inside of a node names stay well-formed. -/
theorem enterNode (h : s.IsWellNamed) {name : String}
    (hname : GraphName.checkBase name = .ok ()) :
    (s.enterNode (s.resolveName name)).IsWellNamed := by
  have hfull : IsWellFormed (s.resolveName name) := by
    rw [(resolveName_of_checkBase s hname).1]
    refine h.ns.join fun p hp => ?_
    rw [GraphName.segmentsOf_of_checkBase hname, List.mem_singleton] at hp
    exact hp ▸ GraphName.isIdentifier_of_checkBase hname
  exact { h with privateNs := fun _ hns => Option.mem_some_iff.1 hns ▸ hfull }

/-- A checked pair keeps the scope well-named. -/
theorem addRemap (h : s.IsWellNamed) {source target : String}
    (hsource : check false source = .ok ()) (htarget : check false target = .ok ()) :
    (s.addRemap source target).IsWellNamed where
  ns := h.ns
  privateNs := h.privateNs
  remaps := List.forall_mem_append.2 ⟨fun pair hpair => h.remaps pair (List.mem_filter.1 hpair).1,
    fun _ hpair => List.mem_singleton.1 hpair ▸ ⟨h.resolveName hsource, h.resolveName htarget⟩⟩

/-- An argument has no name that is resolved. -/
theorem bind (h : s.IsWellNamed) {name : String} {binding : ArgBinding} {behind : Scope}
    (hbind : s.bind name binding = .ok behind) : behind.IsWellNamed := by
  rw [Scope.bind] at hbind
  split at hbind
  · cases hbind
    exact ⟨h.ns, h.privateNs, h.remaps⟩
  · split at hbind <;> cases hbind
    exact ⟨h.ns, h.privateNs, h.remaps⟩

/-- The scope of an included file is well-named. -/
theorem forInclude (h : s.IsWellNamed) (file : Path) : (s.forInclude file).IsWellNamed :=
  ⟨h.ns, nofun, nofun⟩

end IsWellNamed
end Scope
end LaunchFile
