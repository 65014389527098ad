import LaunchFile.Proofs.GraphName.Segments

/-!
# Proofs/GraphName/Reroot — names moved under a namespace

`reroot ns` moves a resolved name under `ns`: the root becomes `ns` itself, and `/x` becomes `ns/x`.
On names in absolute form this is joining (`reroot_eq_join`), so that it commutes with joining
(`reroot_join`), merges no two names (`reroot_inj`) and keeps what lies below what, except below the
root (`isBelow_reroot`).
-/

namespace LaunchFile.GraphName

/-- A resolved name under `ns`. -/
def reroot (ns name : String) : String :=
  if name = "/" then ns
  else if ns = "/" then name
  else ns ++ name

/-! ## The root and its segments -/

theorem intercalate_append {sep : List Char} : ∀ {a b : List (List Char)}, a ≠ [] → b ≠ [] →
    sep.intercalate (a ++ b) = sep.intercalate a ++ sep ++ sep.intercalate b
  | [], _, ha, _ => absurd rfl ha
  | [_], _ :: _, _, _ => by simp
  | p :: q :: rest, b, _, hb => by
    have ih : sep.intercalate ((q :: rest) ++ b) = sep.intercalate (q :: rest) ++ sep ++
        sep.intercalate b := intercalate_append (List.cons_ne_nil _ _) hb
    rw [List.cons_append] at ih
    rw [List.cons_append, List.cons_append, List.intercalate_cons_cons, ih,
      List.intercalate_cons_cons]
    simp only [List.append_assoc]

theorem absolute_append {a b : List (List Char)} (ha : a ≠ []) (hb : b ≠ []) :
    absolute (a ++ b) = absolute a ++ absolute b := by
  rw [absolute, intercalate_append ha hb]
  simp [absolute]

/-- Only the root has no segments. -/
theorem IsAbsolute.segmentsOf_eq_nil_iff {name : String} (h : IsAbsolute name) :
    segmentsOf name = [] ↔ name = "/" := by
  constructor
  · exact fun hnil => h.ext isAbsolute_root hnil
  · rintro rfl
    decide

/-! ## Moving is joining -/

theorem reroot_eq_join {ns name : String} (hns : IsAbsolute ns) (hname : IsAbsolute name) :
    reroot ns name = join ns name := by
  have hsegs := segmentsOf_join ns name
  unfold reroot
  split
  · rename_i hroot
    rw [hname.segmentsOf_eq_nil_iff.2 hroot, List.append_nil] at hsegs
    exact hns.ext (isAbsolute_join _ _) hsegs.symm
  · rename_i hroot
    split
    · rename_i hnsRoot
      rw [hns.segmentsOf_eq_nil_iff.2 hnsRoot, List.nil_append] at hsegs
      exact hname.ext (isAbsolute_join _ _) hsegs.symm
    · rename_i hnsRoot
      have ha := mt hns.segmentsOf_eq_nil_iff.1 hnsRoot
      have hb := mt hname.segmentsOf_eq_nil_iff.1 hroot
      apply String.toList_inj.1
      rw [String.toList_append, (isAbsolute_join ns name).toList_eq, hsegs,
        absolute_append ha hb, ← hns.toList_eq, ← hname.toList_eq]

/-- An identifier is put behind a namespace with one slash between. -/
theorem IsAbsolute.join_of_isIdentifier {ns own : String} (h : IsAbsolute ns)
    (hown : isIdentifier own.toList = true) :
    join ns own = (if ns = "/" then "/" else ns ++ "/") ++ own := by
  have hsegments : segmentsOf own = [own.toList] :=
    segments_of_isSegment (isSegment_of_isIdentifier hown)
  have hslash : segmentsOf ("/" ++ own) = [own.toList] := by
    rw [segmentsOf, String.toList_append]
    exact (segments_slash_cons own.toList).trans hsegments
  have habsolute : IsAbsolute ("/" ++ own) := by
    have hform : absolute [own.toList] = ("/" ++ own).toList := by
      rw [absolute, List.intercalate_singleton, String.toList_append]
      rfl
    rw [IsAbsolute, normalize, normalizeChars]
    exact (congrArg (String.ofList <| absolute ·) hslash).trans
      (hform ▸ String.ofList_toList)
  have hroot : "/" ++ own ≠ "/" := fun heq =>
    List.cons_ne_nil _ _ (hslash.symm.trans (congrArg segmentsOf heq))
  calc join ns own
      = join ns ("/" ++ own) := (isAbsolute_join _ _).ext (isAbsolute_join _ _)
          (by rw [segmentsOf_join, segmentsOf_join, hsegments, hslash])
    _ = reroot ns ("/" ++ own) := (reroot_eq_join h habsolute).symm
    _ = (if ns = "/" then "/" else ns ++ "/") ++ own := by
      rw [reroot, if_neg hroot]
      split
      · rfl
      · exact String.append_assoc.symm

theorem segmentsOf_reroot {ns name : String} (hns : IsAbsolute ns) (hname : IsAbsolute name) :
    segmentsOf (reroot ns name) = segmentsOf ns ++ segmentsOf name := by
  rw [reroot_eq_join hns hname, segmentsOf_join]

theorem isAbsolute_reroot {ns name : String} (hns : IsAbsolute ns) (hname : IsAbsolute name) :
    IsAbsolute (reroot ns name) :=
  reroot_eq_join hns hname ▸ isAbsolute_join ns name

/-- **Moving a joined name is joining onto the moved base.** -/
theorem reroot_join {ns base : String} (hns : IsAbsolute ns) (hbase : IsAbsolute base)
    (name : String) : reroot ns (join base name) = join (reroot ns base) name := by
  rw [reroot_eq_join hns (isAbsolute_join base name)]
  refine (isAbsolute_join _ _).ext (isAbsolute_join _ _) ?_
  rw [segmentsOf_join, segmentsOf_join, segmentsOf_join, segmentsOf_reroot hns hbase,
    List.append_assoc]

theorem reroot_inj {ns a b : String} (hns : IsAbsolute ns) (ha : IsAbsolute a) (hb : IsAbsolute b)
    (h : reroot ns a = reroot ns b) : a = b := by
  have hsegs : segmentsOf ns ++ segmentsOf a = segmentsOf ns ++ segmentsOf b := by
    rw [← segmentsOf_reroot hns ha, ← segmentsOf_reroot hns hb, h]
  exact ha.ext hb (List.append_cancel_left hsegs)

/-! ## What lies below a name -/

/-- **A name lies below another, the root apart, when it has the other's segments and more.** -/
theorem isBelow_iff {base name : String} (hbase : IsAbsolute base) (hroot : base ≠ "/")
    (hname : IsAbsolute name) :
    isBelow base name = true ↔ ∃ more, more ≠ [] ∧ segmentsOf name = segmentsOf base ++ more := by
  rw [isBelow, List.isPrefixOf_iff_prefix]
  constructor
  · rintro ⟨rest, hrest⟩
    rw [List.append_assoc, List.singleton_append] at hrest
    have hsegs : segmentsOf name = segmentsOf base ++ segments rest := by
      rw [segmentsOf, ← hrest, segments_append_slash]
    refine ⟨segments rest, fun hnil => ?_, hsegs⟩
    rw [hnil, List.append_nil] at hsegs
    have hlen := congrArg List.length hrest
    rw [hname.ext hbase hsegs, List.length_append, List.length_cons] at hlen
    omega
  · rintro ⟨more, hmore, hsegs⟩
    have hne := mt hbase.segmentsOf_eq_nil_iff.1 hroot
    rw [hname.toList_eq, hsegs, absolute_append hne hmore, ← hbase.toList_eq]
    exact (List.prefix_append_right_inj _).2 ⟨_, rfl⟩

/-- A name moved under a namespace is no root, unless it was one. -/
theorem reroot_ne_root {ns name : String} (hns : IsAbsolute ns) (hname : IsAbsolute name)
    (hroot : name ≠ "/") : reroot ns name ≠ "/" := by
  rw [Ne, ← (isAbsolute_reroot hns hname).segmentsOf_eq_nil_iff, segmentsOf_reroot hns hname]
  exact fun h => hroot (hname.segmentsOf_eq_nil_iff.1 (List.append_eq_nil_iff.1 h).2)

theorem isBelow_reroot {ns base name : String} (hns : IsAbsolute ns) (hbase : IsAbsolute base)
    (hroot : base ≠ "/") (hname : IsAbsolute name) :
    isBelow (reroot ns base) (reroot ns name) = isBelow base name := by
  rw [Bool.eq_iff_iff, isBelow_iff hbase hroot hname,
    isBelow_iff (isAbsolute_reroot hns hbase) (reroot_ne_root hns hbase hroot)
      (isAbsolute_reroot hns hname),
    segmentsOf_reroot hns hbase, segmentsOf_reroot hns hname]
  simp only [List.append_assoc, List.append_cancel_left_eq]

end LaunchFile.GraphName
