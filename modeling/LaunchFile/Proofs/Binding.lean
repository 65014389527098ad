import LaunchFile.Proofs.Dict
import LaunchFile.Proofs.Distinct
import LaunchFile.Except
import Mathlib.Data.List.DropRight

/-!
# Proofs/Binding — what a row of bindings leaves of an argument

Arguments are bound one after the other, from outside and from inside of a file, with a value or
without one. Where no binding contradicts what is there, the entry of a name is its last override,
or its first binding if it was never overridden (`settled`), however the two kinds interleave; and
names stand in the order in which they were bound first (`bindAll_settles`).
-/

namespace LaunchFile

namespace ArgBinding

/-- Given from outside. -/
def isOverride (b : ArgBinding) : Bool :=
  b.origin == .override

/-- What is left of the bindings of one name: the last override, which gets the first description
that it or a later binding has, or else the first binding. -/
def settled (bs : List ArgBinding) : Option ArgBinding :=
  match bs.reverse.find? isOverride with
  | some b => some { b with doc := b.doc <|> (bs.rtakeWhile (! ·.isOverride)).findSome? doc }
  | none => bs.head?

/-- A binding is refused by an entry that has another value: by one from outside only if the binding
is a `value`, by one from inside whatever it is, overrides apart. -/
def Refuses (existing b : ArgBinding) : Prop :=
  b.origin ≠ .override ∧
    (existing.origin = .override ∧ b.origin = .value ∧ existing.value ≠ b.value ∨
      existing.origin ≠ .override ∧ existing.value ≠ b.value)

/-- What an entry becomes by a binding that it does not refuse. -/
def after (existing b : ArgBinding) : ArgBinding :=
  if b.isOverride then b
  else if existing.isOverride then { existing with doc := existing.doc <|> b.doc }
  else existing

variable {b existing kept : ArgBinding} {bs : List ArgBinding}

/-! ## One name -/

/-- A binding is refused where it cannot stand beside the existing one. -/
theorem rebind?_eq_none_iff : Scope.rebind? existing b = none ↔ existing.Refuses b := by
  rw [Scope.rebind?, Refuses]
  by_cases hb : b.origin = .override
  · simp [hb]
  · by_cases hexisting : existing.origin = .override <;>
      by_cases hvalue : existing.value = b.value <;> simp [hb, hexisting, hvalue]

/-- What is kept of two bindings is the later one, on top of the existing one. -/
theorem eq_after_of_rebind? (h : Scope.rebind? existing b = some kept) :
    kept = existing.after b := by
  rw [Scope.rebind?] at h
  by_cases hb : (b.origin == .override) = true
  · rw [if_pos hb] at h
    rw [after, isOverride, if_pos hb, Option.some.inj h]
  · rw [after, isOverride, isOverride, if_neg hb]
    rw [if_neg hb] at h
    split <;> rename_i hexisting
    · rw [if_pos hexisting] at h
      split at h <;> cases h
      rfl
    · rw [if_neg hexisting] at h
      split at h <;> cases h
      rfl

theorem rebind?_eq_after (h : ¬existing.Refuses b) :
    Scope.rebind? existing b = some (existing.after b) := by
  obtain ⟨kept, hkept⟩ := Option.ne_none_iff_exists'.1 (mt rebind?_eq_none_iff.1 h)
  rw [hkept, eq_after_of_rebind? hkept]

/-- What is given from outside replaces what was there. -/
theorem after_of_isOverride (hb : b.isOverride = true) : existing.after b = b :=
  if_pos hb

/-- What was given from outside stays, and may gain a description. -/
theorem after_of_outside (hexisting : existing.isOverride = true) (hb : ¬b.isOverride = true) :
    existing.after b = { existing with doc := existing.doc <|> b.doc } := by
  rw [after, if_neg hb, if_pos hexisting]

/-- Of two bindings inside, the first stays. -/
theorem after_of_inside (hexisting : ¬existing.isOverride = true) (hb : ¬b.isOverride = true) :
    existing.after b = existing := by
  rw [after, if_neg hb, if_neg hexisting]

/-- A binding that was made is not refused by what it has left. -/
theorem not_refuses_after (h : ¬existing.Refuses b) : ¬(existing.after b).Refuses b := by
  by_cases hb : b.isOverride = true
  · exact fun hrefuses => hrefuses.1 (eq_of_beq hb)
  · by_cases hexisting : existing.isOverride = true
    · rw [after_of_outside hexisting hb]
      exact h
    · rwa [after_of_inside hexisting hb]

/-- A binding does not refuse itself. -/
theorem not_refuses_self : ¬b.Refuses b :=
  fun h => h.2.elim (fun hvalue => hvalue.2.2 rfl) fun hvalue => hvalue.2 rfl

/-- To bind once more changes nothing. -/
theorem after_after : (existing.after b).after b = existing.after b := by
  by_cases hb : b.isOverride = true
  · rw [after_of_isOverride hb, after_of_isOverride hb]
  · by_cases hexisting : existing.isOverride = true
    · have hkept : isOverride { existing with doc := existing.doc <|> b.doc } = true := hexisting
      rw [after_of_outside hexisting hb, after_of_outside hkept hb]
      cases existing.doc <;> cases b.doc <;> rfl
    · rw [after_of_inside hexisting hb, after_of_inside hexisting hb]

/-- A binding on top of itself is the same. -/
theorem after_self : b.after b = b := by
  by_cases hb : b.isOverride = true
  · exact after_of_isOverride hb
  · exact after_of_inside hb hb

/-! ## A row of bindings -/

/-- **One binding more** settles with those before it as it does with the entry that they left. -/
theorem settled_concat :
    settled (bs ++ [b]) = some ((settled bs).elim b (·.after b)) := by
  by_cases hb : b.isOverride = true
  · rw [settled, List.reverse_concat, List.find?_cons_of_pos hb,
      List.rtakeWhile_concat_neg _ _ _ (by simp [hb])]
    cases settled bs with
    | none => simp
    | some existing => simp [after_of_isOverride hb]
  · rw [settled, settled, List.reverse_concat, List.find?_cons_of_neg hb]
    cases hlast : bs.reverse.find? isOverride with
    | some last =>
      have hoverride : last.isOverride = true := List.find?_some hlast
      have hkept : ∀ d, isOverride { last with doc := d } = true := fun _ => hoverride
      rw [List.rtakeWhile_concat_pos _ _ _ (by simp [hb]), List.findSome?_append, Option.elim_some,
        after_of_outside (hkept _) hb]
      simp [Option.or_assoc]
    | none =>
      cases bs with
      | nil => rfl
      | cons first rest =>
        have hfirst : ¬first.isOverride = true := List.find?_eq_none.1 hlast first (by simp)
        rw [List.head?_cons, Option.elim_some, after_of_inside hfirst hb]
        rfl

end ArgBinding

namespace Scope

/-- Bind names one after the other. -/
def bindAll (s : Scope) (calls : List (String × ArgBinding)) : Result Scope :=
  calls.foldlM (fun s call => s.bind call.1 call.2) s

/-- What a name is bound to, in a row of bindings. -/
def bindingsOf (name : String) (calls : List (String × ArgBinding)) : List ArgBinding :=
  (calls.filter (·.1 == name)).map Prod.snd

variable {s t u : Scope} {name : String} {b : ArgBinding} {calls : List (String × ArgBinding)}

/-! ## One binding in a scope -/

/-- **A binding is refused** exactly by the entry of its name. -/
theorem bind_eq_error_iff {e : LaunchError} :
    s.bind name b = .error e ↔ ∃ existing, s.args.get? name = some existing ∧
      existing.Refuses b ∧ e = .ofCause (.argConflict name existing.value b.value) := by
  rw [bind]
  cases hfound : s.args.get? name with
  | none => simp
  | some existing =>
    by_cases hrefuses : existing.Refuses b
    · simp only [ArgBinding.rebind?_eq_none_iff.2 hrefuses, Option.some.injEq, exists_eq_left',
        hrefuses, true_and]
      exact ⟨fun h => (Except.error.inj h).symm, fun h => congrArg _ h.symm⟩
    · simp [ArgBinding.rebind?_eq_after hrefuses, hrefuses]

/-- **A binding that nothing refuses is made.** -/
theorem bind_of_not_refuses
    (h : ∀ existing, s.args.get? name = some existing → ¬existing.Refuses b) :
    s.bind name b = .ok (s.setArg name ((s.args.get? name).elim b (·.after b))) := by
  rw [bind]
  cases hfound : s.args.get? name with
  | none => rfl
  | some existing => simp only [ArgBinding.rebind?_eq_after (h existing hfound), Option.elim_some]

/-- A binding that was made was not refused. -/
theorem not_refuses_of_bind (h : s.bind name b = .ok t) {existing : ArgBinding}
    (hfound : s.args.get? name = some existing) : ¬existing.Refuses b := by
  intro hrefuses
  rw [bind_eq_error_iff.2 ⟨existing, hfound, hrefuses, rfl⟩] at h
  cases h

/-- A binding that was made is on top of what was there. -/
theorem eq_setArg_of_bind (h : s.bind name b = .ok t) :
    t = s.setArg name ((s.args.get? name).elim b (·.after b)) := by
  rw [bind_of_not_refuses fun _ => not_refuses_of_bind h] at h
  exact (Except.ok.inj h).symm

/-- What a binding that was made leaves does not refuse it, and gains nothing by it. -/
theorem settles_again (h : s.bind name b = .ok t) {kept : ArgBinding}
    (hkept : (s.args.get? name).elim b (·.after b) = kept) :
    ¬kept.Refuses b ∧ kept.after b = kept := by
  subst hkept
  cases hfound : s.args.get? name with
  | none => exact ⟨ArgBinding.not_refuses_self, ArgBinding.after_self⟩
  | some existing =>
    exact ⟨ArgBinding.not_refuses_after (not_refuses_of_bind h hfound), ArgBinding.after_after⟩

/-- **To bind the same again** at once changes nothing. -/
theorem bind_again (h : s.bind name b = .ok t) : t.bind name b = .ok t := by
  obtain ⟨hnot, hsame⟩ := settles_again h rfl
  obtain rfl := eq_setArg_of_bind h
  generalize (s.args.get? name).elim b (·.after b) = kept at hnot hsame ⊢
  have hfound : (s.setArg name kept).args.get? name = some kept := Dict.get?_insert_self _ _ _
  rw [bind_of_not_refuses, hfound, Option.elim_some, hsame, setArg, setArg, Dict.insert_insert]
  intro existing hexisting
  rwa [← Option.some.inj (hfound.symm.trans hexisting)]

/-- Behind a binding its name has what was bound, and all others what they had. -/
theorem get?_of_bind (h : s.bind name b = .ok t) (other : String) :
    t.args.get? other =
      if name = other then some ((s.args.get? name).elim b (·.after b)) else s.args.get? other := by
  rw [eq_setArg_of_bind h]
  split
  · rename_i hname
    rw [← hname]
    exact Dict.get?_insert_self _ _ _
  · rename_i hname
    exact Dict.get?_insert_of_ne _ _ hname

/-- No name disappears, and a new one comes last. -/
theorem keys_of_bind (h : s.bind name b = .ok t) :
    t.args.keys = if name ∈ s.args.keys then s.args.keys else s.args.keys ++ [name] := by
  rw [eq_setArg_of_bind h]
  exact Dict.keys_insert _ _ _

/-! ## A row of bindings -/

/-- A row of bindings ends with its last. -/
theorem bindAll_concat (call : String × ArgBinding) :
    s.bindAll (calls ++ [call]) = (s.bindAll calls >>= fun t => t.bind call.1 call.2) := by
  rw [bindAll, List.foldlM_append, ← bindAll]
  exact bind_congr fun t => bind_pure (t.bind call.1 call.2)

/-- The bindings of a name in a row come in its order. -/
theorem bindingsOf_concat (call : String × ArgBinding) :
    bindingsOf name (calls ++ [call]) =
      if call.1 = name then bindingsOf name calls ++ [call.2] else bindingsOf name calls := by
  rw [bindingsOf, List.filter_append, List.map_append]
  by_cases hname : call.1 = name <;> simp [hname, bindingsOf]

/-- Only entries change. -/
theorem eq_of_bindAll (h : s.bindAll calls = .ok t) : t = { s with args := t.args } := by
  induction calls using List.reverseRecOn generalizing t with
  | nil => cases h; rfl
  | append_singleton calls call ih =>
    rw [bindAll_concat] at h
    obtain ⟨u, hu, hcall⟩ := Except.bind_eq_ok h
    rw [eq_setArg_of_bind hcall, setArg, ih hu]

/-- **The entry of a name** is what its bindings settle to. -/
theorem get?_bindAll (hs : s.args = .empty) (h : s.bindAll calls = .ok t) (name : String) :
    t.args.get? name = ArgBinding.settled (bindingsOf name calls) := by
  induction calls using List.reverseRecOn generalizing t with
  | nil =>
    cases h
    rw [hs]
    rfl
  | append_singleton calls call ih =>
    rw [bindAll_concat] at h
    obtain ⟨u, hu, hcall⟩ := Except.bind_eq_ok h
    rw [get?_of_bind hcall, bindingsOf_concat]
    split
    · rename_i hname
      rw [ArgBinding.settled_concat, ← ih hu, hname]
    · exact ih hu

/-- **Names stand in the order** in which they were bound first. -/
theorem keys_bindAll (hs : s.args = .empty) (h : s.bindAll calls = .ok t) :
    t.args.keys = (firstOfEach Prod.fst calls).map Prod.fst := by
  induction calls using List.reverseRecOn generalizing t with
  | nil =>
    cases h
    rw [hs]
    rfl
  | append_singleton calls call ih =>
    rw [bindAll_concat] at h
    obtain ⟨u, hu, hcall⟩ := Except.bind_eq_ok h
    rw [keys_of_bind hcall, ih hu, firstOfEach_concat]
    by_cases hmem : call.1 ∈ calls.map Prod.fst
    · rw [if_pos ((mem_names_firstOfEach calls).2 hmem), if_pos (any_name_eq_true.2 hmem)]
    · rw [if_neg (mt (mem_names_firstOfEach calls).1 hmem), if_neg (mt any_name_eq_true.1 hmem),
        List.map_append]
      rfl

/-- Names that are bound stay, in their places. -/
theorem keys_prefix_of_bindAll (h : s.bindAll calls = .ok t) : s.args.keys <+: t.args.keys := by
  induction calls using List.reverseRecOn generalizing t with
  | nil => cases h; exact List.prefix_rfl
  | append_singleton calls call ih =>
    rw [bindAll_concat] at h
    obtain ⟨u, hu, hcall⟩ := Except.bind_eq_ok h
    refine (ih hu).trans ?_
    rw [keys_of_bind hcall]
    split
    · exact List.prefix_rfl
    · exact List.prefix_append _ _

/-- A row that is bound is bound part by part. -/
theorem exists_of_bindAll_append {before behind : List (String × ArgBinding)}
    (h : s.bindAll (before ++ behind) = .ok t) :
    ∃ u, s.bindAll before = .ok u ∧ u.bindAll behind = .ok t := by
  rw [bindAll, List.foldlM_append] at h
  exact Except.bind_eq_ok h

/-- **Precedence of bindings.** Whatever the order in which names are bound from outside and from
inside, in a scope that had none: each ends with its last override, or else with its first binding;
names stay, in the order in which they came. A binding fails just where the entry of its name
refuses it, and to repeat one that was made changes nothing. -/
theorem bindAll_settles (hs : s.args = .empty) (h : s.bindAll calls = .ok t) :
    t = { s with args := t.args } ∧
      (∀ name, t.args.get? name = ArgBinding.settled (bindingsOf name calls)) ∧
      t.args.keys = (firstOfEach Prod.fst calls).map Prod.fst ∧
      (∀ before behind, calls = before ++ behind →
        ∃ u, s.bindAll before = .ok u ∧ u.bindAll behind = .ok t ∧ u.args.keys <+: t.args.keys) ∧
      (∀ (u : Scope) name b e, u.bind name b = .error e ↔
        ∃ existing, u.args.get? name = some existing ∧ existing.Refuses b ∧
          e = .ofCause (.argConflict name existing.value b.value)) ∧
      ∀ (u v : Scope) name b, u.bind name b = .ok v → v.bind name b = .ok v := by
  refine ⟨eq_of_bindAll h, get?_bindAll hs h, keys_bindAll hs h, fun before behind hcalls => ?_,
    fun _ _ _ _ => bind_eq_error_iff, fun _ _ _ _ => bind_again⟩
  obtain ⟨u, hbefore, hbehind⟩ := exists_of_bindAll_append (hcalls ▸ h)
  exact ⟨u, hbefore, hbehind, keys_prefix_of_bindAll hbehind⟩

/-- A default, then an override behind it, then bindings from inside that it passes over or that
agree; between them another name that is bound without a value, twice. -/
def mixedBindings : List (String × ArgBinding) :=
  [("rate", ⟨some "10", .default, some "in Hz"⟩), ("frame", ⟨none, .declared, none⟩),
    ("rate", ⟨some "20", .override, none⟩), ("rate", ⟨some "30", .default, some "per second"⟩),
    ("frame", ⟨none, .declared, some "a frame"⟩), ("rate", ⟨some "20", .value, none⟩)]

/-- A row with an override, a default and a value for one name, and a default for another. -/
theorem bindAll_settles_mixedBindings :
    ∃ t, root.args = .empty ∧ root.bindAll mixedBindings = .ok t ∧
      t.args.get? "rate" = some ⟨some "20", .override, some "per second"⟩ ∧
      t.args.keys = ["rate", "frame"] := by
  obtain ⟨t, ht⟩ : ∃ t, root.bindAll mixedBindings = .ok t := ⟨_, rfl⟩
  obtain ⟨-, hentries, hkeys, -⟩ := bindAll_settles rfl ht
  exact ⟨t, rfl, ht, hentries "rate", hkeys⟩

end Scope
end LaunchFile
