import LaunchFile.Proofs.Follow
import LaunchFile.Proofs.Renaming.Include
import LaunchFile.Proofs.Walk.Scopes

/-!
# Proofs/Rebinding — arguments that are given from outside with the values they have

In a scope some arguments may be given from outside that are bound from inside in another, to the
same values (`Scope.Rebound`). All texts resolve alike in the two. An `<arg>` that is read in the
first is read in the second, too, and leaves related scopes behind (`readArg_follows`): its default
may be passed over there, its value cannot differ from what is given.
-/

namespace LaunchFile

/-! ## Scopes with the same arguments -/

section

variable {scope inner : Scope}

/-- A condition binds no argument. -/
theorem Scope.args_inside (scope : Scope) (e : Element) : (e.inside scope).args = scope.args := by
  rw [Element.inside]
  split <;> rfl

/-- A namespace binds no argument. -/
theorem Scope.args_of_enterNs {ns : Option String} (h : scope.enterNs ns = .ok inner) :
    inner.args = scope.args := by
  cases ns with
  | none => exact Except.ok.inj h ▸ rfl
  | some ns =>
    obtain ⟨_, _, h⟩ := Except.bind_eq_ok h
    exact Except.ok.inj h ▸ rfl

/-- A node binds no argument. -/
theorem NodeSpec.Entered.IsOf.args_eq {node : NodeSpec.Entered} (h : node.IsOf scope) :
    node.scope.args = scope.args := by
  obtain ⟨_, around, _, haround, _, _, _, hscope⟩ := h.exists_around
  rw [hscope]
  exact (Scope.args_of_enterNs haround : around.args = scope.args)

end

/-! ## Bindings -/

/-- The same binding, or one that is given from outside with the same value. -/
inductive ArgBinding.Overridden (b : ArgBinding) : ArgBinding → Prop
  | same : Overridden b b
  | outside (doc : Option String) : Overridden b ⟨b.value, .override, doc⟩

namespace ArgBinding.Overridden

variable {b b' : ArgBinding}

/-- An overridden argument has the same value. -/
theorem value (h : b.Overridden b') : b'.value = b.value := by
  cases h <;> rfl

/-- It is the same binding, or one from outside. -/
theorem origin (h : b.Overridden b') : b' = b ∨ b'.origin = .override := by
  cases h with
  | same => exact .inl rfl
  | outside _ => exact .inr rfl

end ArgBinding.Overridden

namespace Scope

/-- What is bound again from inside keeps its value. -/
theorem value_of_rebind? {existing b kept : ArgBinding} (hb : b.origin ≠ .override)
    (h : rebind? existing b = some kept) : kept.value = existing.value := by
  rw [rebind?, if_neg (by simpa using hb)] at h
  split at h
  · split at h <;> cases h
    rfl
  · split at h <;> cases h
    rfl

/-- What is given from outside stays, unless another value contradicts it. -/
theorem rebind?_of_override {existing b : ArgBinding} (hexisting : existing.origin = .override)
    (hb : b.origin ≠ .override) (hvalue : b.origin = .value → existing.value = b.value) :
    rebind? existing b = some ⟨existing.value, .override, existing.doc <|> b.doc⟩ := by
  have hagrees : ¬(b.origin == .value && !(existing.value == b.value)) = true := by
    simpa using hvalue
  rw [rebind?, if_neg (by simpa using hb), if_pos (by simpa using hexisting), if_neg hagrees,
    hexisting]

/-- A binding that is accepted does not contradict what is there. -/
theorem value_eq_of_rebind? {existing b kept : ArgBinding} (hb : b.origin = .value)
    (h : rebind? existing b = some kept) : existing.value = b.value := by
  rw [rebind?, if_neg (by simp [hb])] at h
  split at h
  · split at h
    · cases h
    · rename_i hagrees
      simpa [hb] using hagrees
  · split at h
    · rename_i hagrees
      exact eq_of_beq hagrees
    · cases h

end Scope

/-! ## Scopes -/

/-- Overridden arguments have the same values. -/
theorem Dict.Related.sameValues {args args' : Dict ArgBinding}
    (h : Dict.Related ArgBinding.Overridden args args') : SameValues args args' := by
  intro name
  have hname := h.get? name
  generalize args.get? name = found, args'.get? name = found' at hname ⊢
  cases hname with
  | none => rfl
  | some hbinding => exact congrArg some hbinding.value

/-- Scopes that differ only in arguments that are given from outside in the second, with the values
that they have in the first. -/
structure Scope.Rebound (s s' : Scope) : Prop extends Scope.Renamed .rebound s s' where
  bound : Dict.Related ArgBinding.Overridden s.args s'.args

namespace Scope.Rebound

variable {s s' t t' : Scope}

theorem refl (s : Scope) : s.Rebound s :=
  { Scope.Renamed.refl Renaming.map_rebound (fun _ => trivial) s with
    bound := .refl (fun _ => .same) s.args }

/-- What keeps the arguments on both sides and does the same otherwise. -/
theorem of_args (h : s.Rebound s') (ht : t.Renamed .rebound t') (hargs : t.args = s.args)
    (hargs' : t'.args = s'.args) : t.Rebound t' :=
  { ht with bound := hargs ▸ hargs' ▸ h.bound }

/-- Going inside of an element keeps scopes rebound. -/
theorem inside (h : s.Rebound s') (e : Element) : (e.inside s).Rebound (e.inside s') :=
  h.of_args (h.toRenamed.inside e e) (Scope.args_inside s e) (Scope.args_inside s' e)

theorem remaps_eq (h : s.Rebound s') : s'.remaps = s.remaps := by
  rw [h.remaps, Renaming.map_rebound, Prod.map_id, List.map_id]

/-- Binding an argument on both sides keeps them rebound. -/
theorem setArg (h : s.Rebound s') (name : String) {b b' : ArgBinding} (hb : b.Overridden b') :
    (s.setArg name b).Rebound (s'.setArg name b') :=
  have hbound := h.bound.insert name hb
  { h with
    args := hbound.sameValues
    alike := False.elim
    args_eq := False.elim
    bound := hbound }

/-- An argument that is given from outside stays so. -/
theorem isOverridden (h : s.Rebound s') {name : String} (hs : s.isOverridden name = true) :
    s'.isOverridden name = true := by
  rw [Scope.isOverridden] at hs ⊢
  have hname := h.bound.get? name
  generalize s.args.get? name = found, s'.args.get? name = found' at hname hs ⊢
  cases hname with
  | none => cases hs
  | some hbinding =>
    rcases hbinding.origin with rfl | horigin
    · exact hs
    · simpa using horigin

/-- **A binding from inside that is accepted in the first scope is accepted in the second**, also
without its value where that is a default that gives way. -/
theorem bind (h : s.Rebound s') {name : String} {b b' : ArgBinding} (hb : b.origin ≠ .override)
    (hb' : b' = b ∨ s'.isOverridden name = true ∧ b'.origin = .default) {behind : Scope}
    (hok : s.bind name b = .ok behind) :
    ∃ behind', s'.bind name b' = .ok behind' ∧ behind.Rebound behind' := by
  have hname := h.bound.get? name
  rw [Scope.bind] at hok ⊢
  rw [Scope.isOverridden] at hb'
  generalize s.args.get? name = found, s'.args.get? name = found' at hname hok hb' ⊢
  cases hname with
  | none =>
    obtain rfl : b' = b := hb'.resolve_right fun hdefault => Bool.false_ne_true hdefault.1
    cases hok
    exact ⟨_, rfl, h.setArg name .same⟩
  | @some existing existing' hbinding =>
    dsimp only at hok hb' ⊢
    cases hkept : rebind? existing b with
    | none =>
      rw [hkept] at hok
      cases hok
    | some kept =>
      rw [hkept] at hok
      cases hok
      by_cases hoverride : existing'.origin = .override
      · have hb'' : b'.origin ≠ .override := by
          rcases hb' with rfl | ⟨_, horigin⟩
          · exact hb
          · rw [horigin]
            decide
        have hagrees : b'.origin = .value → existing'.value = b'.value := by
          rcases hb' with rfl | ⟨_, horigin⟩
          · exact fun hvalue => hbinding.value.trans (value_eq_of_rebind? hvalue hkept)
          · rw [horigin]
            intro hvalue
            cases hvalue
        rw [rebind?_of_override hoverride hb'' hagrees]
        refine ⟨_, rfl, h.setArg name ?_⟩
        rw [hbinding.value, ← value_of_rebind? hb hkept]
        exact .outside _
      · obtain rfl := hbinding.origin.resolve_right hoverride
        obtain rfl : b' = b :=
          hb'.resolve_right fun hdefault => hoverride (eq_of_beq hdefault.1)
        rw [hkept]
        exact ⟨_, rfl, h.setArg name .same⟩

/-- An include passes the same in both. -/
theorem includesAlike (h : s.Rebound s') (look : Lookups) (e : Element) :
    s.IncludesAlike .reordered look e s' := by
  have hvalued : IncludeInputs.valued s'.args = IncludeInputs.valued s.args :=
    h.bound.filterMapValues_eq fun _ _ hbinding => hbinding.value
  exact {
    ns := ⟨h.ns.eq, trivial⟩
    pushed := fun text _ hkeeps => ⟨(h.resolveName hkeeps).eq, trivial⟩
    directory := h.directory
    reads := h.readsAlike e
    readsChild := fun child _ => h.readsAlike child
    passed := fun _ => hvalued ▸ .refl _
    passed_eq := False.elim }

end Scope.Rebound

/-! ## Arguments -/

/-- A text makes up no name when it is resolved in this scope. -/
def Segment.MakesNoName (scope : Scope) (look : Lookups) (text : String) : Prop :=
  ∀ r, (outcome (evaluate scope look text) r).2 = r

namespace Segment

/-- A segment that neither makes up a name nor holds an expression. -/
def isDirect : Segment → Bool
  | .anon _ | .eval _ => false
  | _ => true

variable {scope : Scope} {look : Lookups}

/-- A direct segment leaves the registry as it is. -/
theorem outcome_resolve_of_isDirect {segment : Segment} (h : segment.isDirect = true)
    (r : AnonRegistry) : (outcome (resolve scope look segment) r).2 = r := by
  cases segment with
  | anon | eval => cases h
  | text | optenv => rfl
  | arg name => cases hvalue : resolveArg scope name <;> rw [resolve, hvalue] <;> rfl
  | env name => cases hvalue : look.env name <;> rw [resolve_env, hvalue] <;> rfl
  | find package => cases hvalue : look.find package <;> rw [resolve_find, hvalue] <;> rfl
  | dirname => cases hvalue : scope.directory <;> rw [resolve, hvalue] <;> rfl

/-- So does a row of them. -/
theorem outcome_resolveAll_of_isDirect : ∀ {segments : List Segment},
    (∀ segment ∈ segments, segment.isDirect = true) → ∀ r : AnonRegistry,
      (outcome (resolveAll scope look segments) r).2 = r
  | [], _, _ => rfl
  | segment :: rest, h, r => by
    obtain ⟨hsegment, hrest⟩ := List.forall_mem_cons.1 h
    rw [resolveAll]
    refine outcome_bind_state (P := (· = r)) (outcome_resolve_of_isDirect hsegment r) ?_
    intro _ t _ ht
    have hfollowing := (outcome_resolveAll_of_isDirect hrest t).trans ht
    exact outcome_bind_state (P := (· = r)) hfollowing fun _ _ _ hu => hu

/-- A text whose segments are direct, if it has a form at all. -/
def isDirectText (text : String) : Bool :=
  match parse text with
  | .ok segments => segments.all isDirect
  | .error _ => true

/-- **A direct text makes up no name, whatever the scope.** -/
theorem makesNoName_of_isDirectText {text : String} (h : isDirectText text = true) :
    MakesNoName scope look text := by
  intro r
  rw [isDirectText] at h
  split at h
  · rename_i hparse
    rw [Attributes.evaluate_of_parse hparse,
      outcome_resolveAll_of_isDirect (List.all_eq_true.1 h)]
  · rename_i hparse
    rw [evaluate_eq, hparse]
    rfl

end Segment

section

variable {look : Lookups} {s s' : Scope} {e : Element} {r : AnonRegistry}

/-- A text that makes up no name leaves the registry as it is, read as an attribute. -/
theorem Segment.MakesNoName.text? {wanted : List Wanted} {a : Attributes} {name : String}
    (hread : Attributes.read e wanted = .ok a)
    (h : ∀ raw, e.attr? name = some raw → MakesNoName s look raw) {found : Option String}
    {t : AnonRegistry} (hfound : outcome (a.text? look s name) r = (.ok found, t)) : t = r := by
  rw [Attributes.text?] at hfound
  cases hget : a.get? name with
  | none =>
    rw [hget] at hfound
    cases hfound
    rfl
  | some segments =>
    obtain ⟨raw, hraw, hparse⟩ := Attributes.exists_of_read hread hget
    have hstate := h raw hraw r
    rw [Attributes.evaluate_of_parse hparse] at hstate
    rw [hget] at hfound
    obtain ⟨text, u, htext, hpure⟩ := outcome_bind_eq_ok hfound
    cases hpure
    rw [Attributes.textOf, LaunchT.ofResolve, outcome_adapt, hstate] at htext
    exact (congrArg Prod.snd htext).symm

/-- What an `<arg>` gives its argument in the second scope: the same, or a default that was not
resolved. -/
theorem argValue_follows (h : s.Rebound s') {wanted : List Wanted} {a : Attributes}
    (hread : Attributes.read e wanted = .ok a) (name : String)
    (hquiet : ∀ raw, e.attr? "default" = some raw → Segment.MakesNoName s look raw) :
    Follows (fun given given' => given.2 ≠ .override ∧
        (given' = given ∨ s'.isOverridden name = true ∧ given'.2 = .default))
      (argValue look s a name) (argValue look s' a name) r := by
  rw [argValue, argValue]
  split
  · rw [h.text?]
    exact .bind_same fun _ _ _ => .pure ⟨nofun, .inl rfl⟩
  · split
    · by_cases hs' : s'.isOverridden name = true
      · rw [if_pos hs']
        split
        · exact .pure ⟨nofun, .inl rfl⟩
        · -- the default is resolved in the first scope only; it leaves no trace
          intro given t hgiven
          obtain ⟨found, u, hfound, hpure⟩ := outcome_bind_eq_ok hgiven
          cases hpure
          rw [Segment.MakesNoName.text? hread hquiet hfound]
          exact ⟨_, rfl, nofun, .inr ⟨hs', rfl⟩⟩
      · rw [if_neg hs', if_neg fun hs => hs' (h.isOverridden hs), h.text?]
        exact .bind_same fun _ _ _ => .pure ⟨nofun, .inl rfl⟩
    · exact .pure ⟨nofun, .inl rfl⟩

/-- **An `<arg>` that is read in the first scope is read in the second.** -/
theorem readArg_follows (h : s.Rebound s')
    (hquiet : ∀ raw, e.attr? "default" = some raw → Segment.MakesNoName s look raw) :
    Follows Scope.Rebound (readArg look s e) (readArg look s' e) r := by
  unfold readArg
  refine .bind_same fun values _ hvalues => ?_
  refine .bind_same fun _ _ _ => ?_
  refine .bind_same fun others _ _ => ?_
  rw [h.text]
  refine .bind_same fun name t _ => ?_
  have hread := Attributes.read_of_yields ⟨_, _, hvalues⟩
  refine .bind (argValue_follows h hread name hquiet) fun given given' u _ _ hgiven => ?_
  rw [h.text?]
  refine .bind_same fun doc v _ => .result fun behind hbind => ?_
  obtain ⟨horigin, hgiven⟩ := hgiven
  refine h.bind horigin (hgiven.imp_left fun hsame => ?_) hbind
  rw [hsame]

/-! ## Other elements -/

/-- Names go along with a renaming that keeps them. -/
theorem Element.namesAre_rebound (e : Element) (look : Lookups) (s : Scope) (attrs : List String) :
    e.NamesAre Renaming.rebound.Keeps look s attrs :=
  fun _ _ _ _ => .inr rfl

/-- A `<remap>` is read to the same pair. -/
theorem readRemap_follows (h : s.Rebound s') :
    Follows Scope.Rebound (readRemap look s e) (readRemap look s' e) r := by
  refine (Follows.of_lockstep (readRemap_lockstep h.toRenamed (.refl e)) r).imp ?_
  intro behind behind' t hread hread' hrenamed
  obtain ⟨_, _, _, _, rfl⟩ := exists_of_readRemap ⟨_, _, hread⟩
  obtain ⟨_, _, _, _, rfl⟩ := exists_of_readRemap ⟨_, _, hread'⟩
  exact h.of_args (hrenamed (e.namesAre_rebound look s _)) rfl rfl

/-- A clearing is the same command. -/
theorem clears_rebound {clear clear' : Option RosparamCommand}
    (h : RosparamCommand.ClearsRenamed .rebound clear clear') : clear' = clear := by
  rw [h, Renaming.map_rebound, RosparamCommand.mapNames_id, Option.map_id_fun, id]

/-- Settings are the same. -/
theorem params_rebound {params params' : List ParamSpec}
    (h : ParamSpec.Renamed .rebound params params') : params' = params := by
  rw [h.eq, Renaming.map_rebound, ParamSpec.mapNames_id, List.map_id]

/-- A group leads into scopes that are rebound. -/
theorem readGroup_follows (h : s.Rebound s') :
    Follows (fun x y => y.2 = x.2 ∧ x.1.Rebound y.1) (readGroup look s e) (readGroup look s' e)
      r := by
  refine (Follows.of_lockstep (readGroup_lockstep h.toRenamed (.refl e)) r).imp ?_
  rintro ⟨inner, clear⟩ ⟨inner', clear'⟩ t hread hread' hrelated
  obtain ⟨hrenamed, hclear⟩ := hrelated (e.namesAre_rebound look s _)
  obtain ⟨_, hentered, _⟩ := exists_of_readGroup ⟨_, _, hread⟩
  obtain ⟨_, hentered', _⟩ := exists_of_readGroup ⟨_, _, hread'⟩
  have hargs := Scope.args_of_enterNs hentered
  have hargs' := Scope.args_of_enterNs hentered'
  exact ⟨clears_rebound hclear, h.of_args hrenamed hargs hargs'⟩

/-- A `<param>` makes the same settings. -/
theorem readParam_follows {w : World} (h : s.Rebound s') :
    Follows Eq (readParam w s e) (readParam w s' e) r :=
  (Follows.of_lockstep (readParam_lockstep w w.strict h.toRenamed (.refl e)) r).imp
    fun _ _ _ _ _ hrenamed => (params_rebound (hrenamed (e.namesAre_rebound w.look s _))).symm

/-- A `<rosparam>` gives the same command. -/
theorem rosparam_follows (h : s.Rebound s') :
    Follows Eq (RosparamCommand.read look s e) (RosparamCommand.read look s' e) r := by
  refine (Follows.of_lockstep (RosparamCommand.read_lockstep h.toRenamed (.refl e)) r).imp ?_
  rintro ⟨command, params⟩ ⟨command', params'⟩ _ _ _ hrenamed
  obtain ⟨hcommand, hparams⟩ := hrenamed (e.namesAre_rebound look s _)
  exact Prod.ext hcommand.symm (params_rebound hparams).symm

/-- A node is the same node. -/
theorem nodeSpec_follows (h : s.Rebound s') (known : List MachineSpec) (isTest : Bool) :
    Follows (fun n n' : NodeSpec.Entered => n'.spec = n.spec ∧ n'.clear = n.clear ∧
        n.scope.Rebound n'.scope)
      (NodeSpec.read look known s isTest e) (NodeSpec.read look known s' isTest e) r := by
  refine (Follows.of_lockstep (NodeSpec.read_lockstep known isTest h.toRenamed (.refl e)) r).imp ?_
  intro n n' t hread hread' hrelated
  have hrenamed := hrelated (e.namesAre_rebound look s _)
  refine ⟨?_, clears_rebound hrenamed.clear, h.of_args hrenamed.scope ?_ ?_⟩
  · exact hrenamed.spec.trans (congrFun NodeSpec.mapNames_id n.spec)
  · exact (NodeSpec.isOf_of_read ⟨_, _, hread⟩).args_eq
  · exact (NodeSpec.isOf_of_read ⟨_, _, hread'⟩).args_eq

end
end LaunchFile
