import LaunchFile.Proofs.Reading

/-!
# Proofs/Passing — what the children of an include pass

Each active child of an include passes something of its own: an argument, by value or by default, or
a variable (`Passed`). What all of them pass together follows from that and from what is forwarded:
a value replaces what is forwarded, a default gives way to it, and each argument is passed by one
child only (`addChildren_eq_ok`, `addChildren_conflict`).
-/

namespace LaunchFile

/-! ## The include itself -/

/-- The include asks for all arguments to be passed. -/
def Element.PassesAll (look : Lookups) (scope : Scope) (e : Element) : Prop :=
  ∃ text, e.Resolves look scope "pass_all_args" text ∧ readBoolean? text = some true

/-- What the attributes of an include amount to. -/
structure IncludeHead.IsOf (look : Lookups) (scope : Scope) (e : Element) (head : IncludeHead) :
    Prop where
  path : ∃ reference, e.Resolves look scope "file" reference ∧
    head.path = scope.resolvePath reference
  inner : e.attr? "ns" = none ∧ head.scope = scope ∨
    ∃ ns, e.Resolves look scope "ns" ns ∧ head.scope = scope.pushNamespace ns
  passesAll : e.attr? "pass_all_args" = none ∧ head.passesAll = false ∨
    ∃ text, e.Resolves look scope "pass_all_args" text ∧ readBoolean? text = some head.passesAll

theorem IncludeHead.isOf_of_read {look : Lookups} {scope : Scope} {e : Element}
    {head : IncludeHead} (h : Yields (IncludeHead.read look scope e) head) :
    head.IsOf look scope e := by
  obtain ⟨a, ha, h⟩ := h.of_bind
  obtain ⟨reference, hreference, h⟩ := h.of_bind
  obtain ⟨⟨inner, clear⟩, hinner, h⟩ := h.of_bind
  obtain ⟨passesAll, hpasses, h⟩ := h.of_bind
  obtain ⟨found, hfound, hentered, _⟩ := Attributes.enterNs_of_enterCleared hinner
  cases h.eq_of_pure
  have hattrs := Attributes.read_of_yields ha
  refine ⟨⟨reference, ?_, rfl⟩, ?_, Attributes.flag_cases hattrs (by decide) hpasses⟩
  · exact Attributes.resolves_of_text hattrs (by decide) hreference
  · rcases Attributes.text?_cases hattrs (by decide) hfound with ⟨hnone, rfl⟩ | ⟨ns, hns, rfl⟩
    · exact .inl ⟨hnone, (Except.ok.inj hentered).symm⟩
    · obtain ⟨_, _, hentered⟩ := Except.bind_eq_ok hentered
      exact .inr ⟨ns, hns, (Except.ok.inj hentered).symm⟩

/-! ## Single children -/

/-- What an active child of an include passes. -/
inductive Passed where
  | value (name text : String)
  /-- A default of an argument that is not forwarded. -/
  | default (name text : String)
  /-- A default that gives way to what is forwarded. -/
  | waived (name : String)
  | env (name text : String)
  deriving DecidableEq

namespace Passed

/-- The argument that is named. -/
def arg? : Passed → Option String
  | .value name _ => some name
  | .default name _ => some name
  | .waived name => some name
  | .env _ _ => none

/-- The variable that is set. -/
def env? : Passed → Option (String × String)
  | .env name text => some (name, text)
  | _ => none

/-- What an `<arg>` passes: its name, and its text if there is one. -/
def ofArg (byValue : Bool) (name : String) : Option String → Passed
  | none => .waived name
  | some text => if byValue then .value name text else .default name text

/-- What a child passes as an `<arg>` or an `<env>`, given what is forwarded. -/
def readAs (w : World) (scope : Scope) (forwarded : Dict String) (e : Element) :
    Option Tag → LaunchM (Option Passed)
  | some .arg => do
    let (name, text?) ← IncludeInputs.readPassed w.look scope forwarded e
    return some (ofArg (e.hasAttr "value") name text?)
  | some .env => do
    let (name, text) ← readEnv w.look scope e
    return some (.env name text)
  | _ => return none

/-- What a child passes by itself, given what is forwarded; none if it takes no part. -/
def read (w : World) (scope : Scope) (forwarded : Dict String) (e : Element) :
    LaunchM (Option Passed) :=
  LaunchT.located e.location do
    readAs w scope forwarded e (← e.activeTag w "include" scope)

/-- What the children pass, each by itself. -/
def readAll (w : World) (scope : Scope) (forwarded : Dict String) :
    List Element → LaunchM (List Passed)
  | [] => pure []
  | e :: rest => do
    let passed ← read w scope forwarded e
    let others ← readAll w scope forwarded rest
    return passed.toList ++ others

theorem arg?_ofArg (byValue : Bool) (name : String) (value : Option String) :
    (ofArg byValue name value).arg? = some name := by
  cases value with
  | none => rfl
  | some text => cases byValue <;> rfl

end Passed

/-! ## All children together -/

/-- What the children that were looked at have passed. -/
structure IncludeInputs.Holds (forwarded : Dict String) (passed : List Passed)
    (inputs : IncludeInputs) : Prop where
  /-- A value comes before a default or what is forwarded, and these exclude each other. -/
  args : ∀ name text, inputs.args.get? name = some text ↔
    .value name text ∈ passed ∨ .default name text ∈ passed ∨
      forwarded.get? name = some text ∧ ∀ other, .value name other ∉ passed
  /-- Just the arguments that are not forwarded take their defaults. -/
  default : ∀ name text, .default name text ∈ passed → forwarded.get? name = none
  waived : ∀ name, .waived name ∈ passed → (forwarded.get? name).isSome
  named : ∀ name, name ∈ inputs.named ↔ name ∈ passed.filterMap Passed.arg?
  nodup : (passed.filterMap Passed.arg?).Nodup
  env : inputs.env = Dict.ofPairs (passed.filterMap Passed.env?)

namespace IncludeInputs

variable {w : World} {scope : Scope} {e : Element} {forwarded : Dict String}
  {passed : List Passed} {inputs inputs' : IncludeInputs} {r r' : AnonRegistry}

theorem holds_start (passesAll : Bool) (scope : Scope) :
    Holds (start passesAll scope).args [] (start passesAll scope) where
  args _ _ := by simp
  default _ _ h := absurd h List.not_mem_nil
  waived _ h := absurd h List.not_mem_nil
  named _ := by simp [start]
  nodup := List.nodup_nil
  env := rfl

theorem Holds.arg?_ne_of_notMem (h : Holds forwarded passed inputs) {name : String}
    (hname : name ∉ inputs.named) : ∀ p ∈ passed, p.arg? ≠ some name := fun p hp harg =>
  hname ((h.named name).2 (List.mem_filterMap.2 ⟨p, hp, harg⟩))

/-- An argument that no child has named so far is passed just if it is forwarded. -/
theorem Holds.get?_of_notMem (h : Holds forwarded passed inputs) {name : String}
    (hname : name ∉ inputs.named) : inputs.args.get? name = forwarded.get? name := by
  refine Option.ext fun text => ?_
  rw [h.args]
  constructor
  · rintro (hmem | hmem | ⟨hget, _⟩)
    · exact absurd rfl (h.arg?_ne_of_notMem hname _ hmem)
    · exact absurd rfl (h.arg?_ne_of_notMem hname _ hmem)
    · exact hget
  · exact fun hget => .inr (.inr ⟨hget, fun _ hmem => h.arg?_ne_of_notMem hname _ hmem rfl⟩)

/-- An argument that a child has named is passed. -/
theorem Holds.isSome_of_mem (h : Holds forwarded passed inputs) {name : String}
    (hname : name ∈ inputs.named) : (inputs.args.get? name).isSome := by
  obtain ⟨p, hp, harg⟩ := List.mem_filterMap.1 ((h.named name).1 hname)
  cases p with
  | value _ text =>
    cases harg
    rw [(h.args name text).2 (.inl hp)]
    rfl
  | default _ text =>
    cases harg
    rw [(h.args name text).2 (.inr (.inl hp))]
    rfl
  | waived _ =>
    cases harg
    obtain ⟨text, htext⟩ := Option.isSome_iff_exists.1 (h.waived name hp)
    by_cases hvalue : ∃ other, .value name other ∈ passed
    · obtain ⟨other, hother⟩ := hvalue
      rw [(h.args name other).2 (.inl hother)]
      rfl
    · rw [(h.args name text).2 (.inr (.inr ⟨htext, fun other hother => hvalue ⟨other, hother⟩⟩))]
      rfl
  | env _ _ => cases harg

/-! ## Reading an argument -/

section

variable {look : Lookups} {d d' : Dict String} {name : String} {text? : Option String}

theorem isSome_of_text? {a : Attributes} (hcontains : a.contains name = true)
    (h : outcome (a.text? look scope name) r = (.ok text?, r')) : text?.isSome := by
  obtain ⟨segments, hget⟩ := Option.isSome_iff_exists.1 hcontains
  rw [Attributes.text?, hget] at h
  obtain ⟨text, _, _, h⟩ := outcome_bind_eq_ok h
  cases h
  rfl

/-- Reading the argument of a child: its attributes, its name, and what it passes. -/
theorem readPassed_eq_ok (h : outcome (readPassed look scope d e) r = (.ok (name, text?), r')) :
    ∃ a between, Attributes.read e [.required "name", .optional "value", .optional "default"] =
        .ok a ∧
      (a.contains "value" = false → a.contains "default" = true) ∧
      outcome (passedValue look scope d a name) between = (.ok text?, r') ∧
      ∀ d', outcome (readPassed look scope d' e) r =
        outcome (passedValue look scope d' a name >>= fun value => pure (name, value)) between := by
  obtain ⟨a, u, hread, hrest⟩ := outcome_bind_eq_ok h
  split at hrest
  · cases hrest
  · rename_i hsome
    obtain ⟨found, between, hname, hrest⟩ := outcome_bind_eq_ok hrest
    obtain ⟨value, t, hvalue, hrest⟩ := outcome_bind_eq_ok hrest
    cases hrest
    refine ⟨a, between, Attributes.read_of_yields ⟨_, _, hread⟩, ?_, hvalue, fun d' => ?_⟩
    · cases hv : a.contains "value" <;> cases hd : a.contains "default" <;> simp_all
    · refine (outcome_bind_ok hread _).trans ?_
      rw [if_neg hsome]
      exact outcome_bind_ok hname _

/-- What is passed already matters only as far as the argument is among it. -/
theorem passedValue_congr {a : Attributes} (h : d.contains name = d'.contains name) :
    passedValue look scope d a name = passedValue look scope d' a name := by
  rw [passedValue, passedValue, h]

theorem readPassed_congr (h : outcome (readPassed look scope d e) r = (.ok (name, text?), r'))
    (hcontains : d.contains name = d'.contains name) :
    outcome (readPassed look scope d' e) r = (.ok (name, text?), r') := by
  obtain ⟨a, between, _, _, hvalue, heq⟩ := readPassed_eq_ok h
  rw [heq, ← passedValue_congr hcontains, outcome_bind_ok hvalue]
  rfl

/-- A child that names an argument still does when that argument is passed already. -/
theorem readPassed_of_contains
    (h : outcome (readPassed look scope d e) r = (.ok (name, text?), r'))
    (hcontains : d'.contains name = true) :
    ∃ text?' t, outcome (readPassed look scope d' e) r = (.ok (name, text?'), t) := by
  obtain ⟨a, between, _, _, hvalue, heq⟩ := readPassed_eq_ok h
  rw [heq]
  rw [passedValue] at hvalue ⊢
  split at hvalue
  · rename_i hbyValue
    rw [if_pos hbyValue, outcome_bind_ok hvalue]
    exact ⟨_, _, rfl⟩
  · rename_i hbyDefault
    rw [if_neg hbyDefault, if_pos hcontains]
    exact ⟨none, between, rfl⟩

/-- A value is always passed, a default just if the argument is not passed already. -/
theorem text?_of_readPassed (h : outcome (readPassed look scope d e) r = (.ok (name, text?), r')) :
    text?.isSome = (e.hasAttr "value" || !d.contains name) := by
  obtain ⟨a, between, hread, hsome, hvalue, _⟩ := readPassed_eq_ok h
  rw [← Attributes.contains_of_read hread (by simp [Wanted.name])]
  rw [passedValue] at hvalue
  split at hvalue
  · rename_i hbyValue
    rw [isSome_of_text? hbyValue hvalue, hbyValue, Bool.true_or]
  · rename_i hbyDefault
    rw [Bool.not_eq_true] at hbyDefault
    rw [hbyDefault, Bool.false_or]
    split at hvalue
    · rename_i hcontains
      cases hvalue
      rw [hcontains]
      rfl
    · rename_i hcontains
      rw [Bool.not_eq_true] at hcontains
      rw [isSome_of_text? (hsome hbyDefault) hvalue, hcontains]
      rfl

end

/-! ## One more child -/

theorem Holds.passEnv (h : Holds forwarded passed inputs) (name text : String) :
    Holds forwarded (passed ++ [.env name text])
      { inputs with env := inputs.env.insert name text } where
  args n t := by simpa using h.args n t
  default n t hmem := h.default n t (by simpa using hmem)
  waived n hmem := h.waived n (by simpa using hmem)
  named n := by simpa [Passed.arg?] using h.named n
  nodup := by
    have hnone : [Passed.env name text].filterMap Passed.arg? = [] := rfl
    rw [List.filterMap_append, hnone, List.append_nil]
    exact h.nodup
  env := by
    simp only [h.env, List.filterMap_append, Passed.env?, Dict.ofPairs, List.foldl_append,
      List.filterMap_cons, List.filterMap_nil, List.foldl_cons, List.foldl_nil]

section

variable {name : String} {byValue : Bool} {text? : Option String}

/-- What is passed behind one more argument. Of its name nothing was passed but what is forwarded,
which a value replaces and which a default stands back for. -/
theorem Holds.get?_withArg (h : Holds forwarded passed inputs) (hnew : name ∉ inputs.named)
    (htext : text?.isSome = (byValue || !forwarded.contains name)) (n t : String) :
    (inputs.withArg name text?).args.get? n = some t ↔
      .value n t ∈ passed ++ [Passed.ofArg byValue name text?] ∨
        .default n t ∈ passed ++ [Passed.ofArg byValue name text?] ∨
        forwarded.get? n = some t ∧
          ∀ other, .value n other ∉ passed ++ [Passed.ofArg byValue name text?] := by
  have hvalue : ∀ other, .value name other ∉ passed := fun _ hmem =>
    h.arg?_ne_of_notMem hnew _ hmem rfl
  have hdefault : ∀ other, .default name other ∉ passed := fun _ hmem =>
    h.arg?_ne_of_notMem hnew _ hmem rfl
  cases text? with
  | none => simpa [withArg, Passed.ofArg] using h.args n t
  | some text =>
    change (inputs.args.insert name text).get? n = some t ↔ _
    by_cases hn : n = name
    · subst hn
      rw [Dict.get?_insert_self]
      cases byValue with
      | true => simp [Passed.ofArg, hvalue, hdefault, eq_comm]
      | false =>
        have hforwarded : forwarded.get? n = none := by simpa [Dict.contains] using htext
        simp [Passed.ofArg, hvalue, hdefault, hforwarded, eq_comm]
    · rw [Dict.get?_insert_of_ne _ _ (Ne.symm hn), h.args]
      cases byValue <;> simp [Passed.ofArg, hn]

/-- Only an argument that is not forwarded takes its default. -/
theorem get?_of_eq_default
    (htext : text?.isSome = (byValue || !forwarded.contains name)) {n t : String}
    (h : Passed.default n t = Passed.ofArg byValue name text?) : forwarded.get? n = none := by
  cases text? with
  | none => cases h
  | some text =>
    cases byValue with
    | true => cases h
    | false =>
      cases h
      simpa [Dict.contains] using htext

/-- Only the default of an argument that is forwarded is waived. -/
theorem isSome_of_eq_waived
    (htext : text?.isSome = (byValue || !forwarded.contains name)) {n : String}
    (h : Passed.waived n = Passed.ofArg byValue name text?) : (forwarded.get? n).isSome := by
  cases text? with
  | none =>
    cases h
    have hwaived := htext.symm
    rw [Option.isSome_none, Bool.or_eq_false_iff, Bool.not_eq_false'] at hwaived
    exact hwaived.2
  | some text => cases byValue <;> cases h

/-- **An argument that no child named before is passed by the next one.** -/
theorem Holds.passArg (h : Holds forwarded passed inputs) (hnew : name ∉ inputs.named)
    (htext : text?.isSome = (byValue || !forwarded.contains name)) :
    Holds forwarded (passed ++ [Passed.ofArg byValue name text?])
      (inputs.withArg name text?) where
  args := h.get?_withArg hnew htext
  default n t hmem := (List.mem_append.1 hmem).elim (h.default n t) fun hlast =>
    get?_of_eq_default htext (List.mem_singleton.1 hlast)
  waived n hmem := (List.mem_append.1 hmem).elim (h.waived n) fun hlast =>
    isSome_of_eq_waived htext (List.mem_singleton.1 hlast)
  named n := by
    rw [List.filterMap_append, List.mem_append, ← h.named]
    simp [withArg, Passed.arg?_ofArg, or_comm]
  nodup := by
    rw [List.filterMap_append, List.nodup_append]
    refine ⟨h.nodup, by simp [Passed.arg?_ofArg], ?_⟩
    simp only [List.filterMap_cons, Passed.arg?_ofArg, List.filterMap_nil, List.mem_singleton]
    rintro a ha b rfl rfl
    exact hnew ((h.named a).2 ha)
  env := by
    have hnone : [Passed.ofArg byValue name text?].filterMap Passed.env? = [] := by
      cases text? <;> cases byValue <;> rfl
    rw [List.filterMap_append, hnone, List.append_nil]
    exact h.env

end

/-- An argument passes on what its child does by itself, if no child named it before. -/
theorem pass_eq_ok {name : String} {text? : Option String}
    (h : inputs.pass name text? = .ok inputs') :
    name ∉ inputs.named ∧ inputs' = inputs.withArg name text? := by
  rw [pass] at h
  split at h
  · cases h
  · rename_i hnew
    cases h
    exact ⟨by simpa using hnew, rfl⟩

theorem outcome_located {α : Type} {location : Location} {x : LaunchM α} {a : α} :
    outcome (LaunchT.located location x) r = (.ok a, r') ↔ outcome x r = (.ok a, r') := by
  rw [LaunchT.located, outcome_adapt]
  rcases outcome x r with ⟨e | b, t⟩
  · constructor <;> exact fun h => nomatch h
  · rfl

/-- **One child passes what it passes by itself**, if it goes well with those before it. -/
theorem addChild_eq_ok (h : Holds forwarded passed inputs)
    (hout : outcome (addChild w scope inputs e) r = (.ok inputs', r')) :
    ∃ given, outcome (Passed.read w scope forwarded e) r = (.ok given, r') ∧
      Holds forwarded (passed ++ given.toList) inputs' := by
  obtain ⟨tag, u, htag, hout⟩ := outcome_bind_eq_ok (outcome_located.1 hout)
  have hread : ∀ {given}, outcome (Passed.readAs w scope forwarded e tag) u = (.ok given, r') →
      outcome (Passed.read w scope forwarded e) r = (.ok given, r') := fun hgiven =>
    outcome_located.2 ((outcome_bind_ok htag _).trans hgiven)
  split at hout
  · obtain ⟨⟨name, text?⟩, v, hpassed, hout⟩ := outcome_bind_eq_ok hout
    obtain ⟨hpass, rfl⟩ := eq_ok_of_outcome hout
    obtain ⟨hnew, rfl⟩ := pass_eq_ok hpass
    have hcontains : inputs.args.contains name = forwarded.contains name :=
      congrArg Option.isSome (h.get?_of_notMem hnew)
    have hsame := readPassed_congr hpassed hcontains
    refine ⟨_, hread ((outcome_bind_ok hsame _).trans rfl), ?_⟩
    exact h.passArg hnew (text?_of_readPassed hsame)
  · obtain ⟨⟨name, text⟩, v, henv, hout⟩ := outcome_bind_eq_ok hout
    cases hout
    exact ⟨_, hread ((outcome_bind_ok henv _).trans rfl), h.passEnv name text⟩
  · rename_i harg henv
    cases hout
    refine ⟨none, hread ?_, (List.append_nil passed).symm ▸ h⟩
    rw [Passed.readAs.eq_3 _ _ _ _ _ harg henv]
    rfl

/-- **What the children of an include pass together.** The induction is on the children; what those
before have passed is the invariant. -/
theorem addChildren_eq_ok : ∀ {es : List Element} {passed : List Passed}
    {inputs inputs' : IncludeInputs} {r r' : AnonRegistry}, Holds forwarded passed inputs →
    outcome (addChildren w scope inputs es) r = (.ok inputs', r') →
    ∃ given, outcome (Passed.readAll w scope forwarded es) r = (.ok given, r') ∧
      Holds forwarded (passed ++ given) inputs'
  | [], passed, inputs, inputs', r, r', h, hout => by
    cases hout
    exact ⟨[], rfl, (List.append_nil passed).symm ▸ h⟩
  | e :: rest, passed, inputs, inputs', r, r', h, hout => by
    obtain ⟨between, u, hchild, hout⟩ := outcome_bind_eq_ok hout
    obtain ⟨first, hfirst, hbetween⟩ := addChild_eq_ok h hchild
    obtain ⟨others, hothers, hinputs⟩ := addChildren_eq_ok hbetween hout
    refine ⟨first.toList ++ others, ?_, List.append_assoc .. ▸ hinputs⟩
    rw [Passed.readAll, outcome_bind_ok hfirst, outcome_bind_ok hothers]
    rfl

/-- A child that names no argument named before does pass what it passes by itself. -/
theorem addChild_of_read (h : Holds forwarded passed inputs) {given : Option Passed}
    (hread : outcome (Passed.read w scope forwarded e) r = (.ok given, r'))
    (hnodup : ((passed ++ given.toList).filterMap Passed.arg?).Nodup) :
    ∃ inputs', outcome (addChild w scope inputs e) r = (.ok inputs', r') ∧
      Holds forwarded (passed ++ given.toList) inputs' := by
  obtain ⟨tag, u, htag, hread⟩ := outcome_bind_eq_ok (outcome_located.1 hread)
  have hadd : ∀ {inputs'}, outcome (match tag with
      | some .arg => addArg w.look scope inputs e
      | some .env => addEnv w.look scope inputs e
      | _ => pure inputs) u = (.ok inputs', r') →
      outcome (addChild w scope inputs e) r = (.ok inputs', r') := fun hinputs =>
    outcome_located.2 ((outcome_bind_ok htag _).trans hinputs)
  unfold Passed.readAs at hread
  split at hread
  · obtain ⟨⟨name, text?⟩, v, hpassed, hread⟩ := outcome_bind_eq_ok hread
    cases hread
    have hnew : name ∉ inputs.named := fun hmem => by
      rw [List.filterMap_append, List.nodup_append] at hnodup
      refine hnodup.2.2 name ((h.named name).1 hmem) name ?_ rfl
      simp [Passed.arg?_ofArg]
    have hcontains : forwarded.contains name = inputs.args.contains name :=
      congrArg Option.isSome (h.get?_of_notMem hnew).symm
    have hpass : inputs.pass name text? = .ok (inputs.withArg name text?) := by
      rw [pass, if_neg (by simpa using hnew)]
    refine ⟨_, hadd ((outcome_bind_ok (readPassed_congr hpassed hcontains) _).trans ?_),
      h.passArg hnew (text?_of_readPassed hpassed)⟩
    dsimp only
    rw [hpass]
    rfl
  · obtain ⟨⟨name, text⟩, v, henv, hread⟩ := outcome_bind_eq_ok hread
    cases hread
    exact ⟨_, hadd ((outcome_bind_ok henv _).trans rfl), h.passEnv name text⟩
  · rename_i harg henv
    cases hread
    refine ⟨inputs, hadd ?_, (List.append_nil passed).symm ▸ h⟩
    split
    · exact absurd rfl harg
    · exact absurd rfl henv
    · rfl

/-- Children that name each argument once do pass what they pass by themselves. -/
theorem addChildren_of_readAll : ∀ {es : List Element} {passed given : List Passed}
    {inputs : IncludeInputs} {r r' : AnonRegistry}, Holds forwarded passed inputs →
    outcome (Passed.readAll w scope forwarded es) r = (.ok given, r') →
    ((passed ++ given).filterMap Passed.arg?).Nodup →
    ∃ inputs', outcome (addChildren w scope inputs es) r = (.ok inputs', r') ∧
      Holds forwarded (passed ++ given) inputs'
  | [], passed, given, inputs, r, r', h, hread, _ => by
    cases hread
    exact ⟨inputs, rfl, (List.append_nil passed).symm ▸ h⟩
  | e :: rest, passed, given, inputs, r, r', h, hread, hnodup => by
    obtain ⟨first, u, hfirst, hread⟩ := outcome_bind_eq_ok hread
    obtain ⟨others, v, hothers, hread⟩ := outcome_bind_eq_ok hread
    cases hread
    rw [← List.append_assoc] at hnodup ⊢
    have hsome : ((passed ++ first.toList).filterMap Passed.arg?).Nodup := by
      rw [List.filterMap_append] at hnodup
      exact (List.nodup_append.1 hnodup).1
    obtain ⟨between, hchild, hbetween⟩ := addChild_of_read h hfirst hsome
    obtain ⟨inputs', hchildren, hinputs⟩ := addChildren_of_readAll hbetween hothers hnodup
    exact ⟨inputs', (outcome_bind_ok hchild _).trans hchildren, hinputs⟩

/-! ## Conflicts -/

/-- A child that names an argument that a child before it named is refused, once its own attributes
have resolved. -/
theorem addChild_conflict (h : Holds forwarded passed inputs) {given : Passed} {name : String}
    (hread : outcome (Passed.read w scope forwarded e) r = (.ok (some given), r'))
    (hname : given.arg? = some name) (hmem : name ∈ passed.filterMap Passed.arg?) :
    ∃ existing requested t, outcome (addChild w scope inputs e) r =
      (.error ⟨.argConflict name (some existing) requested, some e.location⟩, t) := by
  obtain ⟨tag, u, htag, hread⟩ := outcome_bind_eq_ok (outcome_located.1 hread)
  have hnamed := (h.named name).2 hmem
  obtain ⟨existing, hexisting⟩ := Option.isSome_iff_exists.1 (h.isSome_of_mem hnamed)
  unfold Passed.readAs at hread
  split at hread
  · obtain ⟨⟨found, text?⟩, v, hpassed, hread⟩ := outcome_bind_eq_ok hread
    cases hread
    rw [Passed.arg?_ofArg, Option.some.injEq] at hname
    subst hname
    obtain ⟨requested, t, hpassed⟩ := readPassed_of_contains hpassed (h.isSome_of_mem hnamed)
    have hpass : inputs.pass found requested =
        .error (.ofCause (.argConflict found (some existing) requested)) := by
      rw [pass, if_pos (by simpa using hnamed), hexisting]
      rfl
    refine ⟨existing, requested, t, ?_⟩
    rw [addChild, LaunchT.located, outcome_adapt, outcome_bind_ok htag]
    dsimp only
    rw [addArg, outcome_bind_ok hpassed]
    dsimp only
    rw [hpass]
    rfl
  · obtain ⟨⟨found, text⟩, v, henv, hread⟩ := outcome_bind_eq_ok hread
    cases hread
    cases hname
  · cases hread

theorem addChildren_append : ∀ (before after : List Element) (inputs : IncludeInputs),
    addChildren w scope inputs (before ++ after) =
      addChildren w scope inputs before >>= fun inputs => addChildren w scope inputs after
  | [], _, _ => rfl
  | e :: rest, after, inputs => by
    rw [List.cons_append, addChildren, addChildren, bind_assoc]
    exact congrArg _ (funext fun inputs => addChildren_append rest after inputs)

/-- **The second child of an argument is refused**, whatever comes behind it. -/
theorem addChildren_conflict {before after : List Element} {between : AnonRegistry}
    {given : Passed} {name : String} (h : Holds forwarded [] inputs)
    (hbefore : outcome (Passed.readAll w scope forwarded before) r = (.ok passed, between))
    (hnodup : (passed.filterMap Passed.arg?).Nodup)
    (hread : outcome (Passed.read w scope forwarded e) between = (.ok (some given), r'))
    (hname : given.arg? = some name) (hmem : name ∈ passed.filterMap Passed.arg?) :
    ∃ existing requested t, outcome (addChildren w scope inputs (before ++ e :: after)) r =
      (.error ⟨.argConflict name (some existing) requested, some e.location⟩, t) := by
  obtain ⟨behind, hadd, hbehind⟩ := addChildren_of_readAll h hbefore hnodup
  obtain ⟨existing, requested, t, herror⟩ := addChild_conflict hbehind hread hname hmem
  refine ⟨existing, requested, t, ?_⟩
  rw [addChildren_append, outcome_bind_ok hadd, addChildren]
  exact outcome_bind_error herror _

end IncludeInputs
end LaunchFile
