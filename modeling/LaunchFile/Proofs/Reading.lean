import LaunchFile.Include
import LaunchFile.Proofs.Dict
import LaunchFile.Proofs.Lockstep

/-!
# Proofs/Reading — what the reading of an element depends on

The text of an attribute depends on a scope only through the values of its arguments and its file
(`Scope.SameTexts`), and on an element only through the attributes that are asked for
(`Element.SameReading.read`). What an attribute that was read resolves to is what the text in the
element resolves to (`Element.Resolves`).
-/

namespace LaunchFile

/-! ## Scopes in which all texts resolve alike -/

/-- Arguments have the same values, in whatever order and however they were bound. -/
def SameValues (args args' : Dict ArgBinding) : Prop :=
  ∀ name, (args'.get? name).map ArgBinding.value = (args.get? name).map ArgBinding.value

namespace SameValues

variable {args args' : Dict ArgBinding}

theorem refl (args : Dict ArgBinding) : SameValues args args :=
  fun _ => rfl

/-- Arguments that are bound alike have the same values. -/
theorem of_alike (h : Dict.Alike args args') : SameValues args args' :=
  fun name => by rw [h]

/-- A name is bound on neither side, or to the same value on both. -/
theorem cases (h : SameValues args args') (name : String) :
    args.get? name = none ∧ args'.get? name = none ∨
      ∃ b b', args.get? name = some b ∧ args'.get? name = some b' ∧ b'.value = b.value := by
  have hname := h name
  cases hfound : args.get? name with
  | none =>
    rw [hfound, Option.map_none, Option.map_eq_none_iff] at hname
    exact .inl ⟨rfl, hname⟩
  | some b =>
    rw [hfound, Option.map_some, Option.map_eq_some_iff] at hname
    obtain ⟨b', hb', hvalue⟩ := hname
    exact .inr ⟨b, b', rfl, hb', hvalue⟩

end SameValues

/-- Two scopes with the same values of arguments and the same file. -/
structure Scope.SameTexts (s s' : Scope) : Prop where
  args : SameValues s.args s'.args
  file : s'.file = s.file

namespace Scope.SameTexts

variable {s s' : Scope} {look : Lookups}

/-- The directory is that of the file. -/
theorem directory (h : s.SameTexts s') : s'.directory = s.directory := by
  rw [Scope.directory, Scope.directory, h.file]

/-- References lead to the same file. -/
theorem resolvePath (h : s.SameTexts s') (reference : String) :
    s'.resolvePath reference = s.resolvePath reference := by
  rw [Scope.resolvePath, Scope.resolvePath, h.directory]

/-- Expressions look up the same. -/
theorem bindings (h : s.SameTexts s') : Segment.bindings s' look = Segment.bindings s look := by
  have harg : ∀ name, (Segment.bindings s' look).arg name = (Segment.bindings s look).arg name := by
    intro name
    rcases h.args.cases name with ⟨hb, hb'⟩ | ⟨b, b', hb, hb', hvalue⟩
    · simp only [Segment.bindings, hb, hb']
    · simp only [Segment.bindings, hb, hb', hvalue]
  rw [Segment.bindings, Segment.bindings, Expr.Bindings.mk.injEq]
  exact ⟨funext harg, rfl, rfl, congrArg _ h.directory, rfl⟩

theorem resolveArg (h : s.SameTexts s') (name : String) :
    Segment.resolveArg s' name = Segment.resolveArg s name := by
  rw [Segment.resolveArg, Segment.resolveArg]
  rcases h.args.cases name with ⟨hb, hb'⟩ | ⟨b, b', hb, hb', hvalue⟩
  · rw [hb, hb']
  · rw [hb, hb']
    exact congrArg (Segment.orFail · _) hvalue

mutual

/-- A segment has the same text; the induction is on the segment. -/
theorem resolve (h : s.SameTexts s') :
    ∀ segment, Segment.resolve s' look segment = Segment.resolve s look segment
  | .text _ => rfl
  | .arg name => by rw [Segment.resolve, Segment.resolve, h.resolveArg]
  | .env _ => rfl
  | .optenv _ _ => rfl
  | .find _ => rfl
  | .anon _ => rfl
  | .dirname => by rw [Segment.resolve, Segment.resolve, h.directory]
  | .eval parts => by
    rw [Segment.resolve, Segment.resolve, resolveAll h parts]
    simp only [Segment.evalText, h.bindings]

theorem resolveAll (h : s.SameTexts s') :
    ∀ segments, Segment.resolveAll s' look segments = Segment.resolveAll s look segments
  | [] => rfl
  | segment :: rest => by
    rw [Segment.resolveAll, Segment.resolveAll, resolve h segment, resolveAll h rest]

end

/-- **An attribute text resolves alike in two scopes that have the same texts.** -/
theorem evaluate (h : s.SameTexts s') (text : String) :
    Segment.evaluate s' look text = Segment.evaluate s look text := by
  simp only [Segment.evaluate, h.resolveAll]

theorem textOf (h : s.SameTexts s') (segments : List Segment) :
    Attributes.textOf look s' segments = Attributes.textOf look s segments := by
  rw [Attributes.textOf, Attributes.textOf, h.resolveAll]

theorem text (h : s.SameTexts s') (a : Attributes) (name : String) :
    a.text look s' name = a.text look s name := h.textOf _

theorem text? (h : s.SameTexts s') (a : Attributes) (name : String) :
    a.text? look s' name = a.text? look s name := by
  simp only [Attributes.text?, h.textOf]

/-- A flag is the same boolean. -/
theorem flag (h : s.SameTexts s') (a : Attributes) (name : String) :
    a.flag look s' name = a.flag look s name := by
  simp only [Attributes.flag, h.text?]

theorem conditionValue (h : s.SameTexts s') (name text : String) :
    Element.conditionValue look s' name text = Element.conditionValue look s name text := by
  rw [Element.conditionValue, Element.conditionValue, h.evaluate]

/-- The same elements take part. -/
theorem isActive (h : s.SameTexts s') (e : Element) : e.isActive look s' = e.isActive look s := by
  simp only [Element.isActive, h.conditionValue]

end Scope.SameTexts

/-! ## Elements that read alike -/

/-- The attributes that hold conditions. -/
def conditionAttrs : List String :=
  ["if", "unless"]

/-- Two elements that differ at most in their conditions and in their children. -/
structure Element.SameReading (e e' : Element) : Prop where
  tag : e'.tag = e.tag
  text : e'.text = e.text
  location : e'.location = e.location
  attr? : ∀ name, name ∉ conditionAttrs → e'.attr? name = e.attr? name

theorem Element.SameReading.refl (e : Element) : e.SameReading e :=
  ⟨rfl, rfl, rfl, fun _ _ => rfl⟩

/-- The name of an attribute to read. -/
def Wanted.name : Wanted → String
  | .required name => name
  | .optional name => name

namespace Element.SameReading

variable {e e' : Element}

/-- **Reading looks at no attribute but those that are wanted.** -/
theorem read (h : e.SameReading e') : ∀ wanted : List Wanted,
    (∀ w ∈ wanted, w.name ∉ conditionAttrs) → Attributes.read e' wanted = Attributes.read e wanted
  | [], _ => rfl
  | .required name :: rest, hw => by
    have hname := h.attr? name (hw _ List.mem_cons_self)
    have hrest := read h rest fun w hmem => hw w (List.mem_cons_of_mem _ hmem)
    rw [Attributes.read_required, Attributes.read_required, Element.required, Element.required,
      hname, h.tag, h.location, hrest]
  | .optional name :: rest, hw => by
    have hname := h.attr? name (hw _ List.mem_cons_self)
    have hrest := read h rest fun w hmem => hw w (List.mem_cons_of_mem _ hmem)
    rw [Attributes.read_optional, Attributes.read_optional, hname, hrest]

/-- What is read of an element for attributes that are no conditions is the same. -/
theorem ask (h : e.SameReading e') (look : Lookups) (wanted : List Wanted)
    (hw : ∀ w ∈ wanted, w.name ∉ conditionAttrs) :
    Attributes.ask look e' wanted = Attributes.ask look e wanted := by
  rw [Attributes.ask_eq, Attributes.ask_eq, h.read wanted hw]

/-- Whether there is an attribute is the same unless it is a condition. -/
theorem hasAttr (h : e.SameReading e') {name : String} (hname : name ∉ conditionAttrs) :
    e'.hasAttr name = e.hasAttr name :=
  congrArg Option.isSome (h.attr? name hname)

/-- Two elements that are read alike have a value and a default alike. -/
theorem checkExclusive (h : e.SameReading e') :
    LaunchFile.checkExclusive e' = LaunchFile.checkExclusive e := by
  rw [LaunchFile.checkExclusive, LaunchFile.checkExclusive, h.attr? "value" (by decide),
    h.attr? "default" (by decide)]

/-- The source of a parameter is the same. -/
theorem only (h : e.SameReading e') : ParamSource.only e' = ParamSource.only e := by
  have hnamed : ParamSource.named e' = ParamSource.named e :=
    List.filter_congr fun source _ => h.hasAttr (by cases source <;> decide)
  rw [ParamSource.only, ParamSource.only, hnamed]

/-- The inline text is the same. -/
theorem inlineText (h : e.SameReading e') :
    RosparamCommand.inlineText e' = RosparamCommand.inlineText e := by
  rw [RosparamCommand.inlineText, RosparamCommand.inlineText, h.text]

end Element.SameReading

/-! ## Where the texts of attributes come from -/

/-- An attribute of an element can resolve to this text. -/
def Element.Resolves (look : Lookups) (scope : Scope) (e : Element) (name text : String) : Prop :=
  ∃ raw, e.attr? name = some raw ∧ Yields (Segment.evaluate scope look raw) text

/-- All that these attributes of an element can resolve to has a property. -/
def Element.NamesAre (p : String → Prop) (look : Lookups) (scope : Scope) (attrs : List String)
    (e : Element) : Prop :=
  ∀ attr ∈ attrs, ∀ text, e.Resolves look scope attr text → p text

namespace Attributes

/-- A text that is split has these segments. -/
theorem parse_of_split {raw : String} {segments : List Segment} (h : split raw = .ok segments) :
    Segment.parse raw = .ok segments := by
  rw [split, Result.ofSubstitution] at h
  cases hparse : Segment.parse raw with
  | error e => rw [hparse] at h; cases h
  | ok found => rw [hparse] at h; cases h; rfl

/-- One attribute more was read, as it is in the element, or it is optional and not there. -/
theorem read_cons_cases {e : Element} {w : Wanted} {rest : List Wanted} {a : Attributes}
    (h : read e (w :: rest) = .ok a) :
    (∃ raw segments others, e.attr? w.name = some raw ∧ Segment.parse raw = .ok segments ∧
      read e rest = .ok others ∧ a = (w.name, segments) :: others) ∨
    w = .optional w.name ∧ e.attr? w.name = none ∧ read e rest = .ok a := by
  cases w with
  | required n =>
    obtain ⟨raw, hraw, h⟩ := Except.bind_eq_ok h
    obtain ⟨segments, hsegments, h⟩ := Except.bind_eq_ok h
    obtain ⟨others, hothers, h⟩ := Except.bind_eq_ok h
    have hattr : e.attr? n = some raw := by
      rw [Element.required] at hraw
      split at hraw <;> cases hraw
      assumption
    exact .inl ⟨raw, segments, others, hattr, parse_of_split hsegments, hothers,
      (Except.ok.inj h).symm⟩
  | optional n =>
    rw [read_optional] at h
    cases hattr : e.attr? n with
    | none =>
      rw [hattr] at h
      exact .inr ⟨rfl, hattr, h⟩
    | some raw =>
      rw [hattr] at h
      obtain ⟨segments, hsegments, h⟩ := Except.bind_eq_ok h
      obtain ⟨others, hothers, h⟩ := Except.bind_eq_ok h
      exact .inl ⟨raw, segments, others, hattr, parse_of_split hsegments, hothers,
        (Except.ok.inj h).symm⟩

/-- An attribute that was read is one of the element, split into segments. -/
theorem exists_of_read {e : Element} {name : String} {segments : List Segment}
    {wanted : List Wanted} {a : Attributes} (hread : read e wanted = .ok a)
    (hget : a.get? name = some segments) :
    ∃ raw, e.attr? name = some raw ∧ Segment.parse raw = .ok segments := by
  induction wanted generalizing a with
  | nil =>
    cases hread
    cases hget
  | cons w rest ih =>
    obtain ⟨raw, found, others, hraw, hparse, hothers, rfl⟩ | ⟨_, _, hread⟩ := read_cons_cases hread
    · rw [Entries.get?] at hget
      split at hget
      · rename_i hname
        cases hget
        exact ⟨raw, eq_of_beq hname ▸ hraw, hparse⟩
      · exact ih hothers hget
    · exact ih hread hget

/-- An attribute that has to be there was read. -/
theorem isSome_of_read {e : Element} {name : String} {wanted : List Wanted} {a : Attributes}
    (hread : read e wanted = .ok a) (hmem : .required name ∈ wanted) : (a.get? name).isSome := by
  induction wanted generalizing a with
  | nil => cases hmem
  | cons w rest ih =>
    have hrest : w.name ≠ name ∨ w = .optional w.name → .required name ∈ rest := by
      rcases List.mem_cons.1 hmem with rfl | hmem
      · simp [Wanted.name]
      · exact fun _ => hmem
    obtain ⟨raw, found, others, _, _, hothers, rfl⟩ | ⟨hw, _, hread⟩ := read_cons_cases hread
    · rw [Entries.get?]
      split
      · rfl
      · rename_i hname
        exact ih hothers (hrest (.inl (by simpa using hname)))
    · exact ih hread (hrest (.inr hw))

/-- An attribute that was asked for was read just if the element has it. -/
theorem contains_of_read {e : Element} {name : String} {wanted : List Wanted} {a : Attributes}
    (hread : read e wanted = .ok a) (hmem : name ∈ wanted.map Wanted.name) :
    a.contains name = e.hasAttr name := by
  induction wanted generalizing a with
  | nil => cases hmem
  | cons w rest ih =>
    have hrest : w.name ≠ name → name ∈ rest.map Wanted.name := fun hname =>
      (List.mem_cons.1 hmem).resolve_left (Ne.symm hname)
    obtain ⟨raw, found, others, hraw, _, hothers, rfl⟩ | ⟨_, hnone, hothers⟩ :=
      read_cons_cases hread
    · by_cases hname : w.name = name
      · rw [hname, Element.attr?] at hraw
        simp [Entries.contains, Entries.get?, Element.hasAttr, Dict.contains, hname, hraw]
      · rw [← ih hothers (hrest hname)]
        simp [Entries.contains, Entries.get?, hname]
    · by_cases hname : w.name = name
      · rw [hname] at hnone
        have hget : a.get? name = none := by
          refine Option.eq_none_iff_forall_ne_some.2 fun segments hget => ?_
          obtain ⟨raw, hraw, _⟩ := exists_of_read hothers hget
          exact Option.some_ne_none raw (hraw.symm.trans hnone)
        rw [Element.attr?] at hnone
        rw [Element.hasAttr, Entries.contains, Dict.contains, hget, hnone]
        rfl
      · exact ih hothers (hrest hname)

/-- Attributes that are read are those of the element. -/
theorem read_of_yields {look : Lookups} {e : Element} {wanted : List Wanted} {a : Attributes}
    (h : Yields (ask look e wanted) a) : read e wanted = .ok a := by
  rw [ask_eq] at h
  exact h.eq_ok

/-- An attribute text resolves as its segments do. -/
theorem evaluate_of_parse {raw : String} {segments : List Segment}
    (h : Segment.parse raw = .ok segments) (look : Lookups) (scope : Scope) :
    Segment.evaluate scope look raw = Segment.resolveAll scope look segments := by
  rw [Segment.evaluate_eq, h]
  rfl

/-- What a row of segments yields as a text of an attribute, it yields as itself. -/
theorem yields_of_textOf {look : Lookups} {scope : Scope} {segments : List Segment}
    {text : String} (h : Yields (textOf look scope segments) text) :
    Yields (Segment.resolveAll scope look segments) text := by
  obtain ⟨before, behind, h⟩ := h
  refine ⟨before, behind, ?_⟩
  rw [textOf, LaunchT.ofResolve, outcome_adapt] at h
  rcases hrun : outcome (Segment.resolveAll scope look segments) before with ⟨e | found, after⟩
  · rw [hrun] at h
    cases h
  · rw [hrun] at h
    cases h
    rfl

variable {look : Lookups} {scope : Scope} {e : Element} {wanted : List Wanted} {a : Attributes}
  {name : String}

/-- What an attribute that is there resolves to. -/
theorem resolves_of_text? (hread : read e wanted = .ok a) {found : Option String}
    (h : Yields (a.text? look scope name) found) :
    ∀ text ∈ found, e.Resolves look scope name text := by
  rintro text rfl
  rw [text?] at h
  cases hget : a.get? name with
  | none =>
    rw [hget] at h
    obtain ⟨_, _, h⟩ := h
    cases h
  | some segments =>
    rw [hget] at h
    obtain ⟨raw, hraw, hparse⟩ := exists_of_read hread hget
    obtain ⟨before, behind, h⟩ := h
    rw [outcome_bind] at h
    rcases hrun : outcome (textOf look scope segments) before with ⟨e | found, after⟩ <;>
      rw [hrun] at h <;> cases h
    exact ⟨raw, hraw, evaluate_of_parse hparse look scope ▸ yields_of_textOf ⟨_, _, hrun⟩⟩

/-- What an attribute that has to be there resolves to. -/
theorem resolves_of_text (hread : read e wanted = .ok a) (hmem : .required name ∈ wanted)
    {text : String} (h : Yields (a.text look scope name) text) :
    e.Resolves look scope name text := by
  obtain ⟨segments, hget⟩ := Option.isSome_iff_exists.1 (isSome_of_read hread hmem)
  obtain ⟨raw, hraw, hparse⟩ := exists_of_read hread hget
  rw [Attributes.text, hget, Option.getD_some] at h
  exact ⟨raw, hraw, evaluate_of_parse hparse look scope ▸ yields_of_textOf h⟩

/-- An attribute that may be there is not, or it resolves to what was found. -/
theorem text?_cases (hread : read e wanted = .ok a) (hmem : name ∈ wanted.map Wanted.name)
    {found : Option String} (h : Yields (a.text? look scope name) found) :
    e.attr? name = none ∧ found = none ∨
      ∃ text, e.Resolves look scope name text ∧ found = some text := by
  cases found with
  | some text => exact .inr ⟨text, resolves_of_text? hread h text rfl, rfl⟩
  | none =>
    refine .inl ⟨?_, rfl⟩
    have hcontains := contains_of_read hread hmem
    obtain ⟨before, behind, h⟩ := h
    rw [text?] at h
    split at h
    · rename_i hget
      rw [Entries.contains, hget, Element.hasAttr, Dict.contains] at hcontains
      exact Option.isSome_eq_false_iff.1 hcontains.symm |> Option.isNone_iff_eq_none.1
    · obtain ⟨_, _, _, h⟩ := outcome_bind_eq_ok h
      cases h

/-- A required attribute whose text stands for the same in every scope. -/
theorem text_of_literal {text : String} (hread : read e wanted = .ok a)
    (hmem : .required name ∈ wanted)
    (hraw : ∃ raw, e.attr? name = some raw ∧ ∀ scope, Segment.evaluate scope look raw = pure text)
    (scope : Scope) : a.text look scope name = pure text := by
  obtain ⟨segments, hget⟩ := Option.isSome_iff_exists.1 (isSome_of_read hread hmem)
  obtain ⟨raw, hattr, hparse⟩ := exists_of_read hread hget
  obtain ⟨raw', hattr', hliteral⟩ := hraw
  obtain rfl : raw = raw' := Option.some.inj (hattr.symm.trans hattr')
  rw [Attributes.text, hget, Option.getD_some, textOf, ← evaluate_of_parse hparse, hliteral]
  rfl

/-- An attribute that was read ends as its text in the element does. -/
theorem text?_of_evaluate {raw text : String} {r r' : AnonRegistry} (hread : read e wanted = .ok a)
    (hcontains : a.contains name = true) (hraw : e.attr? name = some raw)
    (htext : outcome (Segment.evaluate scope look raw) r = (.ok text, r')) :
    outcome (a.text? look scope name) r = (.ok (some text), r') := by
  obtain ⟨segments, hget⟩ := Option.isSome_iff_exists.1 hcontains
  obtain ⟨raw', hraw', hparse⟩ := exists_of_read hread hget
  obtain rfl : raw' = raw := Option.some.inj (hraw'.symm.trans hraw)
  rw [evaluate_of_parse hparse] at htext
  have htextOf : outcome (textOf look scope segments) r = (.ok text, r') := by
    rw [textOf, LaunchT.ofResolve, outcome_adapt, htext]
    rfl
  rw [text?, hget]
  exact outcome_bind_ok htextOf _

/-- A flag is not there and not set, or it is the boolean that its text is. -/
theorem flag_cases (hread : read e wanted = .ok a) (hmem : name ∈ wanted.map Wanted.name)
    {flag : Bool} (h : Yields (a.flag look scope name) flag) :
    e.attr? name = none ∧ flag = false ∨
      ∃ text, e.Resolves look scope name text ∧ readBoolean? text = some flag := by
  obtain ⟨found, hfound, h⟩ := h.of_bind
  rcases text?_cases hread hmem hfound with ⟨hnone, rfl⟩ | ⟨text, htext, rfl⟩
  · exact .inl ⟨hnone, h.eq_of_pure.symm⟩
  · refine .inr ⟨text, htext, ?_⟩
    have hok := h.eq_ok
    rw [readBoolean] at hok
    cases hbool : readBoolean? text with
    | none => rw [hbool] at hok; cases hok
    | some b => rw [hbool] at hok; cases hok; rfl

/-- What `clear_params` says has no say in the scope inside; what it clears is the namespace. -/
theorem enterNs_of_enterCleared {e : Element} {inner : Scope} {clear : Option RosparamCommand}
    (h : Yields (enterCleared look scope a e) (inner, clear)) :
    ∃ ns, Yields (a.text? look scope "ns") ns ∧ scope.enterNs ns = .ok inner ∧
      ∀ command ∈ clear, command = .clear inner.ns e.location := by
  obtain ⟨ns, hns, h⟩ := h.of_bind
  obtain ⟨around, haround, h⟩ := h.of_bind
  obtain ⟨clears, _, h⟩ := h.of_bind
  have hpair : (around, clear) = (inner, clear) ∧
      ∀ command ∈ clear, command = .clear around.ns e.location := by
    split at h
    · split at h
      · cases h.eq_ok
      · cases h.eq_of_pure
        exact ⟨rfl, fun _ hmem => (Option.mem_some_iff.1 hmem).symm⟩
    · cases h.eq_of_pure
      exact ⟨rfl, nofun⟩
  obtain ⟨hsame, hclear⟩ := hpair
  cases hsame
  exact ⟨ns, hns, haround.eq_ok, hclear⟩

end Attributes

/-! ## Scopes in which one element reads alike -/

/-- All attributes of an element resolve alike in two scopes. -/
def Element.ReadsAlike (look : Lookups) (s s' : Scope) (e : Element) : Prop :=
  ∀ attr raw, e.attr? attr = some raw →
    Segment.evaluate s' look raw = Segment.evaluate s look raw

/-- Scopes with the same texts read every element alike. -/
theorem Scope.SameTexts.readsAlike {look : Lookups} {s s' : Scope} (h : s.SameTexts s')
    (e : Element) : e.ReadsAlike look s s' :=
  fun _ raw _ => h.evaluate raw

namespace Element.ReadsAlike

variable {look : Lookups} {s s' : Scope} {e : Element} {wanted : List Wanted} {a : Attributes}

/-- An attribute that need not be there is read alike. -/
theorem text? (h : e.ReadsAlike look s s') (hread : Attributes.read e wanted = .ok a)
    (name : String) : a.text? look s' name = a.text? look s name := by
  rw [Attributes.text?, Attributes.text?]
  cases hget : a.get? name with
  | none => rfl
  | some segments =>
    obtain ⟨raw, hraw, hparse⟩ := Attributes.exists_of_read hread hget
    have heval := h name raw hraw
    rw [Attributes.evaluate_of_parse hparse, Attributes.evaluate_of_parse hparse] at heval
    simp only [Attributes.textOf, heval]

/-- An attribute is read alike. -/
theorem text (h : e.ReadsAlike look s s') (hread : Attributes.read e wanted = .ok a)
    (name : String) : a.text look s' name = a.text look s name := by
  rw [Attributes.text, Attributes.text]
  cases hget : a.get? name with
  | none => rfl
  | some segments =>
    obtain ⟨raw, hraw, hparse⟩ := Attributes.exists_of_read hread hget
    have heval := h name raw hraw
    rw [Attributes.evaluate_of_parse hparse, Attributes.evaluate_of_parse hparse] at heval
    rw [Option.getD_some, Attributes.textOf, Attributes.textOf, heval]

/-- A flag is read alike. -/
theorem flag (h : e.ReadsAlike look s s') (hread : Attributes.read e wanted = .ok a)
    (name : String) : a.flag look s' name = a.flag look s name := by
  simp only [Attributes.flag, h.text? hread]

/-- A condition is read alike. -/
theorem isActive (h : e.ReadsAlike look s s') : e.isActive look s' = e.isActive look s := by
  have hvalue : ∀ attr raw, e.attr? attr = some raw → ∀ name,
      conditionValue look s' name raw = conditionValue look s name raw := by
    intro attr raw hraw name
    rw [conditionValue, conditionValue, h attr raw hraw]
  rw [Element.isActive, Element.isActive]
  cases hif : e.attr? "if" with
  | none =>
    cases hunless : e.attr? "unless" with
    | none => rfl
    | some raw => simp only [hvalue "unless" raw hunless]
  | some raw =>
    cases hunless : e.attr? "unless" with
    | none => simp only [hvalue "if" raw hif]
    | some _ => rfl

end Element.ReadsAlike
end LaunchFile
