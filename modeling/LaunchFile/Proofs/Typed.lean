import LaunchFile.Param.Spec
import LaunchFile.Proofs.Binding
import LaunchFile.Proofs.Decimal.Layout
import LaunchFile.Proofs.Expr.Blanks
import LaunchFile.Proofs.Reference
import LaunchFile.Proofs.Substitution.Plain
import LaunchFile.Proofs.Substitution.Splice
import LaunchFile.Proofs.Walk.Moment

/-!
# Proofs/Typed — values that cross a run as text and keep their type

What an expression ends in is text before anything is done with it. The text of a whole number or of
a boolean is typed as that value again, by the reader of parameters and by the look-up of arguments
(`Matches.ofText`), though the two try the types in another order. So a `<param>` with an expression
as its value sets what the expression ends in, and an argument that was given by one expression has
the same value in the next.
-/

namespace LaunchFile

open LaunchFile.Expr (IsVariable Value)

/-! ## Texts of whole numbers and booleans -/

/-- A whole number or a boolean, and the same as the value of a parameter. -/
inductive Matches : Value → ParamValue → Prop where
  | int (n : Int64) : Matches (.int n) (.int n)
  | bool (b : Bool) : Matches (.bool b) (.bool b)

variable {v : Value} {p : ParamValue} {raw given : String} {n : Int64}

/-- A text that is read as a word is that word. -/
theorem Expr.Value.ofText_of_readInt64?
    (h : Decimal.readInt64? (Text.trimChars given.toList) = some n) :
    Value.ofText given = .int n := by
  simp only [Value.ofText, Text.trim, String.toList_ofList, h]

/-- A whole number has no point, so that it is not tried as a float before. -/
theorem ParamValue.ofText_of_readInt64?
    (h : Decimal.readInt64? (Text.trimChars given.toList) = some n) :
    ParamValue.ofText given = .int n := by
  obtain ⟨whole, hwhole, -⟩ := Option.bind_eq_some_iff.1 h
  have hpoint : pointed? (Text.trimChars given.toList) = none := by
    rw [pointed?, if_neg (by simpa using (Decimal.not_mark_mem_of_readInt? hwhole).1)]
  simp only [ofText, hpoint, h]

/-- A word is read back from its text. -/
theorem readInt64?_ofInt64 (n : Int64) :
    Decimal.readInt64? (Text.trimChars (Decimal.ofInt64 n).toList) = some n := by
  have hread := Decimal.readInt?_toString n.toInt
  have hplain : ∀ c ∈ (toString n.toInt).toList, Text.isBlank c = false := by
    have hdigits : ∀ c ∈ Nat.toDigits 10 n.toInt.natAbs, Text.isBlank c = false :=
      fun c hc => Expr.isBlank_of_isDigit (Decimal.isDigits_toDigits _ c hc)
    rw [Decimal.toList_toString]
    split
    · exact hdigits
    · exact List.forall_mem_cons.2 ⟨by decide, hdigits⟩
  have htrim := Text.trimChars_eq_self hplain
  rw [Decimal.ofInt64, htrim, Decimal.readInt64?, hread, Option.bind_some, Decimal.toInt64?_toInt]

/-- **Both readers of its text agree with a value** that is a whole number or a boolean. -/
theorem Matches.ofText (h : Matches v p) :
    Value.ofText v.text = v ∧ ParamValue.ofText v.text = p := by
  cases h with
  | int n =>
    exact ⟨Value.ofText_of_readInt64? (readInt64?_ofInt64 n),
      ParamValue.ofText_of_readInt64? (readInt64?_ofInt64 n)⟩
  | bool b => cases b <;> exact ⟨rfl, rfl⟩

/-! ## Directives -/

variable {scope : Scope} {look : Lookups} {r r' : AnonRegistry}

/-- The attribute text is one directive, and its expression has a value. Directives inside of it
stand for what they resolve to. -/
def Segment.EvaluatesTo (scope : Scope) (look : Lookups) (raw : String) (r : AnonRegistry)
    (v : Value) (r' : AnonRegistry) : Prop :=
  ∃ parts expression between, parse raw = .ok [.eval parts] ∧
    outcome (resolveAll scope look parts) r = (.ok expression, between) ∧
    outcome (Expr.evaluate (bindings scope look) expression) between = (.ok v, r')

namespace Segment

/-- What a text evaluates to is its outcome. -/
theorem EvaluatesTo.outcome_eq (h : EvaluatesTo scope look raw r v r') :
    outcome (evaluate scope look raw) r = (.ok v.text, r') := by
  obtain ⟨parts, expression, between, hparse, hparts, heval⟩ := h
  exact outcome_evaluate_eval hparse hparts heval

/-- The directive of an expression without dollars has the value of the expression. -/
theorem evaluatesTo_expression {source : String} (hdollar : '$' ∉ source.toList)
    (hquotes : noQuoteEscaped none source.toList = true)
    (h : outcome (Expr.evaluate (bindings scope look) source) r = (.ok v, r')) :
    EvaluatesTo scope look ("$(eval " ++ source ++ ")") r v r' := by
  obtain ⟨tree, between, hparsed, heval⟩ := outcome_bind_eq_ok h
  obtain ⟨hparse, hsame⟩ := eq_ok_of_outcome hparsed
  subst hsame
  have hne := Segment.trimChars_ne_nil_of_parse hparse
  have hdollars : '$' ∉ Text.trimChars source.toList := fun hmem =>
    hdollar ((Text.trimChars_infix _).subset hmem)
  have hdirective := parse_of_passes (passes_of_parse hparse hquotes) hne
    (segments_expression ("$(eval " ++ source ++ ")") hne hdollars)
  refine ⟨_, Text.trim source, between, hdirective, ?_, ?_⟩
  · show (Except.ok (Text.trim source ++ ""), between) = _
    rw [String.append_empty]
  · rw [Expr.evaluate, Expr.parse_trim hparse]
    exact heval

end Segment

/-! ## Attributes -/

/-- An attribute is there and resolves to a text. -/
def Element.Gives (look : Lookups) (scope : Scope) (e : Element) (name : String)
    (r : AnonRegistry) (text : String) (r' : AnonRegistry) : Prop :=
  ∃ raw, e.attr? name = some raw ∧ outcome (Segment.evaluate scope look raw) r = (.ok text, r')

/-- An attribute is not there, or it resolves to a text. -/
def Element.MayGive (look : Lookups) (scope : Scope) (e : Element) (name : String)
    (r : AnonRegistry) (found : Option String) (r' : AnonRegistry) : Prop :=
  e.attr? name = none ∧ found = none ∧ r' = r ∨
    ∃ text, e.Gives look scope name r text r' ∧ found = some text

/-- A wanted attribute is well-formed where it is there, and it is there unless it is optional. -/
def Element.Supplies (e : Element) (w : Wanted) : Prop :=
  w = .optional w.name ∧ e.attr? w.name = none ∨
    ∃ raw segments, e.attr? w.name = some raw ∧ Segment.parse raw = .ok segments

section

variable {e : Element} {name : String} {found : Option String} {wanted : List Wanted}
  {a : Attributes}

/-- Attributes that are all supplied are read. -/
theorem Attributes.exists_read : ∀ {wanted : List Wanted}, (∀ w ∈ wanted, e.Supplies w) →
    ∃ a, read e wanted = .ok a
  | [], _ => ⟨[], rfl⟩
  | w :: rest, h => by
    obtain ⟨hw, hrest⟩ := List.forall_mem_cons.1 h
    obtain ⟨others, hothers⟩ := exists_read hrest
    rw [read_cons]
    rcases hw with ⟨hw, hnone⟩ | ⟨raw, segments, hraw, hparse⟩
    · rw [hnone, hw]
      exact ⟨others, hothers⟩
    · have hsplit : split raw = .ok segments := by rw [split, hparse]; rfl
      rw [hraw]
      simp only [hsplit, hothers]
      exact ⟨_, rfl⟩

namespace Element

/-- A text that has a value is supplied. -/
theorem supplies_of_evaluate {w : Wanted} (hraw : e.attr? w.name = some raw)
    (h : outcome (Segment.evaluate scope look raw) r = (.ok given, r')) : e.Supplies w := by
  obtain ⟨segments, _, hparsed, -⟩ := outcome_bind_eq_ok h
  exact .inr ⟨raw, segments, hraw, (eq_ok_of_outcome hparsed).1⟩

theorem Gives.supplies (h : e.Gives look scope name r given r') : e.Supplies (.required name) := by
  obtain ⟨raw, hraw, htext⟩ := h
  exact supplies_of_evaluate hraw htext

theorem MayGive.supplies (h : e.MayGive look scope name r found r') :
    e.Supplies (.optional name) := by
  obtain ⟨hnone, -⟩ | ⟨text, ⟨raw, hraw, htext⟩, -⟩ := h
  · exact .inl ⟨rfl, hnone⟩
  · exact supplies_of_evaluate hraw htext

/-- An optional attribute that may be given is read as such. -/
theorem MayGive.text? (h : e.MayGive look scope name r found r')
    (hread : Attributes.read e wanted = .ok a) (hmem : name ∈ wanted.map Wanted.name) :
    outcome (a.text? look scope name) r = (.ok found, r') := by
  have hcontains : (a.get? name).isSome = (e.attr? name).isSome :=
    Attributes.contains_of_read hread hmem
  obtain ⟨hnone, rfl, rfl⟩ | ⟨text, ⟨raw, hraw, htext⟩, rfl⟩ := h
  · rw [hnone, Option.isSome_none, Option.isSome_eq_false_iff, Option.isNone_iff_eq_none]
      at hcontains
    rw [Attributes.text?, hcontains]
    rfl
  · rw [hraw] at hcontains
    exact Attributes.text?_of_evaluate hread hcontains hraw htext

/-- An attribute that is given has its text. -/
theorem Gives.text (h : e.Gives look scope name r given r')
    (hread : Attributes.read e wanted = .ok a) (hmem : .required name ∈ wanted) :
    outcome (a.text look scope name) r = (.ok given, r') := by
  have hmay : e.MayGive look scope name r (some given) r' := .inr ⟨given, h, rfl⟩
  have hfound := hmay.text? hread (List.mem_map_of_mem hmem)
  obtain ⟨segments, hget⟩ := Option.isSome_iff_exists.1 (Attributes.isSome_of_read hread hmem)
  rw [Attributes.text?, hget] at hfound
  obtain ⟨found, _, htext, hfound⟩ := outcome_bind_eq_ok hfound
  cases hfound
  rw [Attributes.text, hget]
  exact htext

end Element
end

/-! ## Parameters -/

variable {w : World} {e : Element} {name : String} {r₀ : AnonRegistry}

/-- A `<param>` with an accepted name, a text for its value and no type of its own. The name and the
type are resolved before the value. -/
structure Element.IsAutoParam (look : Lookups) (scope : Scope) (e : Element) (name raw : String)
    (r r' : AnonRegistry) : Prop where
  only : ParamSource.only e = .ok .value
  value : e.attr? "value" = some raw
  accepted : GraphName.check false name = .ok ()
  exists_type : ∃ type between, e.Gives look scope "name" r name between ∧
    e.MayGive look scope "type" between type r' ∧ paramType type = .ok .auto

/-- A typed value is a leaf and thus one setting. -/
theorem Matches.ofValue (h : Matches v p) (name : String) (location : Location) :
    ParamSpec.ofValue name p location = [⟨name, p, location⟩] := by
  cases h <;> rfl

/-- A `<param>` sets the value that its text has. -/
theorem readSetting_of_evaluatesTo (he : e.IsAutoParam w.look scope name raw r₀ r)
    (hraw : Segment.EvaluatesTo scope w.look raw r v r') (h : Matches v p) :
    outcome (readSetting w scope e) r₀ = (.ok (scope.resolveParamName name, p), r') := by
  obtain ⟨type, between, hname, htype, hauto⟩ := he.exists_type
  have hvalue : e.Gives w.look scope "value" r v.text r' := ⟨raw, he.value, hraw.outcome_eq⟩
  obtain ⟨a, hread⟩ : ∃ a, Attributes.read e
      [.required "value", .required "name", .optional "type"] = .ok a :=
    Attributes.exists_read (by simp [hvalue.supplies, hname.supplies, htype.supplies])
  have hcheck : Result.ofName name (GraphName.check false name) = .ok () := by
    rw [he.accepted]
    rfl
  have hvalueOf : ParamSource.value.valueOf w scope .auto v.text = .ok p :=
    congrArg Except.ok h.ofText.2
  rw [readSetting, he.only]
  show outcome (Attributes.ask w.look e
    [.required "value", .required "name", .optional "type"] >>= _) r₀ = _
  rw [Attributes.ask_eq, hread]
  refine (outcome_bind_ok (hname.text hread (by simp)) _).trans ?_
  rw [hcheck]
  refine (outcome_bind_ok (htype.text? hread (by simp [Wanted.name])) _).trans ?_
  rw [hauto]
  refine (outcome_bind_ok (hvalue.text hread (by simp)) _).trans ?_
  rw [hvalueOf]
  rfl

/-- It makes this one setting. -/
theorem readParam_of_evaluatesTo (he : e.IsAutoParam w.look scope name raw r₀ r)
    (hraw : Segment.EvaluatesTo scope w.look raw r v r') (h : Matches v p) :
    outcome (readParam w scope e) r₀ =
      (.ok [⟨scope.resolveParamName name, p, e.location⟩], r') := by
  refine (outcome_bind_ok (readSetting_of_evaluatesTo he hraw h) _).trans ?_
  exact congrArg (fun specs => (Except.ok specs, r'))
    (h.ofValue (scope.resolveParamName name) e.location)

/-- **A parameter without a type** is set to what the expression ends in that is its value. -/
theorem param_of_evaluatesTo {s : WalkState}
    (he : e.IsAutoParam w.look scope name raw s.registry r)
    (hraw : Segment.EvaluatesTo scope w.look raw r v r') (h : Matches v p) :
    outcome (WalkT.param w scope e) s = (.ok (), { s with
      registry := r'
      log := s.log ++ [.param ⟨scope.resolveParamName name, p, e.location⟩] }) :=
  outcome_bind_ok (WalkT.outcome_ofLaunch_eq (readParam_of_evaluatesTo he hraw h)) _

/-! ## Arguments -/

variable {behind later : Scope} {origin : ArgOrigin} {doc : Option String} {r'' : AnonRegistry}

/-- An `<arg>` that sets its argument to a text, by its value, or by its default where that does not
give way to what the argument has already. -/
inductive Element.SetsArg (e : Element) (raw : String) (givesWay : Bool) : ArgOrigin → Prop where
  | value (hvalue : e.attr? "value" = some raw) (hdefault : e.attr? "default" = none) :
    SetsArg e raw givesWay .value
  | default (hvalue : e.attr? "value" = none) (hdefault : e.attr? "default" = some raw)
    (hstays : givesWay = false) : SetsArg e raw givesWay .default

namespace Element.SetsArg

variable {wanted : List Wanted} {a : Attributes} {givesWay : Bool}

/-- An `<arg>` supplies a value or a default. -/
theorem supplies (he : e.SetsArg raw givesWay origin)
    (hraw : outcome (Segment.evaluate scope look raw) r = (.ok given, r')) :
    e.Supplies (.optional "value") ∧ e.Supplies (.optional "default") := by
  cases he with
  | value hvalue hdefault => exact ⟨supplies_of_evaluate hvalue hraw, .inl ⟨rfl, hdefault⟩⟩
  | default hvalue hdefault => exact ⟨.inl ⟨rfl, hvalue⟩, supplies_of_evaluate hdefault hraw⟩

/-- It has a value just if it is bound by one. -/
theorem contains (he : e.SetsArg raw givesWay origin) (hread : Attributes.read e wanted = .ok a)
    (hvalue : "value" ∈ wanted.map Wanted.name) (hdefault : "default" ∈ wanted.map Wanted.name) :
    a.contains "value" = (origin == .value) ∧ a.contains "default" = (origin != .value) := by
  rw [Attributes.contains_of_read hread hvalue, Attributes.contains_of_read hread hdefault]
  show (e.attr? "value").isSome = _ ∧ (e.attr? "default").isSome = _
  cases he with
  | value hvalue hdefault =>
    rw [hvalue, hdefault]
    exact ⟨rfl, rfl⟩
  | default hvalue hdefault =>
    rw [hvalue, hdefault]
    exact ⟨rfl, rfl⟩

/-- It has no default beside a value. -/
theorem checkExclusive (he : e.SetsArg raw givesWay origin) :
    LaunchFile.checkExclusive e = .ok () := by
  cases he with
  | value hvalue hdefault => rw [LaunchFile.checkExclusive, hvalue, hdefault]
  | default hvalue hdefault => rw [LaunchFile.checkExclusive, hvalue, hdefault]

end Element.SetsArg

/-- The scope behind an `<arg>`, or why it is refused. -/
theorem readArg_of_evaluatesTo (he : e.SetsArg raw (scope.isOverridden name) origin)
    (hname : e.Gives look scope "name" r₀ name r)
    (hraw : Segment.EvaluatesTo scope look raw r v r')
    (hdoc : e.MayGive look scope "doc" r' doc r'') : outcome (readArg look scope e) r₀ =
      (scope.bind name ⟨some v.text, origin, doc⟩, r'') := by
  obtain ⟨values, hvalues⟩ : ∃ a, Attributes.read e [.optional "value", .optional "default"] =
      .ok a := Attributes.exists_read (by simpa using he.supplies hraw.outcome_eq)
  obtain ⟨others, hothers⟩ : ∃ a, Attributes.read e [.required "name", .optional "doc"] =
      .ok a := Attributes.exists_read (by simp [hname.supplies, hdoc.supplies])
  obtain ⟨hvalue, hdefault⟩ := he.contains hvalues (by decide) (by decide)
  have hgiven : outcome (argValue look scope values name) r =
      (.ok (some v.text, origin), r') := by
    rw [argValue]
    cases he with
    | value hattr =>
      have hvalue : values.contains "value" = true := hvalue
      rw [if_pos hvalue]
      exact outcome_bind_ok (Attributes.text?_of_evaluate hvalues hvalue hattr hraw.outcome_eq) _
    | default _ hattr hstays =>
      have hdefault : values.contains "default" = true := hdefault
      rw [if_neg (ne_true_of_eq_false hvalue), if_pos hdefault,
        if_neg (ne_true_of_eq_false hstays)]
      exact outcome_bind_ok (Attributes.text?_of_evaluate hvalues hdefault hattr hraw.outcome_eq) _
  rw [readArg, Attributes.ask_eq, hvalues, he.checkExclusive, Attributes.ask_eq, hothers]
  refine (outcome_bind_ok (hname.text hothers (by simp)) _).trans ?_
  refine (outcome_bind_ok hgiven _).trans ?_
  refine (outcome_bind_ok (hdoc.text? hothers (by simp [Wanted.name])) _).trans ?_
  cases scope.bind name ⟨some v.text, origin, doc⟩ <;> rfl

/-- What an argument is set to stays behind, unless it is only a default for an argument that is
given from outside. -/
theorem binds_of_bind (hbind : scope.bind name ⟨some given, origin, doc⟩ = .ok behind)
    (hopen : origin ≠ .value → scope.isOverridden name = false) :
    Segment.Binds behind name given := by
  refine ⟨_, congrArg (·.args.get? name) (Scope.eq_setArg_of_bind hbind) |>.trans
    (Dict.get?_insert_self _ _ _), ?_⟩
  cases hfound : scope.args.get? name with
  | none => rfl
  | some existing =>
    have hagree := Scope.not_refuses_of_bind hbind hfound
    rw [Scope.isOverridden, hfound] at hopen
    simp only [ArgBinding.Refuses, not_and, not_or, ne_eq, not_not] at hagree
    rw [Option.elim_some, ArgBinding.after]
    split
    · rfl
    · rename_i hinside
      have hoverride : origin ≠ .override := by simpa [ArgBinding.isOverride] using hinside
      split
      · rename_i houtside
        have hvalue : origin = .value := by
          by_contra hne
          exact absurd houtside (ne_true_of_eq_false (hopen hne))
        exact (hagree hoverride).1 (eq_of_beq houtside) hvalue
      · rename_i hexisting
        exact (hagree hoverride).2 (by simpa [ArgBinding.isOverride] using hexisting)

/-- What an `<arg>` of an include passes. -/
theorem readPassed_of_evaluatesTo {passed : Dict String}
    (he : e.SetsArg raw (passed.contains name) origin)
    (hname : e.Gives look scope "name" r₀ name r)
    (hraw : Segment.EvaluatesTo scope look raw r v r') :
    outcome (IncludeInputs.readPassed look scope passed e) r₀ = (.ok (name, some v.text), r') := by
  obtain ⟨hvalue, hdefault⟩ := he.supplies hraw.outcome_eq
  obtain ⟨a, hread⟩ : ∃ a, Attributes.read e
      [.required "name", .optional "value", .optional "default"] = .ok a :=
    Attributes.exists_read (by simp [hname.supplies, hvalue, hdefault])
  obtain ⟨hbyValue, hbyDefault⟩ := he.contains hread (by decide) (by decide)
  have hsome : ¬(!a.contains "value" && !a.contains "default") = true := by
    rw [hbyValue, hbyDefault]
    cases he <;> decide
  have hgiven : outcome (IncludeInputs.passedValue look scope passed a name) r =
      (.ok (some v.text), r') := by
    rw [IncludeInputs.passedValue]
    cases he with
    | value hattr =>
      have hbyValue : a.contains "value" = true := hbyValue
      rw [if_pos hbyValue]
      exact Attributes.text?_of_evaluate hread hbyValue hattr hraw.outcome_eq
    | default _ hattr hstays =>
      rw [if_neg (ne_true_of_eq_false hbyValue), if_neg (ne_true_of_eq_false hstays)]
      exact Attributes.text?_of_evaluate hread hbyDefault hattr hraw.outcome_eq
  rw [IncludeInputs.readPassed, Attributes.ask_eq, hread]
  show outcome (if _ then _ else _) r₀ = _
  rw [if_neg hsome]
  refine (outcome_bind_ok (hname.text hread (by simp)) _).trans ?_
  exact outcome_bind_ok hgiven _

/-- An argument that is passed is bound in the included file. -/
theorem binds_scopeOf (inputs : IncludeInputs) (scope : Scope) (path : Path) (name given : String) :
    Segment.Binds ((inputs.withArg name (some given)).scopeOf scope path) name given := by
  let binding : String → ArgBinding := fun text => ⟨some text, .override, none⟩
  have hpassed : (inputs.withArg name (some given)).args.get? name = some given :=
    Dict.get?_insert_self inputs.args name given
  have hget := Dict.get?_mapValues (fun _ => binding) (inputs.withArg name (some given)).args name
  rw [hpassed] at hget
  exact ⟨binding given, hget, rfl⟩

/-- **An argument that has the text of a value** has the value in an expression. -/
theorem lookupName_of_binds (h : Matches v p) (hbound : Segment.Binds later name v.text)
    (hname : name ≠ "pi" ∧ name ≠ "e") :
    Expr.lookupName (Segment.bindings later look) name = .ok v := by
  rw [Expr.lookupName, if_neg (by simp [hname.1]), if_neg (by simp [hname.2]), hbound.arg_eq look]
  exact congrArg Except.ok h.ofText.1

/-- A variable that is bound to the text of a value has that value. -/
theorem evaluatesTo_variable (h : Matches v p) (hbound : Segment.Binds later name v.text)
    (hname : IsVariable name) (r : AnonRegistry) :
    Segment.EvaluatesTo later look ("$(eval " ++ name ++ ")") r v r := by
  refine ⟨_, name, r, Segment.parse_eval_identifier hname.isIdentifier, ?_, ?_⟩
  · show (Except.ok (name ++ ""), r) = _
    rw [String.append_empty]
  · rw [Expr.evaluate_variable hname (hbound.arg_eq look), h.ofText.1]

/-- **Whole numbers and booleans keep their type** on their way through text. Both readers agree
with such a value on its text; so a `<param>` without a type sets what the expression ends in that
is its value, and an `<arg>` leaves behind what its expression ends in, for every later expression
that names it. The expression is any that stands in the directive: an accepted source without a
dollar is one unless it escapes a quote that it stands in. -/
theorem typed_through_text {v : Value} {p : ParamValue} (h : Matches v p) :
    (Value.ofText v.text = v ∧ ParamValue.ofText v.text = p) ∧
    (∀ (w : World) (scope : Scope) (e : Element) (name raw : String) (s : WalkState)
      (r r' : AnonRegistry), e.IsAutoParam w.look scope name raw s.registry r →
      Segment.EvaluatesTo scope w.look raw r v r' →
      outcome (WalkT.param w scope e) s = (.ok (), { s with
        registry := r'
        log := s.log ++ [.param ⟨scope.resolveParamName name, p, e.location⟩] })) ∧
    (∀ (look : Lookups) (scope : Scope) (e : Element) (name raw : String) (origin : ArgOrigin)
      (doc : Option String) (r₀ r r' r'' : AnonRegistry),
      e.SetsArg raw (scope.isOverridden name) origin → e.Gives look scope "name" r₀ name r →
      Segment.EvaluatesTo scope look raw r v r' → e.MayGive look scope "doc" r' doc r'' →
      outcome (readArg look scope e) r₀ = (scope.bind name ⟨some v.text, origin, doc⟩, r'') ∧
      (scope.args.get? name = none →
        ∃ behind, scope.bind name ⟨some v.text, origin, doc⟩ = .ok behind) ∧
      ∀ behind, scope.bind name ⟨some v.text, origin, doc⟩ = .ok behind →
        Segment.Binds behind name v.text) ∧
    (∀ (look : Lookups) (scope : Scope) (e : Element) (name raw : String) (origin : ArgOrigin)
      (inputs : IncludeInputs) (r₀ r r' : AnonRegistry),
      e.SetsArg raw (inputs.args.contains name) origin → e.Gives look scope "name" r₀ name r →
      Segment.EvaluatesTo scope look raw r v r' →
      outcome (IncludeInputs.readPassed look scope inputs.args e) r₀ =
        (.ok (name, some v.text), r') ∧
      ∀ (around : Scope) (path : Path),
        Segment.Binds ((inputs.withArg name (some v.text)).scopeOf around path) name v.text) ∧
    (∀ (look : Lookups) (later : Scope) (name : String), Segment.Binds later name v.text →
      (name ≠ "pi" ∧ name ≠ "e" →
        Expr.lookupName (Segment.bindings later look) name = .ok v) ∧
      (IsVariable name → ∀ r,
        Segment.EvaluatesTo later look ("$(eval " ++ name ++ ")") r v r)) ∧
    ∀ (look : Lookups) (scope : Scope) (source : String) (r r' : AnonRegistry),
      '$' ∉ source.toList → Segment.noQuoteEscaped none source.toList = true →
      outcome (Expr.evaluate (Segment.bindings scope look) source) r = (.ok v, r') →
      Segment.EvaluatesTo scope look ("$(eval " ++ source ++ ")") r v r' := by
  refine ⟨h.ofText, ?param, ?arg, ?passed, ?named, ?source⟩
  case param =>
    intro w scope e name raw s r r' he hraw
    exact param_of_evaluatesTo he hraw h
  case arg =>
    intro look scope e name raw origin doc r₀ r r' r'' he hname hraw hdoc
    refine ⟨readArg_of_evaluatesTo he hname hraw hdoc, fun hnew => ?_, fun behind hbind => ?_⟩
    · exact ⟨_, Scope.bind_of_not_refuses fun existing hexisting => by simp [hnew] at hexisting⟩
    · refine binds_of_bind hbind fun horigin => ?_
      cases he with
      | value => exact absurd rfl horigin
      | default _ _ hstays => exact hstays
  case passed =>
    intro look scope e name raw origin inputs r₀ r r' he hname hraw
    exact ⟨readPassed_of_evaluatesTo he hname hraw,
      fun around path => binds_scopeOf inputs around path name v.text⟩
  case named =>
    intro look later name hbound
    exact ⟨lookupName_of_binds h hbound, evaluatesTo_variable h hbound⟩
  case source =>
    intro look scope source r r' hdollar hquotes heval
    exact Segment.evaluatesTo_expression hdollar hquotes heval

/-- A world in which there is nothing to look up. -/
def emptyWorld : World :=
  ⟨⟨fun _ => none, fun _ => none⟩, MemoryFiles.toFiles [], true, "noetic"⟩

/-- The least whole number, as the value of a parameter and of an argument. -/
theorem typed_through_text_least :
    let raw := "$(eval " ++ "-9223372036854775807 - 1" ++ ")"
    let param : Element :=
      .mk "param" (.ofPairs [("name", "x"), ("value", raw)]) [] none ⟨none, 1, 1⟩
    let arg : Element := .mk "arg" (.ofPairs [("name", "n"), ("value", raw)]) [] none ⟨none, 1, 1⟩
    Matches (.int Int64.minValue) (.int Int64.minValue) ∧
    outcome (WalkT.param emptyWorld Scope.root param) ⟨.empty, [], []⟩ = (.ok (), ⟨.empty, [],
      [.param ⟨"/x", .int Int64.minValue, ⟨none, 1, 1⟩⟩]⟩) ∧
    ∃ behind, outcome (readArg emptyWorld.look Scope.root arg) .empty = (.ok behind, .empty) ∧
      Segment.EvaluatesTo behind emptyWorld.look ("$(eval " ++ "n" ++ ")") .empty
        (.int Int64.minValue) .empty := by
  intro raw param arg
  have hmatches : Matches (.int Int64.minValue) (.int Int64.minValue) := .int _
  obtain ⟨-, hparam, harg, -, hnamed, hsource⟩ := typed_through_text hmatches
  have hlex : Expr.tokenize "-9223372036854775807 - 1" = .ok [⟨.minus, 0⟩,
      ⟨.int 9223372036854775807, 1⟩, ⟨.minus, 21⟩, ⟨.int 1, 23⟩, ⟨.stop, 24⟩] :=
    (Expr.tokenize_eq_turns _).trans rfl
  have hleast : outcome (Expr.evaluate (Segment.bindings Scope.root emptyWorld.look)
      "-9223372036854775807 - 1") .empty = (.ok (.int Int64.minValue), .empty) := by
    rw [Expr.evaluate, Expr.parse, hlex]
    rfl
  have hraw := hsource emptyWorld.look Scope.root "-9223372036854775807 - 1" .empty .empty
    (by decide) rfl hleast
  have hx : outcome (Segment.evaluate Scope.root emptyWorld.look "x") .empty =
      (.ok "x", .empty) := by
    rw [Segment.evaluate_of_isPlain (by decide)]
    rfl
  have hn : outcome (Segment.evaluate Scope.root emptyWorld.look "n") .empty =
      (.ok "n", .empty) := by
    rw [Segment.evaluate_of_isPlain (by decide)]
    rfl
  refine ⟨hmatches, ?_, ?_⟩
  · exact hparam emptyWorld Scope.root param "x" raw ⟨.empty, [], []⟩ .empty .empty
      ⟨rfl, rfl, by decide, none, .empty, ⟨"x", rfl, hx⟩, .inl ⟨rfl, rfl, rfl⟩, rfl⟩ hraw
  · obtain ⟨hread, hnew, hbinds⟩ := harg emptyWorld.look Scope.root arg "n" raw .value none .empty
      .empty .empty .empty (.value rfl rfl) ⟨"n", rfl, hn⟩ hraw (.inl ⟨rfl, rfl, rfl⟩)
    obtain ⟨behind, hbind⟩ := hnew rfl
    have hname : IsVariable "n" :=
      ⟨⟨'n', [], rfl, by decide, List.forall_mem_nil _⟩, by decide, by decide, by decide⟩
    exact ⟨behind, hread.trans (by rw [hbind]),
      (hnamed emptyWorld.look behind "n" (hbinds behind hbind)).2 hname .empty⟩

/-- An expression that escapes a quote ends in a whole number, and the parameter that has it for its
value is refused, since the end of the directive is not found. -/
theorem untyped_of_escaped_quote :
    let param : Element :=
      .mk "param" (.ofPairs [("name", "x"), ("value", "$(eval len('\\''))")]) [] none ⟨none, 1, 1⟩
    outcome (Expr.evaluate (Segment.bindings Scope.root emptyWorld.look) "len('\\'')") .empty =
      (.ok (.int 1), .empty) ∧
    (outcome (WalkT.param emptyWorld Scope.root param) ⟨.empty, [], []⟩).1 =
      .error (.ofCause (.substitution (.invalid "$(eval len('\\''))" .unclosedEval))) := by
  intro param
  have hlex : Expr.tokenize "len('\\'')" = .ok [⟨.ident "len", 0⟩, ⟨.leftParen, 3⟩,
      ⟨.str "'", 4⟩, ⟨.rightParen, 8⟩, ⟨.stop, 9⟩] :=
    (Expr.tokenize_eq_turns _).trans rfl
  have hopen : Segment.parse "$(eval len('\\''))" =
      .error (.invalid "$(eval len('\\''))" .unclosedEval) :=
    Segment.parse_of_cut_error rfl rfl
  constructor
  · rw [Expr.evaluate, Expr.parse, hlex]
    rfl
  · have honly : ParamSource.only param = .ok .value := rfl
    have hread : Attributes.read param [.required "value", .required "name", .optional "type"] =
        .error (.ofCause (.substitution (.invalid "$(eval len('\\''))" .unclosedEval))) := by
      rw [Attributes.read_cons]
      show (do
        let segments ← Attributes.split "$(eval len('\\''))"
        let others ← Attributes.read param [.required "name", .optional "type"]
        return ("value", segments) :: others) = _
      rw [Attributes.split, hopen]
      rfl
    have hfail : outcome (readParam emptyWorld Scope.root param) .empty =
        (.error (.ofCause (.substitution (.invalid "$(eval len('\\''))" .unclosedEval))),
          .empty) := by
      rw [readParam, readSetting, honly]
      show outcome (Attributes.ask emptyWorld.look param
        [.required "value", .required "name", .optional "type"] >>= _ >>= _) AnonRegistry.empty = _
      rw [Attributes.ask_eq, hread]
      rfl
    rw [WalkT.param]
    exact congrArg Prod.fst (outcome_bind_error (WalkT.outcome_ofLaunch_eq hfail) _)

end LaunchFile
