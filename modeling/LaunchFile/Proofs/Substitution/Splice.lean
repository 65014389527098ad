import LaunchFile.Proofs.Dict
import LaunchFile.Proofs.Expr.Variable
import LaunchFile.Proofs.Substitution.EvalClose
import LaunchFile.Substitution.Resolve

/-!
# Proofs/Substitution/Splice — an argument spliced into an expression or named in it

`$(eval $(arg n))` puts the text of an argument into the source of an expression, `$(eval n)` looks
the argument up when the expression is evaluated. For a number the two give the same text
(`splice_number`), except for digits beyond the words, which are typed as a float where they are
looked up and are no token where they are spliced (`splice_oversized`).
-/

namespace LaunchFile.Segment

open LaunchFile.Expr (EvalError IsIdentifier IsVariable Value)

variable {name text : String} {scope : Scope} {look : Lookups} {registry : AnonRegistry}

/-! ## The two texts -/

theorem passes_identifier (h : IsIdentifier name) (depth : Nat) :
    Passes depth none name.toList depth none :=
  passes_all fun _ hc =>
    passes_plain (Expr.isPlain_of (p := Expr.isIdentRest) (by decide) (h.isIdentRest_of_mem hc))

theorem isArgument_identifier (h : IsIdentifier name) : IsArgument name := by
  refine ⟨h.isWord, h.notMem (by decide), ?_⟩
  rw [Bool.eq_false_iff, Ne, Text.occurs_iff_infix]
  exact fun hpart => h.notMem (by decide) (hpart.subset List.mem_cons_self)

theorem parse_eval_identifier (h : IsIdentifier name) :
    parse ("$(eval " ++ name ++ ")") = .ok [.eval [.text name]] := by
  have htrim : Text.trimChars name.toList = name.toList := Text.trimChars_eq_self h.isWord.2
  refine parse_of_passes (passes_identifier h 0) (htrim.symm ▸ h.isWord.1) ?_
  rw [htrim, segments_expression _ h.isWord.1 (h.notMem (by decide)), String.ofList_toList]

/-- The directive that splices an argument. -/
theorem toList_argDirective (name : String) : ("$(arg " ++ name ++ ")").toList =
    directive ("arg".toList ++ ' ' :: name.toList) := by
  simp [directive]

theorem passes_argDirective (h : IsIdentifier name) :
    Passes 0 none (directive ("arg".toList ++ ' ' :: name.toList)) 0 none := by
  have hword : ∀ c ∈ "arg ".toList, Expr.IsPlain c := by simp [Expr.IsPlain, Expr.marks]
  have hkind : Passes 1 none "arg ".toList 1 none :=
    passes_all fun c hc => passes_plain (hword c hc)
  have hcontent : Passes 1 none ("arg".toList ++ ' ' :: name.toList) 1 none :=
    hkind.append (passes_identifier h 1)
  have hdollar : Expr.IsPlain '$' := by decide
  rw [directive]
  exact (passes_plain hdollar).cons (passes_opening.cons (hcontent.append passes_closing))

theorem trimChars_directive {content : List Char} :
    Text.trimChars (directive content) = directive content :=
  Text.trimChars_append_cons (by decide) (by decide) rfl ('(' :: content)

theorem parse_eval_argDirective (h : IsIdentifier name) :
    parse ("$(eval " ++ ("$(arg " ++ name ++ ")") ++ ")") = .ok [.eval [.arg name]] := by
  refine parse_of_passes ?_ ?_ ?_
  · rw [toList_argDirective]
    exact passes_argDirective h
  · rw [toList_argDirective, trimChars_directive]
    exact List.cons_ne_nil _ _
  · have hkind : ("arg", Segment.arg) ∈ oneArgKinds := by simp [oneArgKinds]
    rw [toList_argDirective, trimChars_directive, ← List.append_nil (directive _),
      segments_oneArg _ true 0 [] [] hkind (isArgument_identifier h), segments]
    rfl

/-! ## Their values -/

/-- A directive resolves to the text of what its expression ends in. -/
theorem outcome_evaluate_eval {parts : List Segment} {expression : String}
    {result : Except EvalError Value} {between behind : AnonRegistry}
    (hparse : parse text = .ok [.eval parts])
    (hparts : outcome (resolveAll scope look parts) registry = (.ok expression, between))
    (heval : outcome (Expr.evaluate (bindings scope look) expression) between =
      (result, behind)) :
    outcome (evaluate scope look text) registry =
      ((result.map Value.text).mapError .eval, behind) := by
  have hadapt : outcome ((Expr.evaluate (bindings scope look) expression).adapt
      SubstitutionError.eval) between = (result.mapError .eval, behind) := by
    rw [outcome_adapt, heval]
  have hdirective : outcome (resolve scope look (.eval parts)) registry =
      ((result.map Value.text).mapError .eval, behind) := by
    rw [resolve, outcome_bind_ok hparts, evalText, outcome_bind, hadapt]
    cases result <;> rfl
  rw [evaluate_eq, hparse]
  show outcome (resolveAll scope look [.eval parts]) registry = _
  rw [resolveAll, outcome_bind, hdirective]
  cases result with
  | error e => rfl
  | ok v =>
    show (Except.ok (v.text ++ ""), behind) = _
    rw [String.append_empty]
    rfl

/-- An argument is bound to a text. -/
def Binds (scope : Scope) (name text : String) : Prop :=
  ∃ binding, scope.args.get? name = some binding ∧ binding.value = some text

theorem Binds.arg_eq (h : Binds scope name text) (look : Lookups) :
    (bindings scope look).arg name = .ok (some text) := by
  obtain ⟨binding, hget, hvalue⟩ := h
  simp only [bindings, hget, hvalue]

/-- **An argument that an expression names** gives the text of its typed value. -/
theorem outcome_named (hname : IsVariable name) (hbound : Binds scope name text) :
    outcome (evaluate scope look ("$(eval " ++ name ++ ")")) registry =
      (.ok (Value.ofText text).text, registry) := by
  refine outcome_evaluate_eval (parse_eval_identifier hname.isIdentifier) ?_
    (Expr.evaluate_variable hname (hbound.arg_eq look) registry)
  show (Except.ok (name ++ ""), registry) = _
  rw [String.append_empty]

/-- An argument that is spliced into an expression is all of its source. -/
theorem outcome_resolveAll_arg (hbound : Binds scope name text) :
    outcome (resolveAll scope look [.arg name]) registry = (.ok text, registry) := by
  obtain ⟨binding, hget, hvalue⟩ := hbound
  have harg : resolveArg scope name = .ok text := by
    rw [resolveArg, hget]
    show orFail binding.value _ = _
    rw [hvalue]
    rfl
  rw [resolveAll, resolve, harg]
  show (Except.ok (text ++ ""), registry) = _
  rw [String.append_empty]

theorem spliced_eq (name : String) :
    "$(eval $(arg " ++ name ++ "))" = "$(eval " ++ ("$(arg " ++ name ++ ")") ++ ")" :=
  String.toList_inj.1 (by simp)

/-- **A number may be spliced or named.** Every text that is typed as a number, digits beyond the
words apart, is an expression of the value that it is typed as; so an argument that is bound to it
gives the same text spliced into an expression as named in it. -/
theorem splice_number (hnumber : (Value.ofText text).IsNumber) (hsize : ¬Expr.IsOversized text) :
    (∀ {σ : Type} (b : Expr.Bindings σ) (s : σ),
      outcome (Expr.evaluate b text) s = (.ok (Value.ofText text), s)) ∧
    ∀ (scope : Scope) (look : Lookups) (registry : AnonRegistry) (name : String),
      IsVariable name → Binds scope name text →
      outcome (evaluate scope look ("$(eval $(arg " ++ name ++ "))")) registry =
          (.ok (Value.ofText text).text, registry) ∧
        outcome (evaluate scope look ("$(eval " ++ name ++ ")")) registry =
          (.ok (Value.ofText text).text, registry) := by
  have hvalue {σ : Type} (b : Expr.Bindings σ) (s : σ) := Expr.evaluate_number hnumber hsize b s
  refine ⟨hvalue, fun scope look registry name hname hbound => ⟨?_, outcome_named hname hbound⟩⟩
  rw [spliced_eq]
  exact outcome_evaluate_eval (parse_eval_argDirective hname.isIdentifier)
    (outcome_resolveAll_arg hbound) (hvalue _ registry)

/-- A scope with one argument. -/
def oneArgScope (name text : String) : Scope :=
  { Scope.root with args := .ofPairs [(name, ⟨some text, .value, none⟩)] }

theorem binds_oneArgScope (name text : String) : Binds (oneArgScope name text) name text :=
  ⟨⟨some text, .value, none⟩, Dict.get?_insert_self .., rfl⟩

/-- A sign, a zero in front and blanks. -/
theorem splice_number_signed :
    let scope := oneArgScope "n" " -07 "
    let look : Lookups := ⟨fun _ => none, fun _ => none⟩
    outcome (evaluate scope look ("$(eval $(arg " ++ "n" ++ "))")) .empty = (.ok "-7", .empty) ∧
      outcome (evaluate scope look ("$(eval " ++ "n" ++ ")")) .empty = (.ok "-7", .empty) := by
  intro scope look
  have hvalue : Value.ofText " -07 " = .int (-7) := rfl
  have hsize : ¬Expr.IsOversized " -07 " := by
    rintro ⟨n, hn, hlarge⟩
    obtain rfl : -7 = n := Option.some.inj (hn.symm.trans rfl).symm
    exact absurd hlarge (by decide)
  have hname : IsVariable "n" :=
    ⟨⟨'n', [], rfl, by decide, List.forall_mem_nil _⟩, by decide, by decide, by decide⟩
  have h := (splice_number (hvalue ▸ .int (-7)) hsize).2 scope look .empty "n" hname
    (binds_oneArgScope _ _)
  rw [hvalue] at h
  exact h

/-- **Digits beyond the words differ**: they are refused where they are spliced, and give the text
of the nearest float where they are named. -/
theorem splice_oversized (hsize : Expr.IsOversized text) (hname : IsVariable name)
    (hbound : Binds scope name text) :
    (∃ place digits,
      outcome (evaluate scope look ("$(eval $(arg " ++ name ++ "))")) registry =
        (.error (.eval (.invalid place (.integerOutOfRange digits))), registry)) ∧
      outcome (evaluate scope look ("$(eval " ++ name ++ ")")) registry =
        (.ok (Value.ofText text).text, registry) := by
  refine ⟨?_, outcome_named hname hbound⟩
  obtain ⟨place, digits, hvalue⟩ := Expr.evaluate_oversized hsize (bindings scope look) registry
  refine ⟨place, digits, ?_⟩
  rw [spliced_eq]
  exact outcome_evaluate_eval (parse_eval_argDirective hname.isIdentifier)
    (outcome_resolveAll_arg hbound) hvalue

/-- A name with two underscores in a row may be spliced and not be named. -/
theorem splice_underscores (look : Lookups) :
    outcome (evaluate (oneArgScope "a__b" "1") look ("$(eval $(arg " ++ "a__b" ++ "))")) .empty =
      (.ok "1", .empty) ∧
    outcome (evaluate (oneArgScope "a__b" "1") look ("$(eval " ++ "a__b" ++ ")")) .empty =
      (.error (.eval (.doubleUnderscore "a__b")), .empty) := by
  have hname : IsIdentifier "a__b" :=
    ⟨'a', ['_', '_', 'b'], rfl, by decide, by simp [Expr.isIdentRest, Text.isAlphanumeric]⟩
  have hvalue : outcome (Expr.evaluate (bindings (oneArgScope "a__b" "1") look) "1") .empty =
      (.ok (.int 1), .empty) := by
    rw [Expr.evaluate, Expr.parse, Expr.tokenize_eq_turns]
    rfl
  have hunderscores : outcome (Expr.evaluate (bindings (oneArgScope "a__b" "1") look) "a__b")
      .empty = (.error (.doubleUnderscore "a__b"), .empty) := by
    rw [Expr.evaluate, Expr.parse, if_pos (by decide)]
    rfl
  constructor
  · rw [spliced_eq]
    exact outcome_evaluate_eval (parse_eval_argDirective hname)
      (outcome_resolveAll_arg (binds_oneArgScope "a__b" "1")) hvalue
  · exact outcome_evaluate_eval (parse_eval_identifier hname) rfl hunderscores

/-- The first number beyond the words. -/
theorem isOversized_two_pow : Expr.IsOversized "9223372036854775808" :=
  ⟨9223372036854775808, rfl, by decide⟩

/-- Spliced and named, the first number beyond the words and an argument with two underscores in its
name differ. -/
theorem spliced_ne_named :
    let look : Lookups := ⟨fun _ => none, fun _ => none⟩
    (Value.ofText "9223372036854775808").IsNumber ∧
    (∃ place digits, outcome (evaluate (oneArgScope "n" "9223372036854775808") look
        ("$(eval $(arg " ++ "n" ++ "))")) .empty =
      (.error (.eval (.invalid place (.integerOutOfRange digits))), .empty)) ∧
    outcome (evaluate (oneArgScope "n" "9223372036854775808") look
        ("$(eval " ++ "n" ++ ")")) .empty =
      (.ok (Value.ofText "9223372036854775808").text, .empty) ∧
    outcome (evaluate (oneArgScope "a__b" "1") look
        ("$(eval $(arg " ++ "a__b" ++ "))")) .empty = (.ok "1", .empty) ∧
    outcome (evaluate (oneArgScope "a__b" "1") look
        ("$(eval " ++ "a__b" ++ ")")) .empty =
      (.error (.eval (.doubleUnderscore "a__b")), .empty) := by
  intro look
  have hname : IsVariable "n" :=
    ⟨⟨'n', [], rfl, by decide, List.forall_mem_nil _⟩, by decide, by decide, by decide⟩
  obtain ⟨hspliced, hnamed⟩ :=
    splice_oversized isOversized_two_pow hname (binds_oneArgScope "n" "9223372036854775808")
  exact ⟨Expr.isNumber_of_isOversized isOversized_two_pow, hspliced, hnamed,
    splice_underscores _⟩

end LaunchFile.Segment
