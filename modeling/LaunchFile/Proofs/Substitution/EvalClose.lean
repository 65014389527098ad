import LaunchFile.Proofs.Expr.Accepted
import LaunchFile.Proofs.Substitution.Written

/-!
# Proofs/Substitution/EvalClose — where an expression ends

The end of `$(eval …)` is found without the lexer of expressions, by counting parentheses outside of
quotes. It is found behind the whole expression when no literal escapes the quote that it stands in
(`parse_eval`): the two scanners then agree on every lexeme (`scans_passes`), and the parentheses of
an expression are balanced. An escaped quote closes the literal for this scanner, and does not for
the lexer.
-/

namespace LaunchFile.Segment

/-! ## Passing over characters -/

/-- The scanner for the end passes over the characters, from one count of open parentheses and one
open quote to others. -/
def Passes (depth : Nat) (quote : Option Char) (cs : List Char) (depth' : Nat)
    (quote' : Option Char) : Prop :=
  ∀ behind, evalBody? depth quote (cs ++ behind) =
    (evalBody? depth' quote' behind).map fun (taken, rest) => (cs ++ taken, rest)

section

variable {depth depth' between : Nat} {quote quote' middle : Option Char}

theorem passes_nil : Passes depth quote [] depth quote := fun behind => by
  cases h : evalBody? depth quote behind <;> simp [h]

/-- What is passed part by part is passed. -/
theorem Passes.append {cs ds : List Char} (hcs : Passes depth quote cs between middle)
    (hds : Passes between middle ds depth' quote') : Passes depth quote (cs ++ ds) depth' quote' :=
  fun behind => by
    rw [List.append_assoc, hcs, hds, Option.map_map]
    congr 1
    funext found
    simp

/-- What is passed behind one character is passed. -/
theorem Passes.cons {c : Char} {cs : List Char} (hc : Passes depth quote [c] between middle)
    (hcs : Passes between middle cs depth' quote') : Passes depth quote (c :: cs) depth' quote' :=
  hc.append hcs

/-- A character without a meaning is passed. -/
theorem passes_plain {c : Char} (hc : Expr.IsPlain c) : Passes depth none [c] depth none :=
  fun behind => by
    simp only [Expr.IsPlain, Expr.marks, List.mem_cons, List.not_mem_nil, or_false, not_or] at hc
    simp [evalBody?, hc]

/-- An opening parenthesis is one level more. -/
theorem passes_opening : Passes depth none ['('] (depth + 1) none := fun behind => by
  simp [evalBody?]

/-- A closing parenthesis is one level less. -/
theorem passes_closing : Passes (depth + 1) none [')'] depth none := fun behind => by
  simp [evalBody?]

/-- A quote begins a text in quotes. -/
theorem passes_quote {q : Char} (hq : q ∈ ['\'', '"']) : Passes depth none [q] depth (some q) :=
  fun behind => by
    simp only [List.mem_cons, List.not_mem_nil, or_false] at hq
    simp [evalBody?, hq]

/-- In quotes, any other character is passed. -/
theorem passes_quoted {q c : Char} (hc : c ≠ q) : Passes depth (some q) [c] depth (some q) :=
  fun behind => by simp [evalBody?, hc]

/-- The same quote ends the text. -/
theorem passes_unquote (q : Char) : Passes depth (some q) [q] depth none := fun behind => by
  simp [evalBody?]

/-- Characters that are passed one by one are passed together. -/
theorem passes_all {cs : List Char} (h : ∀ c ∈ cs, Passes depth quote [c] depth quote) :
    Passes depth quote cs depth quote := by
  induction cs with
  | nil => exact passes_nil
  | cons c cs ih =>
    obtain ⟨hc, hcs⟩ := List.forall_mem_cons.1 h
    exact hc.cons (ih hcs)

end

/-! ## Literals -/

/-- No literal of a source escapes the quote that it stands in; the argument is the quote that is
open. -/
def noQuoteEscaped : Option Char → List Char → Bool
  | _, [] => true
  | none, c :: cs => noQuoteEscaped (if c == '\'' || c == '"' then some c else none) cs
  | some q, '\\' :: c :: cs => c != q && noQuoteEscaped (some q) cs
  | some q, c :: cs => noQuoteEscaped (if c == q then none else some q) cs

/-- A literal that does not escape its quote ends at the next one. -/
theorem scanString?_closes {q : Char} (hq : q ∈ ['\'', '"']) {cs value : List Char} {length : Nat}
    (h : Expr.scanString? q cs = some (value, length))
    (hquotes : noQuoteEscaped (some q) cs = true) :
    ∃ body, cs = body ++ q :: cs.drop length ∧ q ∉ body ∧
      noQuoteEscaped none (cs.drop length) = true := by
  have hslash : q ≠ '\\' := fun heq => absurd (heq ▸ hq) (by decide)
  fun_induction Expr.scanString? q cs generalizing value length with
  | case1 => cases h
  | case2 => cases h
  | case3 c cs ih =>
    obtain ⟨⟨others, shorter⟩, hrest, heq⟩ := Option.map_eq_some_iff.1 h
    cases heq
    rw [noQuoteEscaped, Bool.and_eq_true, bne_iff_ne] at hquotes
    obtain ⟨body, hcs, hbody, hbehind⟩ := ih hrest hquotes.2
    refine ⟨'\\' :: c :: body, ?_, by simp [hbody, hslash, hquotes.1.symm], hbehind⟩
    rw [List.drop_succ_cons, List.drop_succ_cons]
    conv => lhs; rw [hcs]
    rfl
  | case4 c cs _ _ hc =>
    cases h
    obtain rfl : c = q := eq_of_beq hc
    rw [noQuoteEscaped, if_pos hc] at hquotes
    · exact ⟨[], rfl, List.not_mem_nil, hquotes⟩
    · assumption
  | case5 c cs _ _ hc ih =>
    obtain ⟨⟨others, shorter⟩, hrest, heq⟩ := Option.map_eq_some_iff.1 h
    cases heq
    rw [noQuoteEscaped, if_neg hc] at hquotes
    · obtain ⟨body, hcs, hbody, hbehind⟩ := ih hrest hquotes
      refine ⟨c :: body, ?_, ?_, hbehind⟩
      · rw [List.drop_succ_cons]
        conv => lhs; rw [hcs]
        rfl
      · simp [hbody, Ne.symm (by simpa using hc : c ≠ q)]
    · assumption

/-- Plain characters in front escape no quote. -/
theorem noQuoteEscaped_append {cs rest : List Char} (hcs : ∀ c ∈ cs, Expr.IsPlain c)
    (h : noQuoteEscaped none (cs ++ rest) = true) : noQuoteEscaped none rest = true := by
  induction cs with
  | nil => exact h
  | cons c cs ih =>
    obtain ⟨hc, hcs⟩ := List.forall_mem_cons.1 hcs
    simp only [Expr.IsPlain, Expr.marks, List.mem_cons, List.not_mem_nil, or_false, not_or] at hc
    rw [List.cons_append, noQuoteEscaped, if_neg (by simp [hc])] at h
    exact ih hcs h

/-! ## Expressions -/

/-- Both scanners agree on where a token ends. -/
theorem scans_passes {cs rest : List Char} {k : Expr.TokenKind} (h : Expr.Scans cs k rest)
    (hquotes : noQuoteEscaped none cs = true) : noQuoteEscaped none rest = true ∧
      ∃ lexeme, cs = lexeme ++ rest ∧ ∀ {depth depth' : Nat},
        Text.parenStep? Expr.TokenKind.opens Expr.TokenKind.closes depth k = some depth' →
        Passes depth none lexeme depth' none := by
  cases h with
  | opening =>
    refine ⟨hquotes, ['('], rfl, fun {depth depth'} hstep => ?_⟩
    cases (Text.parenStep?_opens rfl depth).symm.trans hstep
    exact passes_opening
  | closing =>
    refine ⟨hquotes, [')'], rfl, fun {depth depth'} hstep => ?_⟩
    cases depth with
    | zero => cases hstep
    | succ depth =>
      cases (Text.parenStep?_closes rfl rfl depth).symm.trans hstep
      exact passes_closing
  | @string quote cs _ _ hquote hscan =>
    have hopen : noQuoteEscaped (some quote) cs = true := by
      rw [noQuoteEscaped, if_pos (by simpa using hquote)] at hquotes
      exact hquotes
    obtain ⟨body, hcs, hbody, hrest⟩ := scanString?_closes hquote hscan hopen
    refine ⟨hrest, quote :: (body ++ [quote]), ?_, fun {depth depth'} hstep => ?_⟩
    · conv => lhs; rw [hcs]
      simp
    · cases (Text.parenStep?_other rfl rfl depth).symm.trans hstep
      have hinside : Passes depth (some quote) body depth (some quote) :=
        passes_all fun c hc => passes_quoted fun heq => hbody (heq ▸ hc)
      exact (passes_quote hquote).cons (hinside.append (passes_unquote quote))
  | plain hlexeme hk =>
    refine ⟨noQuoteEscaped_append hlexeme hquotes, _, rfl, fun {depth depth'} hstep => ?_⟩
    cases (Text.parenStep?_other hk.opens hk.closes depth).symm.trans hstep
    exact passes_all fun c hc => passes_plain (hlexeme c hc)

/-- The scanner for the end counts the parentheses among the tokens of a source. -/
theorem lexed_passes {cs : List Char} {ks : List Expr.TokenKind} (h : Expr.Lexed cs ks)
    (hquotes : noQuoteEscaped none cs = true) {depth depth' : Nat}
    (hparens : Text.parensAfter? Expr.TokenKind.opens Expr.TokenKind.closes depth ks =
      some depth') : Passes depth none cs depth' none := by
  -- Between two tokens no quote is open, so that only the count is carried along.
  induction h generalizing depth with
  | stop =>
    cases hparens
    exact passes_nil
  | @blank c cs ks hc _ ih =>
    have hplain : Expr.IsPlain c := Expr.isPlain_of (by decide) hc
    have hrest : noQuoteEscaped none cs = true :=
      noQuoteEscaped_append (List.forall_mem_singleton.2 hplain) hquotes
    exact (passes_plain hplain).cons (ih hrest hparens)
  | token _ hscan _ ih =>
    obtain ⟨hrest, lexeme, heq, hpasses⟩ := scans_passes hscan hquotes
    obtain ⟨between, hstep, hbehind⟩ := Option.bind_eq_some_iff.1 hparens
    rw [heq]
    exact (hpasses hstep).append (ih hrest hbehind)

/-- **The end of an expression is found behind it.** -/
theorem passes_of_parse {source : String} {tree : Expr.Tree}
    (hparse : Expr.parse source = .ok tree) (hquotes : noQuoteEscaped none source.toList = true) :
    Passes 0 none source.toList 0 none := by
  obtain ⟨tokens, hlex, hparse⟩ := Expr.exists_tokens_of_parse hparse
  have hbalanced := (Expr.derives_wrapped_of_parseTokens hlex hparse).balanced 0
  refine lexed_passes (Expr.lexed_of_tokenizeFrom hlex) hquotes ?_
  rw [(Expr.kinds_dropLast hlex).1, Text.parensAfter?_append hbalanced]
  rfl

/-- An expression has more than blanks. -/
theorem trimChars_ne_nil_of_parse {source : String} {tree : Expr.Tree}
    (hparse : Expr.parse source = .ok tree) : Text.trimChars source.toList ≠ [] := by
  obtain ⟨tokens, hlex, hparse⟩ := Expr.exists_tokens_of_parse hparse
  obtain ⟨hkinds, hstop⟩ := Expr.kinds_dropLast hlex
  have hne := (Expr.derives_wrapped_of_parseTokens hlex hparse).ne_nil
  obtain ⟨k, row, hrow⟩ := List.exists_cons_of_ne_nil hne
  have hlexed := Expr.lexed_of_tokenizeFrom hlex
  rw [hkinds, hrow] at hlexed
  have hk : k ≠ .stop := fun heq => hstop (hrow ▸ heq ▸ List.mem_cons_self)
  obtain ⟨c, hc, hnot⟩ := hlexed.exists_not_blank hk
  rcases Text.isBlank_or_mem_trimChars hc with hblank | hmem
  · rw [hnot] at hblank
    cases hblank
  · exact List.ne_nil_of_mem hmem

/-! ## The directive -/

/-- Without dollars nothing is doubled. -/
theorem escape_eq_self {cs : List Char} (h : '$' ∉ cs) : escape cs = cs := by
  induction cs with
  | nil => rfl
  | cons c cs ih =>
    simp only [List.mem_cons, not_or] at h
    rw [escape, List.flatMap_cons, if_neg (Ne.symm h.1), ← escape, ih h.2]
    rfl

/-- Text of an expression without dollars is one segment. -/
theorem segments_expression (whole : String) {cs : List Char} (hne : cs ≠ []) (hdollar : '$' ∉ cs) :
    segments whole true 0 [] cs = .ok [.text (String.ofList cs)] := by
  have hread : segments whole true 0 [] (escape cs ++ []) =
      segments whole true 0 (cs.reverse ++ []) [] :=
    segments_escape whole true [] (depthAfter?_true 0 cs)
  rw [List.append_nil, List.append_nil, escape_eq_self hdollar, segments] at hread
  rw [hread, prepend, List.isEmpty_reverse, if_neg (by simpa using hne), List.reverse_reverse]

/-- The content of a directive with an expression is cut off where the expression ends. -/
theorem cut_eval (whole : String) {cs : List Char} (hpasses : Passes 0 none cs 0 none)
    (hne : Text.trimChars cs ≠ []) (behind : List Char) :
    cut whole ("eval".toList ++ ' ' :: (cs ++ ')' :: behind)) =
      .ok (.eval (Text.trimChars cs) behind) := by
  have hword : Text.IsWord "eval".toList := by decide
  have hkind : ("eval".toList ++ ' ' :: (cs ++ ')' :: behind)).takeWhile
      (fun c => !(Text.isBlank c || c == ')')) = "eval".toList := by
    rw [List.takeWhile_append_of_pos (List.all_eq_true.1 (by decide)),
      List.takeWhile_cons_of_neg (by decide), List.append_nil]
  have hbody : evalBody? 0 none (' ' :: (cs ++ ')' :: behind)) = some (' ' :: cs, behind) := by
    have hblank : Passes 0 none (' ' :: cs) 0 none := (passes_plain (by decide)).cons hpasses
    rw [← List.cons_append, hblank, evalBody?]
    simp
  have htrim : Text.trimChars (' ' :: cs) = Text.trimChars cs := Text.trimChars_cons rfl cs
  unfold cut
  rw [Text.trimStartChars_append_of_isWord hword]
  simp only [hkind, List.drop_left, hbody, htrim]
  rw [if_pos (by decide), if_neg (by simpa using hne)]

/-- A directive with an expression is the one segment of its text. -/
theorem parse_of_passes {source : String} {parts : List Segment}
    (hpasses : Passes 0 none source.toList 0 none) (hne : Text.trimChars source.toList ≠ [])
    (hparts : segments ("$(eval " ++ source ++ ")") true 0 [] (Text.trimChars source.toList) =
      .ok parts) : parse ("$(eval " ++ source ++ ")") = .ok [.eval parts] := by
  have hcut := cut_eval ("$(eval " ++ source ++ ")") hpasses hne []
  have hsegment := congrArg (Except.map Segment.eval) hparts
  have hlist : ("$(eval " ++ source ++ ")").toList =
      '$' :: '(' :: ("eval".toList ++ ' ' :: (source.toList ++ [')'])) := by simp
  rw [parse, hlist, segments_of_cut hcut hsegment, Cut.rest, segments]
  rfl

/-- **An expression is read whole.** An accepted source in which no literal escapes its own quote is
the one part of its directive, blanks at its ends apart. -/
theorem parse_eval {source : String} {tree : Expr.Tree} (hparse : Expr.parse source = .ok tree)
    (hdollar : '$' ∉ source.toList) (hquotes : noQuoteEscaped none source.toList = true) :
    parse ("$(eval " ++ source ++ ")") = .ok [.eval [.text (Text.trim source)]] := by
  have hne := trimChars_ne_nil_of_parse hparse
  have hdollars : '$' ∉ Text.trimChars source.toList := fun hmem =>
    hdollar ((Text.trimChars_infix _).subset hmem)
  exact parse_of_passes (passes_of_parse hparse hquotes) hne
    (segments_expression ("$(eval " ++ source ++ ")") hne hdollars)

/-- Quotes of one kind in a literal of the other, parentheses in literals and a backslash at the end
of one. -/
theorem parse_eval_quotes : Expr.parse " f('it\"s (\\\\') " =
      .ok (.call "f" [.literal (.str "it\"s (\\")]) ∧
    parse ("$(eval " ++ " f('it\"s (\\\\') " ++ ")") =
      .ok [.eval [.text (Text.trim " f('it\"s (\\\\') ")]] := by
  have hlex : Expr.tokenize " f('it\"s (\\\\') " = .ok [⟨.ident "f", 1⟩, ⟨.leftParen, 2⟩,
      ⟨.str "it\"s (\\", 3⟩, ⟨.rightParen, 13⟩, ⟨.stop, 15⟩] :=
    (Expr.tokenize_eq_turns _).trans rfl
  have hparse : Expr.parse " f('it\"s (\\\\') " =
      .ok (.call "f" [.literal (.str "it\"s (\\")]) := by
    rw [Expr.parse, hlex]
    rfl
  exact ⟨hparse, parse_eval hparse (by decide) rfl⟩

/-- Behind an escaped quote the directive is not closed any more. -/
theorem parse_eval_escaped_quote : Expr.parse "'\\''" = .ok (.literal (.str "'")) ∧
    '$' ∉ "'\\''".toList ∧
    parse ("$(eval " ++ "'\\''" ++ ")") = .error (.invalid "$(eval '\\'')" .unclosedEval) := by
  refine ⟨?_, by decide, ?_⟩
  · rw [Expr.parse, Expr.tokenize_eq_turns]
    rfl
  · exact parse_of_cut_error rfl rfl

end LaunchFile.Segment
