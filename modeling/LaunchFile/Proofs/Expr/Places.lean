import LaunchFile.Proofs.Expr.Accepted

/-!
# Proofs/Expr/Places — the parser does not look at the places of tokens

Places of tokens matter to nothing but errors: each rule of the parser reads rows of the same kinds
as the same tree (`unplaced_nested`). There is one lemma for each way in which rules are put
together (`Parser.Unplaced`), and from them one for each rule.
-/

namespace LaunchFile.Expr

/-! ## Ways to put parsers together -/

/-- What a parser reads off a row, it reads off every row of the same kinds. -/
def Parser.Unplaced {α : Type} (p : Parser α) : Prop :=
  ∀ ⦃tokens tokens' a rest⦄, kinds tokens' = kinds tokens → p tokens = .ok (a, rest) →
    ∃ rest', p tokens' = .ok (a, rest') ∧ kinds rest' = kinds rest

/-- What is seen of a row alone is what is seen of its kinds. -/
def SeesKinds {γ : Type} (view : List Token → γ) : Prop :=
  ∀ ⦃tokens tokens'⦄, kinds tokens' = kinds tokens → view tokens' = view tokens

/-- The next kind is a matter of the kinds. -/
theorem seesKinds_peek : SeesKinds peek := fun tokens tokens' h => by
  cases tokens with
  | nil => rw [List.map_eq_nil_iff.1 h]
  | cons token tokens =>
    obtain ⟨token', rest', rfl, hkind, -⟩ := List.map_eq_cons_iff.1 h
    exact hkind

/-- So is whether it is a keyword. -/
theorem seesKinds_isKeyword (word : String) : SeesKinds (isKeyword word) := fun _ _ h => by
  rw [isKeyword, isKeyword, seesKinds_peek h]

/-- And so is how many tokens there are. -/
theorem seesKinds_length : SeesKinds List.length := fun _ _ h => by
  simpa using congrArg List.length h

namespace Parser.Unplaced

variable {α β γ : Type} {p : Parser α}

/-- A result that is there is no matter of places. -/
theorem result (a : α) : Unplaced fun tokens => .ok (a, tokens) := fun _ tokens' _ _ h hrun => by
  cases hrun
  exact ⟨tokens', rfl, h⟩

/-- A failure has no result. -/
theorem fail (fault : SyntaxFault) : Unplaced (α := α) (failAt · fault) := nofun

/-- The first token may be left out. -/
theorem tail (h : Unplaced p) : Unplaced (p ·.tail) := fun _ _ _ _ hkinds hrun =>
  h (by simpa only [kinds, List.map_tail] using congrArg List.tail hkinds) hrun

/-- A check of what was read follows it. -/
theorem andThen {f : α × List Token → Except EvalError (β × List Token)} (h : Unplaced p)
    (hf : ∀ a, Unplaced fun rest => f (a, rest)) : Unplaced fun tokens => p tokens >>= f := by
  intro tokens tokens' b rest hkinds hrun
  obtain ⟨⟨a, behind⟩, hfirst, hrun⟩ := Except.bind_eq_ok hrun
  obtain ⟨behind', hfirst', hbehind⟩ := h hkinds hfirst
  obtain ⟨rest', hrun', hrest⟩ := hf a hbehind hrun
  exact ⟨rest', (congrArg (· >>= _) hfirst').trans hrun', hrest⟩

/-- Parsers in sequence read kinds alone if each of them does. -/
theorem bind {k : α → Parser β} (h : Unplaced p) (hk : ∀ a, Unplaced (k a)) :
    Unplaced fun tokens => p tokens >>= fun found => k found.1 found.2 :=
  h.andThen hk

/-- A parser that does something else for each thing that it may see first. -/
theorem see {view : List Token → γ} (hview : SeesKinds view)
    (h : ∀ seen, ∃ q : Parser α, q.Unplaced ∧ ∀ tokens, view tokens = seen → p tokens = q tokens) :
    p.Unplaced := fun tokens tokens' _ _ hkinds hrun => by
  obtain ⟨q, hq, hsame⟩ := h (view tokens)
  rw [hsame tokens rfl] at hrun
  rw [hsame tokens' (hview hkinds)]
  exact hq hkinds hrun

/-- A parser that is told how many tokens there are. -/
theorem count {f : Nat → Parser α} (h : ∀ length, Unplaced (f length)) :
    Unplaced fun tokens => f tokens.length tokens :=
  see seesKinds_length fun length => ⟨f length, h length, fun _ hlength => by rw [hlength]⟩

end Parser.Unplaced

/-! ## Rules -/

section

open Parser.Unplaced

variable {α : Type} {operand : Parser Tree}

theorem unplaced_closeParen (fault : SyntaxFault) (a : α) : Parser.Unplaced fun tokens =>
    closeParen fault tokens >>= fun rest => .ok (a, rest) := by
  refine see seesKinds_peek fun kind => ?_
  cases kind with
  | rightParen => exact ⟨_, (result a).tail, fun _ hpeek => by rw [closeParen, hpeek]; rfl⟩
  | _ => exact ⟨_, fail fault, fun _ hpeek => by rw [closeParen, hpeek]; rfl⟩

/-- A loop of left operands looks at kinds; the induction is on its turns. -/
theorem unplaced_chainOnto (op? : TokenKind → Option BinaryOp) (h : operand.Unplaced) :
    ∀ turns left, (chainOnto op? operand turns left).Unplaced
  | 0, left => result left
  | turns + 1, left => by
    refine see seesKinds_peek fun kind => ?_
    cases hop : op? kind with
    | none =>
      exact ⟨_, result left, fun _ hpeek => by rw [chainOnto, hpeek, hop]⟩
    | some op =>
      have hrest := h.tail.bind fun right => unplaced_chainOnto op? h turns (.binary op left right)
      exact ⟨_, hrest, fun _ hpeek => by rw [chainOnto, hpeek, hop]⟩

theorem unplaced_chain (op? : TokenKind → Option BinaryOp) (h : operand.Unplaced) :
    (chain op? operand).Unplaced :=
  h.bind fun first => count fun turns => unplaced_chainOnto op? h turns first

/-- So does a loop of links. -/
theorem unplaced_comparisons (h : operand.Unplaced) : ∀ turns, (comparisons operand turns).Unplaced
  | 0 => result []
  | turns + 1 => by
    refine see seesKinds_peek fun kind => ?_
    cases hop : compareOp? kind with
    | none => exact ⟨_, result [], fun _ hpeek => by rw [comparisons, hpeek, hop]⟩
    | some op =>
      have hrest := h.tail.bind fun right =>
        (unplaced_comparisons h turns).bind fun rest => result ((op, right) :: rest)
      exact ⟨_, hrest, fun _ hpeek => by rw [comparisons, hpeek, hop]⟩

/-- And a loop of arguments. -/
theorem unplaced_arguments (h : operand.Unplaced) : ∀ turns, (arguments operand turns).Unplaced
  | 0 => result []
  | turns + 1 => h.andThen fun arg => by
    dsimp only
    refine see seesKinds_peek fun kind => ?_
    cases kind with
    | comma =>
      have hrest := (unplaced_arguments h turns).tail.bind fun args => result (arg :: args)
      exact ⟨_, hrest, fun _ hpeek => by rw [hpeek]⟩
    | _ => exact ⟨_, result [arg], fun _ hpeek => by rw [hpeek]⟩

variable {below : Rule → Parser Tree} (h : ∀ rule, (below rule).Unplaced)

include h

/-- An atom is read off its kinds, parentheses included. -/
theorem unplaced_atom : (atom below).Unplaced := by
  refine see seesKinds_peek fun kind => ?_
  have literal (v : Value) := (result (Tree.literal v)).tail
  cases kind with
  | int n => exact ⟨_, literal (.int n), fun _ hpeek => by rw [atom, hpeek]⟩
  | float x => exact ⟨_, literal (.float x), fun _ hpeek => by rw [atom, hpeek]⟩
  | str s => exact ⟨_, literal (.str s), fun _ hpeek => by rw [atom, hpeek]⟩
  | ident name =>
    refine ⟨fun tokens =>
      if name == "True" || name == "true" then .ok (.literal (.bool true), tokens.tail)
      else if name == "False" || name == "false" then .ok (.literal (.bool false), tokens.tail)
      else if isReserved name then failAt tokens (.keyword name)
      else .ok (.name name, tokens.tail), ?_, fun _ hpeek => by rw [atom, hpeek]⟩
    split_ifs
    · exact literal (.bool true)
    · exact literal (.bool false)
    · exact fail (.keyword name)
    · exact (result (Tree.name name)).tail
  | leftParen =>
    have hinner := (h .expression).tail.bind fun inner => unplaced_closeParen .unclosedParen inner
    exact ⟨_, hinner, fun _ hpeek => by rw [atom, hpeek]⟩
  | _ => exact ⟨_, fail _, fun _ hpeek => by rw [atom, hpeek]⟩

theorem unplaced_callArguments : (callArguments below).Unplaced := by
  refine see seesKinds_peek fun kind => ?_
  have hclosed (args : List Tree) := unplaced_closeParen .unclosedCall args
  cases kind with
  | rightParen => exact ⟨_, (result []).bind hclosed, fun _ hpeek => by rw [callArguments, hpeek]⟩
  | _ =>
    have hargs := count fun turns => unplaced_arguments (h .expression) (turns + 1)
    exact ⟨_, hargs.bind hclosed, fun _ hpeek => by rw [callArguments, hpeek]⟩

/-- A call is read off its kinds. -/
theorem unplaced_call : (call below).Unplaced := (unplaced_atom h).andThen fun head => by
  dsimp only
  refine see seesKinds_peek fun kind => ?_
  by_cases hcall : (∃ function, head = .name function) ∧ kind = .leftParen
  · obtain ⟨⟨function, rfl⟩, rfl⟩ := hcall
    have hargs := (unplaced_callArguments h).tail.bind fun args => result (Tree.call function args)
    exact ⟨_, hargs, fun _ hpeek => by rw [hpeek]⟩
  · refine ⟨_, result head, fun tokens hpeek => ?_⟩
    rw [hpeek]
    split
    · exact absurd ⟨⟨_, rfl⟩, rfl⟩ hcall
    · rfl

/-- A power is read off its kinds. -/
theorem unplaced_power : (power below).Unplaced := (unplaced_call h).andThen fun base => by
  dsimp only
  refine see seesKinds_peek fun kind => ?_
  cases kind with
  | doubleStar =>
    have hpower := (h .unary).tail.bind fun exponent => result (Tree.binary .pow base exponent)
    exact ⟨_, hpower, fun _ hpeek => by rw [hpeek]⟩
  | _ => exact ⟨_, result base, fun _ hpeek => by rw [hpeek]⟩

theorem unplaced_unary : (unary below).Unplaced := by
  refine see seesKinds_peek fun kind => ?_
  cases hop : signOp? kind with
  | some op =>
    have hsigned := (h .unary).tail.bind fun operand => result (Tree.unary op operand)
    exact ⟨_, hsigned, fun _ hpeek => by rw [unary, hpeek, hop]⟩
  | none => exact ⟨_, unplaced_power h, fun _ hpeek => by rw [unary, hpeek, hop]⟩

theorem unplaced_sum : (sum below).Unplaced :=
  unplaced_chain sumOp? (unplaced_chain termOp? (unplaced_unary h))

theorem unplaced_comparison : (comparison below).Unplaced :=
  (unplaced_sum h).bind fun first =>
    (count fun turns => unplaced_comparisons (unplaced_sum h) turns).bind fun rest =>
      result (if rest.isEmpty then first else .compare first rest)

theorem unplaced_negation : (negation below).Unplaced := by
  refine see (seesKinds_isKeyword "not") fun isNot => ?_
  cases isNot with
  | true =>
    have hnot := (h .negation).tail.bind fun operand => result (Tree.unary .not operand)
    exact ⟨_, hnot, fun _ hword => by rw [negation, if_pos hword]⟩
  | false =>
    exact ⟨_, unplaced_comparison h, fun _ hword => by rw [negation, hword, if_neg nofun]⟩

theorem unplaced_disjunction : (disjunction below).Unplaced :=
  unplaced_chain disjunctionOp? (unplaced_chain conjunctionOp? (unplaced_negation h))

/-- What stands behind the `else` of a conditional, or is missing. -/
theorem unplaced_otherwise (condition value : Tree) : Parser.Unplaced fun tokens =>
    if isKeyword "else" tokens then do
      let (otherwise, tokens) ← below .expression tokens.tail
      .ok (Tree.conditional condition value otherwise, tokens)
    else failAt tokens .missingElse := by
  refine see (seesKinds_isKeyword "else") fun isElse => ?_
  cases isElse with
  | true =>
    have helse := (h .expression).tail.bind fun otherwise =>
      result (Tree.conditional condition value otherwise)
    exact ⟨_, helse, fun _ hword => by rw [if_pos hword]⟩
  | false => exact ⟨_, fail .missingElse, fun _ hword => by rw [hword, if_neg nofun]⟩

/-- A conditional is read off its kinds. -/
theorem unplaced_conditional : (conditional below).Unplaced :=
  (unplaced_disjunction h).andThen fun value => by
    dsimp only
    refine see (seesKinds_isKeyword "if") fun isIf => ?_
    cases isIf with
    | true =>
      have hif := (unplaced_disjunction h).tail.bind fun condition =>
        unplaced_otherwise h condition value
      exact ⟨_, hif, fun _ hword => by rw [if_pos hword]⟩
    | false => exact ⟨_, result value, fun _ hword => by rw [hword, if_neg nofun]⟩

omit h

/-- **No rule looks at the places of tokens.** -/
theorem unplaced_nested : ∀ depth rule, (nested depth rule).Unplaced
  | 0, _ => fail .tooDeep
  | depth + 1, .expression => unplaced_conditional (unplaced_nested depth)
  | depth + 1, .negation => unplaced_negation (unplaced_nested depth)
  | depth + 1, .unary => unplaced_unary (unplaced_nested depth)

end

/-- **Rows of the same kinds are the same expression.** -/
theorem parseTokens_congr {tokens tokens' : List Token} {tree : Tree}
    (hkinds : kinds tokens' = kinds tokens) (hparse : parseTokens tokens = .ok tree) :
    parseTokens tokens' = .ok tree := by
  obtain ⟨rest, hrun, hpeek⟩ := peek_eq_stop_of_parseTokens hparse
  obtain ⟨rest', hrun', hrest⟩ := unplaced_nested maxDepth .expression hkinds hrun
  rw [← seesKinds_peek hrest] at hpeek
  simp only [parseTokens, hrun', hpeek, bind, Except.bind]

end LaunchFile.Expr
