import LaunchFile.Except
import LaunchFile.Proofs.Expr.Grammar

/-!
# Proofs/Expr/Sound — what the parser accepts is derived

Each rule takes a row of tokens off the front that its level of the grammar yields with the tree it
returns (`reads_nested`): one lemma for each rule, from what is known of the three rules below, and
then the induction on nesting.
-/

namespace LaunchFile.Expr

/-- The kinds of a row of tokens. -/
abbrev kinds (tokens : List Token) : List TokenKind :=
  tokens.map (·.kind)

/-- A parser reads a level when all that it takes off the tokens is derived at that level. -/
def Reads (parser : Parser Tree) (level : Level) : Prop :=
  ∀ ⦃tokens tree rest⦄, parser tokens = .ok (tree, rest) →
    ∃ taken, tokens = taken ++ rest ∧ Derives Callee.Wrapped level (kinds taken) tree

/-! ## Tokens and operators -/

/-- A kind that is not `stop` is that of a first token. -/
theorem exists_cons_of_peek {tokens : List Token} {k : TokenKind} (h : peek tokens = k)
    (hk : k ≠ .stop) : ∃ token, tokens = token :: tokens.tail ∧ token.kind = k := by
  cases tokens with
  | nil => exact absurd h.symm hk
  | cons token tokens => exact ⟨token, rfl, h⟩

/-- A keyword is seen where its word stands. -/
theorem peek_of_isKeyword {word : String} {tokens : List Token} (h : isKeyword word tokens = true) :
    peek tokens = .ident word := by
  unfold isKeyword at h
  split at h
  · rename_i name hname
    rw [hname, eq_of_beq h]
  · cases h

/-- The operators that the chain of a level takes. -/
def Level.op? : Level → TokenKind → Option BinaryOp
  | .disjunction => disjunctionOp?
  | .conjunction => conjunctionOp?
  | .sum => sumOp?
  | .term => termOp?
  | _ => fun _ => none

/-- The operators of a level are found by their tokens. -/
theorem Level.op?_eq_some_iff {level : Level} {k : TokenKind} {op : BinaryOp} :
    level.op? k = some op ↔ k = op.token ∧ op.level? = some level := by
  constructor
  · intro h
    cases level <;> simp only [op?, disjunctionOp?, conjunctionOp?, sumOp?, termOp?] at h <;>
      first | (split at h <;> cases h <;> exact ⟨rfl, rfl⟩) | cases h
  · rintro ⟨rfl, h⟩
    cases op <;> cases h <;> rfl

/-- Comparisons are found by their tokens. -/
theorem compareOp?_eq_some_iff {k : TokenKind} {op : CompareOp} :
    compareOp? k = some op ↔ k = op.token := by
  constructor
  · intro h
    unfold compareOp? at h
    split at h <;> cases h <;> rfl
  · rintro rfl
    cases op <;> rfl

/-- Signs are found by their tokens. -/
theorem signOp?_eq_some_iff {k : TokenKind} {op : UnaryOp} :
    signOp? k = some op ↔ k = op.token ∧ op.IsSign := by
  constructor
  · intro h
    unfold signOp? at h
    split at h <;> cases h <;> exact ⟨rfl, nofun⟩
  · rintro ⟨rfl, hsign⟩
    cases op with
    | not => exact absurd rfl hsign
    | _ => rfl

/-! ## Chains -/

section

variable {operand : Parser Tree} {level tight : Level}

/-- Operands joined onto a tree that the level yields already. -/
theorem reads_chainOnto (hlevel : level.tighter? = some tight) (h : Reads operand tight) :
    ∀ {turns : Nat} {before : List TokenKind} {left tree : Tree} {tokens rest : List Token},
      Derives Callee.Wrapped level before left →
      chainOnto level.op? operand turns left tokens = .ok (tree, rest) →
      ∃ taken, tokens = taken ++ rest ∧
        Derives Callee.Wrapped level (before ++ kinds taken) tree
  | 0, before, left, tree, tokens, rest, hleft, hrun => by
    cases hrun
    exact ⟨[], rfl, by simpa using hleft⟩
  | turns + 1, before, left, tree, tokens, rest, hleft, hrun => by
    rw [chainOnto] at hrun
    split at hrun
    · cases hrun
      exact ⟨[], rfl, by simpa using hleft⟩
    · rename_i op hop
      obtain ⟨⟨right, behind⟩, hright, hrun⟩ := Except.bind_eq_ok hrun
      obtain ⟨hpeek, hjoins⟩ := Level.op?_eq_some_iff.1 hop
      obtain ⟨token, htokens, hkind⟩ := exists_cons_of_peek hpeek op.isInner_token.ne_stop
      obtain ⟨operandTokens, htail, hderives⟩ := h hright
      have hjoined := Derives.join hjoins hlevel hleft hderives
      obtain ⟨taken, hbehind, htree⟩ := reads_chainOnto hlevel h hjoined hrun
      refine ⟨token :: operandTokens ++ taken, ?_, ?_⟩
      · rw [htokens, htail, hbehind]
        simp
      · simpa [hkind] using htree

/-- A chain is derived operand by operand. -/
theorem reads_chain (level : Level) (hlevel : level.tighter? = some tight)
    (h : Reads operand tight) : Reads (chain level.op? operand) level := by
  intro tokens tree rest hrun
  obtain ⟨⟨first, behind⟩, hfirst, hrun⟩ := Except.bind_eq_ok hrun
  obtain ⟨before, htokens, hderives⟩ := h hfirst
  obtain ⟨taken, hbehind, htree⟩ := reads_chainOnto hlevel h (.tighter hlevel hderives) hrun
  exact ⟨before ++ taken, by rw [htokens, hbehind, List.append_assoc], by simpa using htree⟩

/-- The links of a comparison are derived operand by operand. -/
theorem reads_comparisons (h : Reads operand .sum) :
    ∀ {turns : Nat} {tokens rest : List Token} {found : List (CompareOp × Tree)},
      comparisons operand turns tokens = .ok (found, rest) →
      ∃ taken, ∃ links : List (CompareOp × List TokenKind × Tree), tokens = taken ++ rest ∧
        kinds taken = chainTokens links ∧ (found = links.map fun link => (link.1, link.2.2)) ∧
        ∀ link ∈ links, Derives Callee.Wrapped .sum link.2.1 link.2.2
  | 0, tokens, rest, found, hrun => by
    cases hrun
    exact ⟨[], [], rfl, rfl, rfl, nofun⟩
  | turns + 1, tokens, rest, found, hrun => by
    rw [comparisons] at hrun
    split at hrun
    · cases hrun
      exact ⟨[], [], rfl, rfl, rfl, nofun⟩
    · rename_i op hop
      obtain ⟨⟨right, behind⟩, hright, hrun⟩ := Except.bind_eq_ok hrun
      obtain ⟨⟨others, last⟩, hothers, hrun⟩ := Except.bind_eq_ok hrun
      cases hrun
      obtain ⟨token, htokens, hkind⟩ :=
        exists_cons_of_peek (compareOp?_eq_some_iff.1 hop) op.isInner_token.ne_stop
      obtain ⟨operandTokens, htail, hderives⟩ := h hright
      obtain ⟨taken, links, hbehind, hkinds, hfound, hlinks⟩ := reads_comparisons h hothers
      refine ⟨token :: operandTokens ++ taken, (op, kinds operandTokens, right) :: links,
        ?_, ?_, ?_, List.forall_mem_cons.2 ⟨hderives, hlinks⟩⟩
      · rw [htokens, htail, hbehind]
        simp
      · rw [chainTokens_cons, ← hkinds, ← hkind]
        simp
      · rw [hfound, List.map_cons]

/-- Arguments are read to the end when there are more turns than tokens: each takes a token. -/
theorem reads_arguments {expression : Parser Tree} (h : Reads expression .expression) :
    ∀ {turns : Nat} {tokens rest : List Token} {found : List Tree}, tokens.length < turns →
      arguments expression turns tokens = .ok (found, rest) →
      ∃ taken arg, ∃ args : List (List TokenKind × Tree), tokens = taken ++ rest ∧
        kinds taken = argTokens (arg :: args) ∧ found = (arg :: args).map (·.2) ∧
        ∀ a ∈ arg :: args, Derives Callee.Wrapped .expression a.1 a.2
  | 0, tokens, rest, found, hturns, hrun => absurd hturns (Nat.not_lt_zero _)
  | turns + 1, tokens, rest, found, hturns, hrun => by
    obtain ⟨⟨first, behind⟩, hfirst, hrun⟩ := Except.bind_eq_ok hrun
    obtain ⟨firstTokens, htokens, hderives⟩ := h hfirst
    simp only at hrun
    split at hrun
    · rename_i hpeek
      obtain ⟨⟨others, last⟩, hothers, hrun⟩ := Except.bind_eq_ok hrun
      cases hrun
      obtain ⟨token, hbehind, hkind⟩ := exists_cons_of_peek hpeek nofun
      have hfewer : behind.tail.length < turns := by
        have := congrArg List.length htokens
        have := congrArg List.length hbehind
        simp only [List.length_append, List.length_cons] at *
        omega
      obtain ⟨taken, arg, args, htail, hkinds, hfound, hargs⟩ :=
        reads_arguments h hfewer hothers
      refine ⟨firstTokens ++ token :: taken, (kinds firstTokens, first), arg :: args, ?_, ?_, ?_,
        List.forall_mem_cons.2 ⟨hderives, hargs⟩⟩
      · rw [htokens, hbehind, htail]
        simp
      · rw [argTokens_cons_cons, ← hkinds, ← hkind]
        simp
      · rw [hfound]
        rfl
    · cases hrun
      refine ⟨firstTokens, (kinds firstTokens, first), [], htokens, ?_, rfl,
        List.forall_mem_cons.2 ⟨hderives, nofun⟩⟩
      rw [argTokens_singleton]

end

/-! ## Rules -/

/-- The rule that reads a level. -/
def Level.rule : Level → (Rule → Parser Tree) → Parser Tree
  | .expression => Expr.conditional
  | .disjunction => Expr.disjunction
  | .conjunction => Expr.conjunction
  | .negation => Expr.negation
  | .comparison => Expr.comparison
  | .sum => Expr.sum
  | .term => Expr.term
  | .unary => Expr.unary
  | .power => Expr.power
  | .call => Expr.call
  | .atom => Expr.atom

/-- The level of a rule that counts towards nesting. -/
def Rule.level : Rule → Level
  | .expression => .expression
  | .negation => .negation
  | .unary => .unary

section

variable {below : Rule → Parser Tree} (hbelow : ∀ rule, Reads (below rule) rule.level)

/-- A parenthesis that is closed is a token. -/
theorem closeParen_eq_ok {fault : SyntaxFault} {tokens rest : List Token}
    (h : closeParen fault tokens = .ok rest) :
    ∃ token, tokens = token :: rest ∧ token.kind = .rightParen := by
  unfold closeParen at h
  split at h
  · rename_i hpeek
    cases h
    exact exists_cons_of_peek hpeek nofun
  · cases h

include hbelow

/-- An atom is a token, or an expression in parentheses. -/
theorem reads_atom : Reads (atom below) .atom := by
  intro tokens tree rest hrun
  have literal {k : TokenKind} {value : Tree} (hpeek : peek tokens = k) (hk : k ≠ .stop)
      (hderives : Derives Callee.Wrapped .atom [k] value) : ∃ taken, tokens = taken ++ tokens.tail ∧
        Derives Callee.Wrapped .atom (kinds taken) value := by
    obtain ⟨token, htokens, hkind⟩ := exists_cons_of_peek hpeek hk
    exact ⟨[token], htokens, by simpa [hkind] using hderives⟩
  unfold atom at hrun
  split at hrun
  · rename_i n hpeek
    cases hrun
    exact literal hpeek nofun (.int n)
  · rename_i x hpeek
    cases hrun
    exact literal hpeek nofun (.float x)
  · rename_i s hpeek
    cases hrun
    exact literal hpeek nofun (.str s)
  · rename_i word hpeek
    split at hrun
    · rename_i hword
      cases hrun
      exact literal hpeek nofun (.bool (by simpa [boolSpellings] using hword))
    split at hrun
    · rename_i hword
      cases hrun
      exact literal hpeek nofun (.bool (by simpa [boolSpellings] using hword))
    split at hrun
    · cases hrun
    · rename_i htrue hfalse hreserved
      cases hrun
      refine literal hpeek nofun (.name ?_)
      simp only [isReserved, Bool.or_eq_true, beq_iff_eq] at htrue hfalse hreserved
      simp only [IsName, List.mem_cons, List.not_mem_nil]
      tauto
  · rename_i hpeek
    obtain ⟨⟨inner, behind⟩, hinner, hrun⟩ := Except.bind_eq_ok hrun
    obtain ⟨last, hclose, hrun⟩ := Except.bind_eq_ok hrun
    cases hrun
    obtain ⟨opening, htokens, hopening⟩ := exists_cons_of_peek hpeek nofun
    obtain ⟨taken, htail, hderives⟩ := hbelow .expression hinner
    obtain ⟨closing, hbehind, hclosing⟩ := closeParen_eq_ok hclose
    refine ⟨opening :: taken ++ [closing], ?_, ?_⟩
    · rw [htokens, htail, hbehind]
      simp
    · simpa [hopening, hclosing] using Derives.group hderives
  · cases hrun
  · cases hrun

/-- The arguments of a call, with the parenthesis that closes it. -/
theorem reads_callArguments {tokens rest : List Token} {found : List Tree}
    (hrun : callArguments below tokens = .ok (found, rest)) :
    ∃ taken, ∃ args : List (List TokenKind × Tree), tokens = taken ++ rest ∧
      kinds taken = argTokens args ++ [.rightParen] ∧ found = args.map (·.2) ∧
      ∀ arg ∈ args, Derives Callee.Wrapped .expression arg.1 arg.2 := by
  unfold callArguments at hrun
  split at hrun
  · obtain ⟨⟨args, behind⟩, hargs, hrun⟩ := Except.bind_eq_ok hrun
    obtain ⟨last, hclose, hrun⟩ := Except.bind_eq_ok hrun
    cases hrun
    cases hargs
    obtain ⟨closing, hbehind, hclosing⟩ := closeParen_eq_ok hclose
    exact ⟨[closing], [], hbehind, by simp [hclosing], rfl, nofun⟩
  · obtain ⟨⟨args, behind⟩, hargs, hrun⟩ := Except.bind_eq_ok hrun
    obtain ⟨last, hclose, hrun⟩ := Except.bind_eq_ok hrun
    cases hrun
    obtain ⟨taken, arg, rows, htokens, hkinds, hfound, hrows⟩ :=
      reads_arguments (hbelow .expression) (Nat.lt_succ_self _) hargs
    obtain ⟨closing, hbehind, hclosing⟩ := closeParen_eq_ok hclose
    refine ⟨taken ++ [closing], arg :: rows, ?_, ?_, hfound, hrows⟩
    · rw [htokens, hbehind]
      simp
    · rw [← hkinds, ← hclosing]
      simp

/-- A call has a callee that was read as an atom, hence a name in parentheses at most. -/
theorem reads_call : Reads (call below) .call := by
  intro tokens tree rest hrun
  obtain ⟨⟨head, behind⟩, hhead, hrun⟩ := Except.bind_eq_ok hrun
  obtain ⟨front, htokens, hderives⟩ := reads_atom hbelow hhead
  simp only at hrun
  split at hrun
  · rename_i function hpeek
    obtain ⟨⟨args, last⟩, hargs, hrun⟩ := Except.bind_eq_ok hrun
    cases hrun
    obtain ⟨opening, hbehind, hopening⟩ := exists_cons_of_peek hpeek nofun
    obtain ⟨taken, rows, htail, hkinds, rfl, hrows⟩ := reads_callArguments hbelow hargs
    refine ⟨front ++ opening :: taken, ?_, ?_⟩
    · rw [htokens, hbehind, htail]
      simp
    · have hcall := Derives.call hderives.wrapped_of_name hrows
      simpa [hopening, hkinds] using hcall
  · cases hrun
    exact ⟨front, htokens, .tighter rfl hderives⟩

/-- A power is derived from its base and its exponent. -/
theorem reads_power : Reads (power below) .power := by
  intro tokens tree rest hrun
  obtain ⟨⟨base, behind⟩, hbase, hrun⟩ := Except.bind_eq_ok hrun
  obtain ⟨front, htokens, hderives⟩ := reads_call hbelow hbase
  simp only at hrun
  split at hrun
  · rename_i hpeek
    obtain ⟨⟨exponent, last⟩, hexponent, hrun⟩ := Except.bind_eq_ok hrun
    cases hrun
    obtain ⟨token, hbehind, hkind⟩ := exists_cons_of_peek hpeek nofun
    obtain ⟨taken, htail, hpower⟩ := hbelow .unary hexponent
    refine ⟨front ++ token :: taken, ?_, ?_⟩
    · rw [htokens, hbehind, htail]
      simp
    · simpa [hkind] using Derives.power hderives hpower
  · cases hrun
    exact ⟨front, htokens, .tighter rfl hderives⟩

/-- A sign is derived from its operand. -/
theorem reads_unary : Reads (unary below) .unary := by
  intro tokens tree rest hrun
  unfold unary at hrun
  split at hrun
  · rename_i op hop
    obtain ⟨⟨operand, last⟩, hoperand, hrun⟩ := Except.bind_eq_ok hrun
    cases hrun
    obtain ⟨hpeek, hsign⟩ := signOp?_eq_some_iff.1 hop
    obtain ⟨token, htokens, hkind⟩ := exists_cons_of_peek hpeek op.isInner_token.ne_stop
    obtain ⟨taken, htail, hderives⟩ := hbelow .unary hoperand
    refine ⟨token :: taken, ?_, ?_⟩
    · rw [htokens, htail]
      simp
    · simpa [hkind] using Derives.sign hsign hderives
  · obtain ⟨taken, htokens, hderives⟩ := reads_power hbelow hrun
    exact ⟨taken, htokens, .tighter rfl hderives⟩

theorem reads_term : Reads (term below) .term :=
  reads_chain .term rfl (reads_unary hbelow)

theorem reads_sum : Reads (sum below) .sum :=
  reads_chain .sum rfl (reads_term hbelow)

theorem reads_comparison : Reads (comparison below) .comparison := by
  intro tokens tree rest hrun
  obtain ⟨⟨first, behind⟩, hfirst, hrun⟩ := Except.bind_eq_ok hrun
  obtain ⟨⟨found, last⟩, hfound, hrun⟩ := Except.bind_eq_ok hrun
  cases hrun
  obtain ⟨front, htokens, hderives⟩ := reads_sum hbelow hfirst
  obtain ⟨taken, links, hbehind, hkinds, rfl, hlinks⟩ :=
    reads_comparisons (reads_sum hbelow) hfound
  refine ⟨front ++ taken, by rw [htokens, hbehind, List.append_assoc], ?_⟩
  rw [kinds, List.map_append, ← kinds, ← kinds, hkinds]
  cases links with
  | nil => simpa [chainTokens] using Derives.tighter rfl hderives
  | cons link links => exact .compare hderives (List.cons_ne_nil _ _) hlinks

/-- A negation is derived from its operand. -/
theorem reads_negation : Reads (negation below) .negation := by
  intro tokens tree rest hrun
  unfold negation at hrun
  split at hrun
  · rename_i hnot
    obtain ⟨⟨operand, last⟩, hoperand, hrun⟩ := Except.bind_eq_ok hrun
    cases hrun
    obtain ⟨token, htokens, hkind⟩ := exists_cons_of_peek (peek_of_isKeyword hnot) nofun
    obtain ⟨taken, htail, hderives⟩ := hbelow .negation hoperand
    refine ⟨token :: taken, ?_, ?_⟩
    · rw [htokens, htail]
      simp
    · simpa [hkind] using Derives.not hderives
  · obtain ⟨taken, htokens, hderives⟩ := reads_comparison hbelow hrun
    exact ⟨taken, htokens, .tighter rfl hderives⟩

theorem reads_conjunction : Reads (conjunction below) .conjunction :=
  reads_chain .conjunction rfl (reads_negation hbelow)

theorem reads_disjunction : Reads (disjunction below) .disjunction :=
  reads_chain .disjunction rfl (reads_conjunction hbelow)

/-- A conditional is derived from its three parts. -/
theorem reads_conditional : Reads (conditional below) .expression := by
  intro tokens tree rest hrun
  obtain ⟨⟨value, behind⟩, hvalue, hrun⟩ := Except.bind_eq_ok hrun
  obtain ⟨front, htokens, hderives⟩ := reads_disjunction hbelow hvalue
  simp only at hrun
  split at hrun
  · rename_i hif
    obtain ⟨⟨condition, between⟩, hcondition, hrun⟩ := Except.bind_eq_ok hrun
    simp only at hrun
    split at hrun
    · rename_i helse
      obtain ⟨⟨otherwise, last⟩, hotherwise, hrun⟩ := Except.bind_eq_ok hrun
      cases hrun
      obtain ⟨ifToken, hbehind, hifKind⟩ := exists_cons_of_peek (peek_of_isKeyword hif) nofun
      obtain ⟨middle, hmiddle, hconditionTree⟩ := reads_disjunction hbelow hcondition
      obtain ⟨elseToken, hbetween, helseKind⟩ :=
        exists_cons_of_peek (peek_of_isKeyword helse) nofun
      obtain ⟨taken, htail, hotherwiseTree⟩ := hbelow .expression hotherwise
      refine ⟨front ++ ifToken :: middle ++ elseToken :: taken, ?_, ?_⟩
      · rw [htokens, hbehind, hmiddle, hbetween, htail]
        simp
      · simpa [hifKind, helseKind] using
          Derives.conditional hderives hconditionTree hotherwiseTree
    · cases hrun
  · cases hrun
    exact ⟨front, htokens, .tighter rfl hderives⟩

end

/-- **Every rule reads its level**, to every depth of nesting. -/
theorem reads_nested : ∀ (depth : Nat) (rule : Rule), Reads (nested depth rule) rule.level
  | 0, _ => fun _ _ _ hrun => nomatch hrun
  | depth + 1, .expression => reads_conditional (reads_nested depth)
  | depth + 1, .negation => reads_negation (reads_nested depth)
  | depth + 1, .unary => reads_unary (reads_nested depth)

end LaunchFile.Expr
