import LaunchFile.Proofs.Expr.Accepted
import LaunchFile.Proofs.Expr.RoundTrip
import LaunchFile.Proofs.Expr.Written

/-!
# Proofs/Expr/Height — how high the tree of a source may be

The bound on nesting counts the rules that call themselves. The loops that join operands to the left
count nothing, and each operator that they join makes the tree one higher. So a tree is no higher
than the bound on nesting times the length of its longest chain (`height_le_of_parse`), and there is
no bound for chains of any length (`parse_ones`).
-/

namespace LaunchFile.Expr

/-! ## Chains -/

/-- The operators of a level that follow one another down to the left. -/
def Tree.chainLength (level : Level) : Tree → Nat
  | .binary op l _ => if op.level? = some level then l.chainLength level + 1 else 0
  | _ => 0

/-- The operators of the chain that an operator ends, given its left operand. -/
def BinaryOp.chainLength (op : BinaryOp) (left : Tree) : Nat :=
  match op.level? with
  | some level => left.chainLength level + 1
  | none => 0

mutual

/-- The operators of the longest chain in a tree. -/
def Tree.longestChain : Tree → Nat
  | .literal _ | .name _ => 0
  | .unary _ t => t.longestChain
  | .binary op l r => max (op.chainLength l) (max l.longestChain r.longestChain)
  | .compare first rest => max first.longestChain (linksLongestChain rest)
  | .conditional c t e => max c.longestChain (max t.longestChain e.longestChain)
  | .call _ args => argsLongestChain args

/-- The longest chain in the operands of some links. -/
def linksLongestChain : List (CompareOp × Tree) → Nat
  | [] => 0
  | (_, t) :: rest => max t.longestChain (linksLongestChain rest)

/-- The longest chain in some arguments. -/
def argsLongestChain : List Tree → Nat
  | [] => 0
  | t :: rest => max t.longestChain (argsLongestChain rest)

end

/-- An operator makes a chain of its level longer by one. -/
theorem chainLength_binary {op : BinaryOp} {level : Level} (h : op.level? = some level)
    (l r : Tree) : (Tree.binary op l r).chainLength level = l.chainLength level + 1 :=
  if_pos h

theorem BinaryOp.chainLength_eq {op : BinaryOp} {level : Level} (h : op.level? = some level)
    (left : Tree) : op.chainLength left = left.chainLength level + 1 := by
  rw [BinaryOp.chainLength, h]

/-- A chain goes down the tree, step by step. -/
theorem chainLength_le_height (level : Level) : ∀ t : Tree, t.chainLength level ≤ t.height
  | .binary op l r => by
    have hleft := chainLength_le_height level l
    rw [Tree.chainLength, Tree.height]
    split <;> omega
  | .literal _ | .name _ | .unary _ _ | .compare _ _ | .conditional _ _ _ | .call _ _ =>
    Nat.zero_le _

mutual

/-- A chain is no longer than its tree is high. -/
theorem longestChain_le_height : ∀ t : Tree, t.longestChain ≤ t.height
  | .literal _ | .name _ => Nat.zero_le _
  | .unary _ t => by
    have := longestChain_le_height t
    rw [Tree.longestChain, Tree.height]
    omega
  | .binary op l r => by
    have hleft := longestChain_le_height l
    have hright := longestChain_le_height r
    have hchain : op.chainLength l ≤ l.height + 1 := by
      unfold BinaryOp.chainLength
      split
      · have := chainLength_le_height ‹_› l
        omega
      · exact Nat.zero_le _
    rw [Tree.longestChain, Tree.height]
    omega
  | .compare first rest => by
    have hfirst := longestChain_le_height first
    have hrest := linksLongestChain_le rest
    rw [Tree.longestChain, Tree.height]
    omega
  | .conditional c t e => by
    have hcondition := longestChain_le_height c
    have hvalue := longestChain_le_height t
    have hotherwise := longestChain_le_height e
    rw [Tree.longestChain, Tree.height]
    omega
  | .call _ args => by
    have hargs := argsLongestChain_le args
    rwa [Tree.longestChain, Tree.height]

theorem linksLongestChain_le : ∀ rest : List (CompareOp × Tree),
    linksLongestChain rest ≤ linksHeight rest
  | [] => Nat.zero_le _
  | (_, t) :: rest => by
    have hfirst := longestChain_le_height t
    have hrest := linksLongestChain_le rest
    rw [linksLongestChain, linksHeight]
    omega

theorem argsLongestChain_le : ∀ args : List Tree, argsLongestChain args ≤ argsHeight args
  | [] => Nat.zero_le _
  | t :: rest => by
    have hfirst := longestChain_le_height t
    have hrest := argsLongestChain_le rest
    rw [argsLongestChain, argsHeight]
    omega

end

/-! ## Chains of bounded length -/

/-- With no chain of more than `k` operators in it, the tree is no higher than `bound`. -/
def Tree.IsLow (k bound : Nat) (t : Tree) : Prop :=
  t.longestChain ≤ k → t.height ≤ bound

/-- All trees that a parser returns are low. -/
def Parser.ReadsLow (k bound : Nat) (parser : Parser Tree) : Prop :=
  ∀ ⦃tokens tree rest⦄, parser tokens = .ok (tree, rest) → tree.IsLow k bound

variable {k bound : Nat}

/-- With a higher bound a tree stays low. -/
theorem Tree.IsLow.mono {t : Tree} (h : t.IsLow k bound) {bound' : Nat} (hle : bound ≤ bound') :
    t.IsLow k bound' :=
  fun hk => (h hk).trans hle

theorem Parser.ReadsLow.mono {parser : Parser Tree} (h : parser.ReadsLow k bound) {bound' : Nat}
    (hle : bound ≤ bound') : parser.ReadsLow k bound' :=
  fun _ _ _ hrun => (h hrun).mono hle

theorem isLow_unary {t : Tree} (h : t.IsLow k bound) (op : UnaryOp) :
    (Tree.unary op t).IsLow k (bound + 1) := fun hk => by
  rw [Tree.longestChain] at hk
  rw [Tree.height]
  exact Nat.succ_le_succ (h hk)

/-- An operator is one step above the higher of its operands. -/
theorem isLow_binary {l r : Tree} (hl : l.IsLow k bound) (hr : r.IsLow k bound) (op : BinaryOp) :
    (Tree.binary op l r).IsLow k (bound + 1) := fun hk => by
  rw [Tree.longestChain] at hk
  have := hl (by omega)
  have := hr (by omega)
  rw [Tree.height]
  omega

theorem isLow_conditional {c t e : Tree} (hc : c.IsLow k bound) (ht : t.IsLow k bound)
    (he : e.IsLow k bound) : (Tree.conditional c t e).IsLow k (bound + 1) := fun hk => by
  rw [Tree.longestChain] at hk
  have := hc (by omega)
  have := ht (by omega)
  have := he (by omega)
  rw [Tree.height]
  omega

theorem linksHeight_le : ∀ {rest : List (CompareOp × Tree)},
    (∀ link ∈ rest, link.2.IsLow k bound) → linksLongestChain rest ≤ k →
    linksHeight rest ≤ bound + 1
  | [], _, _ => Nat.zero_le _
  | (_, t) :: rest, h, hk => by
    obtain ⟨hfirst, hothers⟩ := List.forall_mem_cons.1 h
    rw [linksLongestChain] at hk
    have hfirst : t.height ≤ bound := hfirst (show t.longestChain ≤ k by omega)
    have := linksHeight_le hothers (by omega)
    rw [linksHeight]
    omega

theorem argsHeight_le : ∀ {args : List Tree}, (∀ arg ∈ args, arg.IsLow k bound) →
    argsLongestChain args ≤ k → argsHeight args ≤ bound + 1
  | [], _, _ => Nat.zero_le _
  | t :: rest, h, hk => by
    obtain ⟨hfirst, hothers⟩ := List.forall_mem_cons.1 h
    rw [argsLongestChain] at hk
    have := hfirst (by omega)
    have := argsHeight_le hothers (by omega)
    rw [argsHeight]
    omega

/-! ## Loops

What a loop joins to the left adds the length of its chain, however long that is; chains of
comparisons and arguments lie side by side and add one. -/

section

variable {operand : Parser Tree} {level : Level}

/-- A tree grows by its chain alone while operands are joined onto it. -/
theorem low_of_chainOnto (h : operand.ReadsLow k bound) :
    ∀ {turns : Nat} {left tree : Tree} {tokens rest : List Token},
      left.IsLow k (bound + left.chainLength level) →
      chainOnto level.op? operand turns left tokens = .ok (tree, rest) →
      tree.IsLow k (bound + tree.chainLength level)
  | 0, left, tree, tokens, rest, hleft, hrun => by
    cases hrun
    exact hleft
  | turns + 1, left, tree, tokens, rest, hleft, hrun => by
    rw [chainOnto] at hrun
    split at hrun
    · cases hrun
      exact hleft
    · rename_i op hop
      obtain ⟨⟨right, behind⟩, hright, hrun⟩ := Except.bind_eq_ok hrun
      have hlevel := (Level.op?_eq_some_iff.1 hop).2
      refine low_of_chainOnto h (fun hk => ?_) hrun
      rw [Tree.longestChain] at hk
      have := hleft (by omega)
      have := h hright (by omega)
      rw [chainLength_binary hlevel, Tree.height]
      omega

/-- Each chain is at most the longest one. -/
theorem chainLength_le_longestChain (level : Level) (t : Tree) :
    t.chainLength level ≤ t.longestChain := by
  cases t with
  | binary op l r =>
    by_cases hop : op.level? = some level
    · rw [chainLength_binary hop, Tree.longestChain, BinaryOp.chainLength_eq hop]
      exact Nat.le_max_left _ _
    · rw [Tree.chainLength, if_neg hop]
      exact Nat.zero_le _
  | _ => exact Nat.zero_le _

/-- A chain of low operands is higher than these by its own length. -/
theorem readsLow_chain (level : Level) (h : operand.ReadsLow k bound) :
    (chain level.op? operand).ReadsLow k (bound + k) := by
  intro tokens tree rest hrun hk
  obtain ⟨⟨first, behind⟩, hfirst, hrun⟩ := Except.bind_eq_ok hrun
  have hlow : first.IsLow k (bound + first.chainLength level) :=
    (h hfirst).mono (Nat.le_add_right _ _)
  have hheight := low_of_chainOnto h hlow hrun hk
  have hchain := chainLength_le_longestChain level tree
  omega

/-- The operands of all links are low. -/
theorem low_of_comparisons (h : operand.ReadsLow k bound) :
    ∀ {turns : Nat} {tokens rest : List Token} {found : List (CompareOp × Tree)},
      comparisons operand turns tokens = .ok (found, rest) →
      ∀ link ∈ found, link.2.IsLow k bound
  | 0, tokens, rest, found, hrun => by
    cases hrun
    nofun
  | turns + 1, tokens, rest, found, hrun => by
    rw [comparisons] at hrun
    split at hrun
    · cases hrun
      nofun
    · obtain ⟨⟨right, behind⟩, hright, hrun⟩ := Except.bind_eq_ok hrun
      obtain ⟨⟨others, last⟩, hothers, hrun⟩ := Except.bind_eq_ok hrun
      cases hrun
      exact List.forall_mem_cons.2 ⟨h hright, low_of_comparisons h hothers⟩

/-- All arguments are low. -/
theorem low_of_arguments (h : operand.ReadsLow k bound) :
    ∀ {turns : Nat} {tokens rest : List Token} {found : List Tree},
      arguments operand turns tokens = .ok (found, rest) → ∀ arg ∈ found, arg.IsLow k bound
  | 0, tokens, rest, found, hrun => by
    cases hrun
    nofun
  | turns + 1, tokens, rest, found, hrun => by
    obtain ⟨⟨first, behind⟩, hfirst, hrun⟩ := Except.bind_eq_ok hrun
    simp only at hrun
    split at hrun
    · obtain ⟨⟨others, last⟩, hothers, hrun⟩ := Except.bind_eq_ok hrun
      cases hrun
      exact List.forall_mem_cons.2 ⟨h hfirst, low_of_arguments h hothers⟩
    · cases hrun
      exact List.forall_mem_singleton.2 (h hfirst)

end

/-! ## Rules -/

section

variable {below : Rule → Parser Tree} (hbelow : ∀ rule, (below rule).ReadsLow k bound)

include hbelow

/-- An atom is as low as what is inside of its parentheses. -/
theorem readsLow_atom : (atom below).ReadsLow k bound := by
  have leaf {tokens rest : List Token} {value tree : Tree} (hleaf : value.height = 0)
      (hrun : (.ok (value, tokens) : Except EvalError _) = .ok (tree, rest)) :
      tree.IsLow k bound := by
    cases hrun
    exact fun _ => hleaf ▸ Nat.zero_le _
  intro tokens tree rest hrun
  unfold atom at hrun
  split at hrun
  · exact leaf rfl hrun
  · exact leaf rfl hrun
  · exact leaf rfl hrun
  · split at hrun
    · exact leaf rfl hrun
    split at hrun
    · exact leaf rfl hrun
    split at hrun
    · cases hrun
    · exact leaf rfl hrun
  · obtain ⟨⟨inner, behind⟩, hinner, hrun⟩ := Except.bind_eq_ok hrun
    obtain ⟨last, _, hrun⟩ := Except.bind_eq_ok hrun
    cases hrun
    exact hbelow .expression hinner
  · cases hrun
  · cases hrun

theorem low_of_callArguments {tokens rest : List Token} {found : List Tree}
    (hrun : callArguments below tokens = .ok (found, rest)) : ∀ arg ∈ found, arg.IsLow k bound := by
  unfold callArguments at hrun
  split at hrun
  all_goals
    obtain ⟨⟨args, behind⟩, hargs, hrun⟩ := Except.bind_eq_ok hrun
    obtain ⟨last, _, hrun⟩ := Except.bind_eq_ok hrun
    cases hrun
  · cases hargs
    nofun
  · exact low_of_arguments (hbelow .expression) hargs

theorem readsLow_call : (call below).ReadsLow k (bound + 1) := by
  intro tokens tree rest hrun
  obtain ⟨⟨head, behind⟩, hhead, hrun⟩ := Except.bind_eq_ok hrun
  simp only at hrun
  split at hrun
  · obtain ⟨⟨args, last⟩, hargs, hrun⟩ := Except.bind_eq_ok hrun
    cases hrun
    intro hk
    rw [Tree.longestChain] at hk
    rw [Tree.height]
    exact argsHeight_le (low_of_callArguments hbelow hargs) hk
  · cases hrun
    exact (readsLow_atom hbelow hhead).mono (Nat.le_succ _)

/-- Calls and powers add a step each. -/
theorem readsLow_power : (power below).ReadsLow k (bound + 2) := by
  intro tokens tree rest hrun
  obtain ⟨⟨base, behind⟩, hbase, hrun⟩ := Except.bind_eq_ok hrun
  have hlow : base.IsLow k (bound + 1) := readsLow_call hbelow hbase
  simp only at hrun
  split at hrun
  · obtain ⟨⟨exponent, last⟩, hexponent, hrun⟩ := Except.bind_eq_ok hrun
    cases hrun
    have hupper : exponent.IsLow k (bound + 1) := (hbelow .unary hexponent).mono (Nat.le_succ _)
    exact isLow_binary hlow hupper .pow
  · cases hrun
    exact hlow.mono (Nat.le_succ _)

theorem readsLow_unary : (unary below).ReadsLow k (bound + 2) := by
  intro tokens tree rest hrun
  unfold unary at hrun
  split at hrun
  · obtain ⟨⟨operand, last⟩, hoperand, hrun⟩ := Except.bind_eq_ok hrun
    cases hrun
    exact (isLow_unary (hbelow .unary hoperand) _).mono (Nat.le_succ _)
  · exact readsLow_power hbelow hrun

/-- Sums and terms may add a chain each. -/
theorem readsLow_sum : (sum below).ReadsLow k (bound + 2 + k + k) :=
  readsLow_chain .sum (readsLow_chain .term (readsLow_unary hbelow))

theorem readsLow_comparison : (comparison below).ReadsLow k (bound + 2 + k + k + 1) := by
  intro tokens tree rest hrun
  obtain ⟨⟨first, behind⟩, hfirst, hrun⟩ := Except.bind_eq_ok hrun
  obtain ⟨⟨found, last⟩, hfound, hrun⟩ := Except.bind_eq_ok hrun
  have hlow := readsLow_sum hbelow hfirst
  cases hrun
  split
  · exact hlow.mono (Nat.le_succ _)
  · intro hk
    rw [Tree.longestChain] at hk
    have := hlow (by omega)
    have := linksHeight_le (low_of_comparisons (readsLow_sum hbelow) hfound) (by omega)
    rw [Tree.height]
    omega

theorem readsLow_negation : (negation below).ReadsLow k (bound + 2 + k + k + 1) := by
  intro tokens tree rest hrun
  unfold negation at hrun
  split at hrun
  · obtain ⟨⟨operand, last⟩, hoperand, hrun⟩ := Except.bind_eq_ok hrun
    cases hrun
    exact (isLow_unary (hbelow .negation hoperand) _).mono (by omega)
  · exact readsLow_comparison hbelow hrun

/-- So may disjunctions and conjunctions. -/
theorem readsLow_disjunction : (disjunction below).ReadsLow k (bound + 2 + k + k + 1 + k + k) :=
  readsLow_chain .disjunction (readsLow_chain .conjunction (readsLow_negation hbelow))

/-- **One more level of nesting** makes a tree four chains and four steps higher at most. -/
theorem readsLow_conditional : (conditional below).ReadsLow k (bound + 4 * (k + 1)) := by
  intro tokens tree rest hrun
  obtain ⟨⟨value, behind⟩, hvalue, hrun⟩ := Except.bind_eq_ok hrun
  have hlow := readsLow_disjunction hbelow hvalue
  simp only at hrun
  split at hrun
  · obtain ⟨⟨condition, between⟩, hcondition, hrun⟩ := Except.bind_eq_ok hrun
    simp only at hrun
    split at hrun
    · obtain ⟨⟨otherwise, last⟩, hotherwise, hrun⟩ := Except.bind_eq_ok hrun
      cases hrun
      have hbranch : otherwise.IsLow k (bound + 2 + k + k + 1 + k + k) :=
        (hbelow .expression hotherwise).mono (by omega)
      exact (isLow_conditional (readsLow_disjunction hbelow hcondition) hlow hbranch).mono
        (by omega)
    · cases hrun
  · cases hrun
    exact hlow.mono (by omega)

end

/-- **No rule returns a high tree without a long chain.** -/
theorem readsLow_nested (k : Nat) : ∀ (depth : Nat) (rule : Rule),
    (nested depth rule).ReadsLow k (4 * depth * (k + 1))
  | 0, _ => fun _ _ _ hrun => nomatch hrun
  | depth + 1, rule => by
    have hbelow := readsLow_nested k depth
    have hstep : 4 * (depth + 1) * (k + 1) = 4 * depth * (k + 1) + 4 * (k + 1) := by ring
    rw [hstep]
    cases rule with
    | expression => exact readsLow_conditional hbelow
    | negation => exact Parser.ReadsLow.mono (readsLow_negation hbelow) (by omega)
    | unary => exact Parser.ReadsLow.mono (readsLow_unary hbelow) (by omega)

/-- **The height of a tree is bounded by its longest chain**, with the limit of nesting as a factor.
-/
theorem height_le_of_parse {source : String} {tree : Tree} (h : parse source = .ok tree) :
    tree.height ≤ 4 * maxDepth * (tree.longestChain + 1) := by
  obtain ⟨tokens, _, hparse⟩ := exists_tokens_of_parse h
  obtain ⟨rest, hrun, _⟩ := peek_eq_stop_of_parseTokens hparse
  exact readsLow_nested tree.longestChain maxDepth .expression hrun le_rfl

/-! ## Chains of any length -/

/-- A sum of ones with so many operators. -/
def ones : Nat → Tree
  | 0 => .literal (.int 1)
  | n + 1 => .binary .add (ones n) (.literal (.int 1))

/-- The tokens of a sum of ones. -/
def onesTokens : Nat → List TokenKind
  | 0 => [.int 1]
  | n + 1 => onesTokens n ++ [.plus, .int 1]

/-- The forms of these tokens. -/
def onesForms : Nat → List String
  | 0 => ["1"]
  | n + 1 => onesForms n ++ ["+", "1"]

/-- The sum of ones as a source, `1 + 1 + … + 1`. -/
def onesSource (n : Nat) : String :=
  " ".intercalate (onesForms n)

/-- The tree of a sum of ones is as high as the sum is long. -/
theorem height_ones (n : Nat) : (ones n).height = n := by
  induction n with
  | zero => rfl
  | succ n ih =>
    rw [ones, Tree.height, ih]
    exact Nat.max_eq_left (Nat.le_add_left 1 n)

/-- The forms are those of the tokens. -/
theorem writes_ones (n : Nat) : List.Forall₂ Writes (onesTokens n) (onesForms n) := by
  have hone : Writes (.int 1) "1" := by
    have h : Writes (.int 1) (Decimal.ofInt64 1) := .int (by decide)
    have hform : Decimal.ofInt64 1 = "1" := by cbv
    rwa [hform] at h
  induction n with
  | zero => exact .cons hone .nil
  | succ n ih => exact List.rel_append ih (.cons (.symbol rfl) (.cons hone .nil))

/-- The loop of sums joins all of the ones, at any depth of nesting. -/
theorem joins_ones (depth n : Nat) : Joins depth .sum .term (onesTokens n) (ones n) := by
  have hone : Parses depth .term [.int 1] (.literal (.int 1)) :=
    (parses_int 1).of_rank_le (by decide)
  have hop : BinaryOp.add.level? = some .sum := rfl
  induction n with
  | zero => exact hone.joins .sum
  | succ n ih => exact ih.join hop rfl hone

theorem notMem_intercalate {c sep : Char} (hsep : c ≠ sep) : ∀ {rows : List (List Char)},
    (∀ row ∈ rows, c ∉ row) → c ∉ [sep].intercalate rows
  | [], _ => by simp
  | [row], h => by simpa using h
  | row :: next :: rows, h => by
    obtain ⟨hrow, hothers⟩ := List.forall_mem_cons.1 h
    rw [List.intercalate_cons_cons]
    simp [hrow, hsep, notMem_intercalate hsep hothers]

/-- A source of ones holds no double underscore. -/
theorem occurs_onesSource (n : Nat) : Text.occurs ['_', '_'] (onesSource n).toList = false := by
  have hforms : ∀ form ∈ onesForms n, '_' ∉ form.toList := by
    induction n with
    | zero => decide
    | succ n ih => exact List.forall_mem_append.2 ⟨ih, by decide⟩
  rw [Bool.eq_false_iff, Ne, Text.occurs_iff_infix, onesSource, String.toList_intercalate]
  intro hpart
  refine notMem_intercalate (by decide) ?_ (hpart.subset List.mem_cons_self)
  exact List.forall_mem_map.2 hforms

/-- **Sums of any length are read**, and their trees are as high as they are long. -/
theorem parse_ones (n : Nat) : parse (onesSource n) = .ok (ones n) := by
  obtain ⟨tokens, htokens, hkinds⟩ := tokenizes_forms (writes_ones n) 0
  have hlex : tokenize (onesSource n) = .ok tokens := by
    rw [tokenize, onesSource, String.toList_intercalate]
    exact htokens
  have hop : BinaryOp.add.level? = some .sum := rfl
  have hparses : Parses (maxDepth - 1) .expression (onesTokens n) (ones n) :=
    ((joins_ones _ n).parses hop rfl).of_rank_le (by decide)
  rw [parse, if_neg (by simp [occurs_onesSource]), hlex]
  exact parseTokens_of_parses hparses hkinds

end LaunchFile.Expr
