import LaunchFile.Proofs.Expr.Repeated

/-!
# Proofs/Expr/Conjunction — a chain of comparisons is the conjunction of its pairs

A chain hands the value of each operand on to the next comparison; the conjunction of its pairs
evaluates every inner operand twice. Where repeated look-ups are answered alike the two have the
same outcome (`conjoined_agree`). Both end at the first pair that does not hold, whatever follows it
(`outcome_compare_append`, `outcome_conjoined_append`).
-/

namespace LaunchFile.Expr

variable {σ : Type} {b : Bindings σ} {s t : σ} {op : CompareOp} {first : Tree}
  {front back links : List (CompareOp × Tree)} {left value : Value}

/-! ## The pairs of a chain -/

/-- Each operand of a chain with the one before it. -/
def pairs (first : Tree) : List (CompareOp × Tree) → List Tree
  | [] => []
  | (op, tree) :: rest => .compare first [(op, tree)] :: pairs tree rest

theorem pairs_append (first : Tree) (front back : List (CompareOp × Tree)) :
    ∃ last, pairs first (front ++ back) = pairs first front ++ pairs last back := by
  induction front generalizing first with
  | nil => exact ⟨first, rfl⟩
  | cons link rest ih =>
    obtain ⟨last, hlast⟩ := ih link.2
    exact ⟨last, congrArg (_ :: ·) hlast⟩

theorem eval_pair (b : Bindings σ) (first : Tree) (op : CompareOp) (second : Tree) :
    eval b (.compare first [(op, second)]) =
      eval b first >>= fun left => eval b second >>= fun right =>
        (liftM (compareValues op left right) : EvalM σ Bool) >>= fun holds =>
          pure (.bool holds) := by
  simp only [eval, evalChain]
  refine bind_congr fun left => bind_congr fun right => bind_congr fun holds => ?_
  cases holds <;> rfl

/-! ## Conjunctions -/

/-- Trees joined by `and`, to the left. -/
def conjoined : List Tree → Tree
  | [] => .literal (.bool true)
  | first :: others => others.foldl (.binary .and) first

/-- A conjunction from its value so far on: that decides, or else the next tree does. -/
def evalAnd (b : Bindings σ) (value : Value) : List Tree → EvalM σ Value
  | [] => pure value
  | tree :: rest =>
    if value.truthy then eval b tree >>= fun next => evalAnd b next rest else pure value

theorem evalAnd_of_not_truthy (h : ¬ value.truthy) (trees : List Tree) :
    evalAnd b value trees = pure value := by
  cases trees with
  | nil => rfl
  | cons tree rest => rw [evalAnd, if_neg h]

theorem evalAnd_append (b : Bindings σ) (value : Value) (trees others : List Tree) :
    evalAnd b value (trees ++ others) =
      evalAnd b value trees >>= fun next => evalAnd b next others := by
  induction trees generalizing value with
  | nil => rw [List.nil_append, evalAnd, pure_bind]
  | cons tree rest ih =>
    rw [List.cons_append, evalAnd, evalAnd]
    split
    · simp only [ih, bind_assoc]
    · rename_i hfalse
      rw [pure_bind, evalAnd_of_not_truthy hfalse]

theorem eval_foldl_and (b : Bindings σ) (first : Tree) (others : List Tree) :
    eval b (others.foldl (.binary .and) first) =
      eval b first >>= fun value => evalAnd b value others := by
  induction others generalizing first with
  | nil => exact (bind_pure _).symm
  | cons next rest ih =>
    rw [List.foldl_cons, ih, eval, bind_assoc]
    refine bind_congr fun value => ?_
    rw [evalAnd]
    split
    · rfl
    · rename_i hfalse
      rw [pure_bind, evalAnd_of_not_truthy hfalse]

theorem eval_conjoined (b : Bindings σ) (trees : List Tree) :
    eval b (conjoined trees) = evalAnd b (.bool true) trees := by
  cases trees with
  | nil => rw [conjoined, eval, evalAnd]
  | cons first others =>
    rw [conjoined, eval_foldl_and, evalAnd]
    rfl

/-! ## What a chain ends in -/

/-- **A chain that has a value has a boolean.** -/
theorem bool_of_evalChain (h : outcome (evalChain b left links) s = (.ok value, t)) :
    ∃ holds, value = .bool holds := by
  induction links generalizing left s with
  | nil =>
    cases h
    exact ⟨true, rfl⟩
  | cons link rest ih =>
    rw [evalChain] at h
    obtain ⟨right, u, -, h⟩ := outcome_bind_eq_ok h
    obtain ⟨holds, v, -, h⟩ := outcome_bind_eq_ok h
    cases holds with
    | true => exact ih h
    | false =>
      cases h
      exact ⟨false, rfl⟩

theorem bool_of_eval_compare (h : outcome (eval b (.compare first links)) s = (.ok value, t)) :
    ∃ holds, value = .bool holds := by
  rw [eval] at h
  obtain ⟨left, u, -, hchain⟩ := outcome_bind_eq_ok h
  exact bool_of_evalChain hchain

/-! ## Where a chain ends -/

/-- **A chain ends at the first link that does not hold.** -/
theorem outcome_evalChain_append (h : (outcome (evalChain b left front) s).1 ≠ .ok (.bool true))
    (back : List (CompareOp × Tree)) :
    outcome (evalChain b left (front ++ back)) s = outcome (evalChain b left front) s := by
  induction front generalizing left s with
  | nil => exact absurd rfl h
  | cons link rest ih =>
    rw [List.cons_append]
    rw [evalChain] at h ⊢
    rw [evalChain]
    rcases hright : outcome (eval b link.2) s with ⟨e | right, u⟩
    · rw [outcome_bind_error hright, outcome_bind_error hright]
    · rw [outcome_bind_ok hright] at h ⊢
      rw [outcome_bind_ok hright]
      rcases hholds : outcome (liftM (compareValues link.1 left right) : EvalM σ Bool) u
        with ⟨e | holds, v⟩
      · rw [outcome_bind_error hholds, outcome_bind_error hholds]
      · rw [outcome_bind_ok hholds] at h ⊢
        rw [outcome_bind_ok hholds]
        cases holds with
        | true => exact ih h
        | false => rfl

theorem outcome_compare_append
    (h : (outcome (eval b (.compare first front)) s).1 ≠ .ok (.bool true))
    (back : List (CompareOp × Tree)) :
    outcome (eval b (.compare first (front ++ back))) s =
      outcome (eval b (.compare first front)) s := by
  rw [eval] at h ⊢
  rw [eval]
  rcases hleft : outcome (eval b first) s with ⟨e | left, u⟩
  · rw [outcome_bind_error hleft, outcome_bind_error hleft]
  · rw [outcome_bind_ok hleft] at h ⊢
    rw [outcome_bind_ok hleft, outcome_evalChain_append h]

/-- **A conjunction ends at the first tree whose value is not truthy.** -/
theorem outcome_conjoined_append {trees : List Tree}
    (h : ∀ value, (outcome (eval b (conjoined trees)) s).1 = .ok value → ¬ value.truthy)
    (others : List Tree) :
    outcome (eval b (conjoined (trees ++ others))) s = outcome (eval b (conjoined trees)) s := by
  rw [eval_conjoined] at h
  rw [eval_conjoined, eval_conjoined, evalAnd_append]
  rcases hout : outcome (evalAnd b (.bool true) trees) s with ⟨e | value, u⟩
  · exact outcome_bind_error hout _
  · have hfalse : ¬ value.truthy := h value (congrArg Prod.fst hout)
    rw [outcome_bind_ok hout, evalAnd_of_not_truthy hfalse]
    rfl

/-! ## The two side by side -/

/-- The pairs of a chain, from the value of its first operand on. -/
def evalPairs (b : Bindings σ) (left : Value) (op : CompareOp) (tree : Tree)
    (rest : List (CompareOp × Tree)) : EvalM σ Value :=
  eval b tree >>= fun right => (liftM (compareValues op left right) : EvalM σ Bool) >>=
    fun holds => evalAnd b (.bool holds) (pairs tree rest)

theorem eval_conjoined_pairs (b : Bindings σ) (first : Tree) (op : CompareOp) (tree : Tree)
    (rest : List (CompareOp × Tree)) :
    eval b (conjoined (pairs first ((op, tree) :: rest))) =
      eval b first >>= fun left => evalPairs b left op tree rest := by
  rw [eval_conjoined, pairs, evalAnd, if_pos (by rfl), eval_pair]
  simp only [bind_assoc, pure_bind]
  rfl

/-- From states that answer alike the pairs and the chain end alike. Behind a pair that holds, the
next one evaluates its first operand once more; it has the value that the chain hands on
(`eval_again`), and nothing tells afterwards that it was evaluated. -/
theorem evalPairs_agree (hb : b.Repeats) (rest : List (CompareOp × Tree)) (left : Value)
    (op : CompareOp) (tree : Tree) (hst : b.Alike s t) :
    Outcome.Agree (fun _ => False) b.Alike Eq (outcome (evalPairs b left op tree rest) s)
      (outcome (evalChain b left ((op, tree) :: rest)) t) := by
  induction rest generalizing left op tree s t with
  | nil =>
    rw [evalPairs, evalChain]
    refine (eval_alike b tree s t hst).bind fun right _ s' t' _ heq hst' => ?_
    subst heq
    refine (Lockstep.result (compareValues op left right) s' t' hst').bind
      fun holds _ s'' t'' _ heq hst'' => ?_
    subst heq
    cases holds <;> exact ⟨rfl, hst''⟩
  | cons link rest ih =>
    rw [evalPairs, evalChain]
    refine (eval_alike b tree s t hst).bind fun right _ s' t' hright heq hst' => ?_
    subst heq
    refine (Lockstep.result (compareValues op left right) s' t' hst').bind
      fun holds _ s'' t'' hholds heq hst'' => ?_
    subst heq
    obtain rfl : s'' = s' := (eq_ok_of_outcome hholds).2
    cases holds with
    | false => exact ⟨rfl, hst''⟩
    | true =>
      obtain ⟨u, hagain, -, halike⟩ := (eval_again hb tree s right s'' hright).2 s'' (.refl s'')
      rw [← eval_conjoined, eval_conjoined_pairs, outcome_bind_ok hagain]
      exact ih right link.1 link.2 (halike.trans hst'')

theorem conjoined_agree (hb : b.Repeats) (first : Tree) (hlinks : links ≠ []) (s : σ) :
    Outcome.Agree (fun _ => False) b.Alike Eq (outcome (eval b (conjoined (pairs first links))) s)
      (outcome (eval b (.compare first links)) s) := by
  obtain ⟨⟨op, tree⟩, rest, rfl⟩ := List.exists_cons_of_ne_nil hlinks
  rw [eval_conjoined_pairs, eval]
  refine (eval_alike b first s s (.refl s)).bind fun left _ t u _ heq htu => ?_
  subst heq
  exact evalPairs_agree hb rest left op tree htu

/-- **A chain of comparisons is the conjunction of its pairs.** -/
theorem eval_compare_eq_conjoined (hb : b.Repeats) (first : Tree)
    (links : List (CompareOp × Tree)) (hlinks : links ≠ []) (s : σ) :
    (outcome (eval b (.compare first links)) s).1 =
        (outcome (eval b (conjoined (pairs first links))) s).1 ∧
      b.Alike (outcome (eval b (.compare first links)) s).2
        (outcome (eval b (conjoined (pairs first links))) s).2 ∧
      (∀ value, (outcome (eval b (.compare first links)) s).1 = .ok value →
        ∃ holds, value = .bool holds) ∧
      ∀ front back, links = front ++ back → front ≠ [] →
        (outcome (eval b (.compare first front)) s).1 ≠ .ok (.bool true) →
        outcome (eval b (.compare first links)) s = outcome (eval b (.compare first front)) s ∧
          outcome (eval b (conjoined (pairs first links))) s =
            outcome (eval b (conjoined (pairs first front))) s := by
  obtain ⟨hvalue, halike⟩ := (conjoined_agree hb first hlinks s).eq_and_state
  refine ⟨hvalue.symm, halike.symm, fun value hok => ?_, ?_⟩
  · exact bool_of_eval_compare (Prod.ext hok rfl)
  · rintro front back rfl hfront hstops
    obtain ⟨last, hpairs⟩ := pairs_append first front back
    refine ⟨outcome_compare_append hstops back, ?_⟩
    rw [hpairs]
    refine outcome_conjoined_append (fun value hok htruthy => hstops ?_) _
    have hsame := (conjoined_agree hb first hfront s).eq_and_state.1
    obtain ⟨holds, rfl⟩ := bool_of_eval_compare (Prod.ext (hsame.symm.trans hok) rfl)
    obtain rfl : holds = true := htruthy
    exact hsame.symm.trans hok

/-- One name is made up and compared with itself, and the unknown argument behind it never looked
up. -/
theorem eval_compare_eq_conjoined_of_anon :
    let b := Segment.bindings .root (⟨fun _ => none, fun _ => none⟩ : Lookups)
    let name := Tree.call "anon" [.literal (.str "camera")]
    let chain := [(CompareOp.eq, name), (.ne, name), (.lt, .name "missing")]
    (outcome (eval b (.compare name chain)) .empty).1 = .ok (.bool false) ∧
      (outcome (eval b (conjoined (pairs name chain))) .empty).1 = .ok (.bool false) := by
  intro b name chain
  have hfront : (outcome (eval b (.compare name (chain.take 2))) .empty).1 = .ok (.bool false) :=
    rfl
  obtain ⟨hsame, -, -, hstops⟩ := eval_compare_eq_conjoined (b := b)
    (Segment.repeats_bindings _ _) name chain (List.cons_ne_nil _ _) .empty
  have hchain := (hstops (chain.take 2) (chain.drop 2) rfl (List.cons_ne_nil _ _)
    (by rw [hfront]; rintro ⟨⟩)).1
  have hvalue : (outcome (eval b (.compare name chain)) .empty).1 = .ok (.bool false) :=
    (congrArg Prod.fst hchain).trans hfront
  exact ⟨hvalue, hsame.symm.trans hvalue⟩

end LaunchFile.Expr
