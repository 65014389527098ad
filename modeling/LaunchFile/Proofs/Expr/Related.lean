import LaunchFile.Expr.Eval

/-!
# Proofs/Expr/Related — evaluations are related if their look-ups are

A relation between steps that holds of shared results and is kept by sequences (`IsCongruence`)
holds of the evaluations of a tree with two `Bindings` once it holds of what these answer
(`eval_related`). All that follows a tree down to its look-ups is an instance: the relation says
what is carried along, and of the `Bindings` only the look-ups have to be considered.
-/

namespace LaunchFile.Expr

variable {σ τ : Type}

/-- Results are related to themselves, and sequences are if their parts are. -/
structure IsCongruence (R : {α : Type} → EvalM σ α → EvalM τ α → Prop) : Prop where
  result : ∀ {α : Type} (r : Except EvalError α), R (liftM r : EvalM σ α) (liftM r)
  bind : ∀ {α β : Type} {x : EvalM σ α} {y : EvalM τ α} {f : α → EvalM σ β} {g : α → EvalM τ β},
    R x y → (∀ a, R (f a) (g a)) → R (x >>= f) (y >>= g)

/-- A congruence of which the look-ups of two `Bindings` are instances. -/
structure Bindings.Related (R : {α : Type} → EvalM σ α → EvalM τ α → Prop) (b : Bindings σ)
    (b' : Bindings τ) : Prop extends IsCongruence R where
  name : ∀ name, R (lookupName b name : EvalM σ Value) (lookupName b' name : EvalM τ Value)
  call : ∀ function args, R (lookupCall b function args) (lookupCall b' function args)

/-! ## Trees -/

section

variable {R : {α : Type} → EvalM σ α → EvalM τ α → Prop} {b : Bindings σ} {b' : Bindings τ}

theorem applyCall_related (h : b.Related R b') (function : String) (args : List Value) :
    R (applyCall b function args) (applyCall b' function args) := by
  unfold applyCall
  split
  · exact h.result (.error _)
  · split
    · exact h.result (.error _)
    · split
      · exact h.result _
      · exact h.call function args

mutual

/-- **Evaluations are related if their look-ups are.** The induction is on the tree. -/
theorem eval_related (h : b.Related R b') : ∀ tree : Tree, R (eval b tree) (eval b' tree)
  | .literal value => by
    rw [eval, eval]
    exact h.result (.ok value)
  | .name name => by
    rw [eval, eval]
    exact h.name name
  | .unary op operand => by
    rw [eval, eval]
    exact h.bind (eval_related h operand) fun _ => h.result _
  | .binary op left right => by
    cases op with
    | and =>
      rw [eval, eval]
      refine h.bind (eval_related h left) fun value => ?_
      split
      · exact eval_related h right
      · exact h.result (.ok value)
    | or =>
      rw [eval, eval]
      refine h.bind (eval_related h left) fun value => ?_
      split
      · exact h.result (.ok value)
      · exact eval_related h right
    | _ =>
      simp only [eval]
      exact h.bind (eval_related h left) fun _ => h.bind (eval_related h right) fun _ => h.result _
  | .compare first rest => by
    rw [eval, eval]
    exact h.bind (eval_related h first) fun value => evalChain_related h value rest
  | .conditional condition thenBranch elseBranch => by
    rw [eval, eval]
    refine h.bind (eval_related h condition) fun value => ?_
    split
    · exact eval_related h thenBranch
    · exact eval_related h elseBranch
  | .call function args => by
    rw [eval, eval]
    exact h.bind (evalArgs_related h args) fun values => applyCall_related h function values

theorem evalChain_related (h : b.Related R b') (left : Value) :
    ∀ rest : List (CompareOp × Tree), R (evalChain b left rest) (evalChain b' left rest)
  | [] => by
    rw [evalChain, evalChain]
    exact h.result (.ok _)
  | (op, tree) :: rest => by
    rw [evalChain, evalChain]
    refine h.bind (eval_related h tree) fun right => h.bind (h.result _) fun holds => ?_
    split
    · exact evalChain_related h right rest
    · exact h.result (.ok _)

theorem evalArgs_related (h : b.Related R b') :
    ∀ trees : List Tree, R (evalArgs b trees) (evalArgs b' trees)
  | [] => by
    rw [evalArgs, evalArgs]
    exact h.result (.ok _)
  | tree :: rest => by
    rw [evalArgs, evalArgs]
    refine h.bind (eval_related h tree) fun value => ?_
    exact h.bind (evalArgs_related h rest) fun values => h.result (.ok _)

end
end

/-! ## The same arguments

Where arguments and directory are the same, only what is looked up elsewhere has to be related. -/

section

variable {R : {α : Type} → EvalM σ α → EvalM τ α → Prop} {b : Bindings σ} {b' : Bindings τ}

/-- Two `Bindings` in one scope whose look-ups are instances of a congruence. -/
structure Bindings.Beside (R : {α : Type} → EvalM σ α → EvalM τ α → Prop) (b : Bindings σ)
    (b' : Bindings τ) : Prop extends IsCongruence R where
  arg : b'.arg = b.arg
  directory : b'.directory = b.directory
  env : ∀ name, R (liftM (b.env name) : EvalM σ _) (liftM (b'.env name))
  find : ∀ name, R (liftM (b.find name) : EvalM σ _) (liftM (b'.find name))
  anon : ∀ seed, R (liftM (b.anon seed) : EvalM σ _) (liftM (b'.anon seed))

theorem lookupCall_related (h : b.Beside R b') (function : String) (args : List Value) :
    R (lookupCall b function args) (lookupCall b' function args) := by
  unfold lookupCall
  rw [h.arg, h.directory]
  split
  · refine h.bind (h.result _) fun name => h.bind (h.result _) fun found => ?_
    cases found with
    | none => exact h.result (.error _)
    | some value => exact h.result (.ok _)
  · refine h.bind (h.result _) fun name => h.bind (h.env name) fun found => ?_
    cases found with
    | none => exact h.result (.error _)
    | some value => exact h.result (.ok _)
  · refine h.bind (h.result _) fun name => h.bind (h.env name) fun found => ?_
    split <;> exact h.result (.ok _)
  · refine h.bind (h.result _) fun name => h.bind (h.find name) fun found => ?_
    cases found with
    | none => exact h.result (.error _)
    | some path => exact h.result (.ok _)
  · exact h.bind (h.result _) fun name => h.bind (h.anon name) fun _ => h.result (.ok _)
  · split
    · exact h.result (.ok _)
    · exact h.result (.error _)
  · exact h.result (.error _)

theorem lookupName_eq (h : b'.arg = b.arg) (name : String) :
    lookupName b' name = lookupName b name := by
  rw [lookupName, lookupName, h]

theorem Bindings.Beside.related (h : b.Beside R b') : b.Related R b' where
  toIsCongruence := h.toIsCongruence
  name name := lookupName_eq h.arg name ▸ h.result _
  call := lookupCall_related h

end
end LaunchFile.Expr
