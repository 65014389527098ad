import LaunchFile.Proofs.Expr.Height
import LaunchFile.Proofs.Lockstep

/-!
# Proofs/Expr/Frames — how many calls an evaluation has open at once

`evalWithin` is evaluation with room for so many open calls. As many as the tree is high, and one
for the tree itself, are always enough (`evalWithin_eq_of_height_lt`), so that the height of a tree
bounds how deep its evaluation goes. A sum of ones takes a call more for each of its operands,
whatever the bound on nesting (`evalWithin_ones`).
-/

namespace LaunchFile.Expr

/-- Evaluation with room for so many calls; the error `none` is that there was no room for one. -/
abbrev FramedM (σ : Type) := ExceptT (Option EvalError) (StateM σ)

variable {σ α β : Type}

/-- A step that opens no call. -/
def framed (step : EvalM σ α) : FramedM σ α :=
  step.adapt some

/-! ## Evaluation in frames -/

/-- A chain of comparisons from its left operand's value on, given how operands are evaluated. -/
def chainWithin (operand : Tree → FramedM σ Value) (left : Value) :
    List (CompareOp × Tree) → FramedM σ Value
  | [] => pure (.bool true)
  | (op, tree) :: rest => do
    let right ← operand tree
    if ← framed (liftM (compareValues op left right)) then chainWithin operand right rest
    else pure (.bool false)

def argsWithin (operand : Tree → FramedM σ Value) : List Tree → FramedM σ (List Value)
  | [] => pure []
  | tree :: rest => do
    let value ← operand tree
    let values ← argsWithin operand rest
    pure (value :: values)

/-- The value of a tree, with room for so many calls at once: the call for a tree stays open while
its operands are evaluated, one after the other. -/
def evalWithin (b : Bindings σ) : Nat → Tree → FramedM σ Value
  | 0, _ => throw none
  | _ + 1, .literal value => pure value
  | _ + 1, .name name => framed (liftM (lookupName b name))
  | frames + 1, .unary op operand => do
    let value ← evalWithin b frames operand
    framed (liftM (applyUnary op value))
  | frames + 1, .binary .and left right => do
    let value ← evalWithin b frames left
    if value.truthy then evalWithin b frames right else pure value
  | frames + 1, .binary .or left right => do
    let value ← evalWithin b frames left
    if value.truthy then pure value else evalWithin b frames right
  | frames + 1, .binary op left right => do
    let value ← evalWithin b frames left
    let other ← evalWithin b frames right
    framed (liftM (applyBinary op value other))
  | frames + 1, .compare first rest => do
    let value ← evalWithin b frames first
    chainWithin (evalWithin b frames) value rest
  | frames + 1, .conditional condition thenBranch elseBranch => do
    let value ← evalWithin b frames condition
    if value.truthy then evalWithin b frames thenBranch else evalWithin b frames elseBranch
  | frames + 1, .call function args => do
    let values ← argsWithin (evalWithin b frames) args
    framed (applyCall b function values)

/-! ## Room enough -/

theorem framed_bind (x : EvalM σ α) (f : α → EvalM σ β) :
    framed (x >>= f) = framed x >>= fun a => framed (f a) := by
  refine funext fun s => ?_
  show outcome (framed (x >>= f)) s = outcome (framed x >>= fun a => framed (f a)) s
  rw [outcome_bind, framed, framed, outcome_adapt, outcome_adapt, outcome_bind]
  rcases outcome x s with ⟨e | a, t⟩
  · rfl
  · exact (outcome_adapt ..).symm

theorem framed_ite (c : Bool) (x y : EvalM σ α) :
    framed (if c then x else y) = if c then framed x else framed y := by
  cases c <;> rfl

variable {b : Bindings σ} {frames : Nat}

mutual

/-- **As many calls as the tree is high, and one more, are enough.** -/
theorem evalWithin_eq_of_height_lt : ∀ {frames : Nat} {t : Tree}, t.height < frames →
    evalWithin b frames t = framed (eval b t)
  | 0, _, h => absurd h (Nat.not_lt_zero _)
  | _ + 1, .literal value, _ => by
    rw [evalWithin, eval]
    rfl
  | _ + 1, .name name, _ => by rw [evalWithin, eval]
  | frames + 1, .unary op t, h => by
    rw [Tree.height] at h
    rw [evalWithin, eval, framed_bind, evalWithin_eq_of_height_lt (by omega)]
  | frames + 1, .binary op l r, h => by
    rw [Tree.height] at h
    have hleft : evalWithin b frames l = framed (eval b l) := evalWithin_eq_of_height_lt (by omega)
    have hright : evalWithin b frames r = framed (eval b r) := evalWithin_eq_of_height_lt (by omega)
    cases op with
    | and | or =>
      rw [evalWithin, eval, framed_bind, hleft, hright]
      simp only [framed_ite]
      rfl
    | _ => simp only [evalWithin, eval, framed_bind, hleft, hright]
  | frames + 1, .compare first rest, h => by
    rw [Tree.height] at h
    have hrest (left : Value) :
        chainWithin (evalWithin b frames) left rest = framed (evalChain b left rest) :=
      chainWithin_eq left (by omega)
    rw [evalWithin, eval, framed_bind, evalWithin_eq_of_height_lt (by omega)]
    simp only [hrest]
  | frames + 1, .conditional c t e, h => by
    rw [Tree.height] at h
    rw [evalWithin, eval, framed_bind, evalWithin_eq_of_height_lt (by omega),
      evalWithin_eq_of_height_lt (by omega), evalWithin_eq_of_height_lt (by omega)]
    simp only [framed_ite]
  | frames + 1, .call function args, h => by
    rw [Tree.height] at h
    rw [evalWithin, eval, framed_bind, argsWithin_eq (by omega)]

theorem chainWithin_eq {frames : Nat} : ∀ {rest : List (CompareOp × Tree)} (left : Value),
    linksHeight rest ≤ frames →
    chainWithin (evalWithin b frames) left rest = framed (evalChain b left rest)
  | [], left, _ => by
    rw [chainWithin, evalChain]
    rfl
  | (op, t) :: rest, left, h => by
    rw [linksHeight] at h
    have hrest (left : Value) :
        chainWithin (evalWithin b frames) left rest = framed (evalChain b left rest) :=
      chainWithin_eq left (by omega)
    rw [chainWithin, evalChain, framed_bind, evalWithin_eq_of_height_lt (by omega)]
    simp only [framed_bind, framed_ite, hrest]
    rfl

theorem argsWithin_eq {frames : Nat} : ∀ {args : List Tree}, argsHeight args ≤ frames →
    argsWithin (evalWithin b frames) args = framed (evalArgs b args)
  | [], _ => by
    rw [argsWithin, evalArgs]
    rfl
  | t :: args, h => by
    rw [argsHeight] at h
    rw [argsWithin, evalArgs, framed_bind, evalWithin_eq_of_height_lt (by omega),
      argsWithin_eq (by omega)]
    simp only [framed_bind]
    rfl

end

/-! ## Bounded chains and others -/

/-- A sum of ones needs a call for each of its operators, and one for the first of the ones. -/
theorem evalWithin_ones (b : Bindings σ) (n : Nat) : evalWithin b n (ones n) = throw none := by
  induction n with
  | zero => rfl
  | succ n ih =>
    rw [ones, evalWithin, ih]
    · rfl
    · rintro ⟨⟩
    · rintro ⟨⟩

/-- **The height of a tree lies between the length of its longest chain and a bound for that
length**, and evaluation has no more calls open at once than the height says. So for sources whose
chains have no more than so many operators there is one bound on both, which only the bound on
nesting enters. -/
theorem height_bounds {source : String} {tree : Tree} (h : parse source = .ok tree) :
    tree.longestChain ≤ tree.height ∧
    tree.height ≤ 4 * maxDepth * (tree.longestChain + 1) ∧
    ∀ {σ : Type} (b : Bindings σ) (frames : Nat), tree.height < frames →
      evalWithin b frames tree = framed (eval b tree) :=
  ⟨longestChain_le_height tree, height_le_of_parse h, fun _ _ => evalWithin_eq_of_height_lt⟩

/-- Two chains, one of them in parentheses. -/
theorem height_bounds_two :
    let tree : Tree := .binary .sub (.binary .add (.name "a") (.binary .mul (.name "b")
      (.binary .or (.name "c") (.name "d")))) (.literal (.int 1))
    parse "a + b * (c or d) - 1" = .ok tree ∧ tree.longestChain = 2 ∧ tree.height = 4 ∧
      tree.height ≤ 4 * maxDepth * (tree.longestChain + 1) := by
  intro tree
  have hlex : tokenize "a + b * (c or d) - 1" = .ok [⟨.ident "a", 0⟩, ⟨.plus, 2⟩, ⟨.ident "b", 4⟩,
      ⟨.star, 6⟩, ⟨.leftParen, 8⟩, ⟨.ident "c", 9⟩, ⟨.ident "or", 11⟩, ⟨.ident "d", 14⟩,
      ⟨.rightParen, 15⟩, ⟨.minus, 17⟩, ⟨.int 1, 19⟩, ⟨.stop, 20⟩] :=
    (tokenize_eq_turns _).trans rfl
  have hparse : parse "a + b * (c or d) - 1" = .ok tree := by
    rw [parse, if_neg (by decide), hlex]
    rfl
  exact ⟨hparse, rfl, rfl, (height_bounds hparse).2.1⟩

/-- **Without a bound on the chains there is none** on the height of trees, nor on the calls that
evaluation has open at once: a sum of ones is read whatever its length. -/
theorem heights_unbounded :
    (¬ ∃ bound, ∀ source tree, parse source = .ok tree → tree.height ≤ bound) ∧
    ¬ ∃ frames, ∀ source tree, parse source = .ok tree → ∀ (b : Bindings Unit),
      outcome (evalWithin b frames tree) () ≠ (.error none, ()) := by
  constructor
  · rintro ⟨bound, h⟩
    have hheight := h _ _ (parse_ones (bound + 1))
    rw [height_ones] at hheight
    omega
  · rintro ⟨frames, h⟩
    let nothing : Bindings Unit :=
      ⟨fun _ => .ok none, fun _ => pure none, fun _ => pure none, none, pure⟩
    refine h _ _ (parse_ones frames) nothing ?_
    rw [evalWithin_ones]
    rfl

end LaunchFile.Expr
