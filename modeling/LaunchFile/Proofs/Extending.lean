import LaunchFile.Condition
import LaunchFile.Proofs.Expr.Related
import LaunchFile.Proofs.Follow
import LaunchFile.Proofs.Reading

/-!
# Proofs/Extending — more arguments change no text that resolves

A text that resolves in a scope has only used arguments that have values there. Where these
arguments have the same values and more are bound, it resolves to the same (`Extends.evaluate`), and
so do conditions. The argument of an expression is looked up by `arg(…)` or by its name, and either
way an expression that has a value keeps it (`Expr.eval_follows`).
-/

namespace LaunchFile

/-! ## Expressions -/

namespace Expr

variable {σ : Type} {b b' : Bindings σ}

/-- All that has a value in the first has it in the second, which differs in arguments only. -/
structure Bindings.Extends (b b' : Bindings σ) : Prop where
  arg : ∀ name value, b.arg name = .ok (some value) → b'.arg name = .ok (some value)
  env : b'.env = b.env
  find : b'.find = b.find
  directory : b'.directory = b.directory
  anon : b'.anon = b.anon

theorem lookupName_extends (h : b.Extends b') {name : String} {value : Value}
    (hok : lookupName b name = .ok value) : lookupName b' name = .ok value := by
  rw [lookupName] at hok ⊢
  split
  · rename_i hpi
    rwa [if_pos hpi] at hok
  · rename_i hpi
    rw [if_neg hpi] at hok
    split
    · rename_i he
      rwa [if_pos he] at hok
    · rename_i he
      rw [if_neg he] at hok
      split at hok
      · cases hok
      · rename_i raw hraw
        rw [h.arg name raw hraw]
        exact hok
      · cases hok

theorem lookupCall_follows (h : b.Extends b') (function : String) (args : List Value) (s : σ) :
    Follows Eq (lookupCall b function args) (lookupCall b' function args) s := by
  unfold lookupCall
  rw [h.env, h.find, h.directory, h.anon]
  split
  · refine .bind_same fun name t _ => ?_
    rcases harg : b.arg name with e | _ | value
    · exact .of_error rfl
    · exact .of_error rfl
    · rw [h.arg name value harg]
      exact .refl _ t
  all_goals exact .refl _ s

/-- **An expression that has a value keeps it when more arguments are bound.** An operand that fails
ends the evaluation, so that nothing is known or needed of what would follow it. -/
theorem eval_follows (h : b.Extends b') (tree : Tree) :
    ∀ s : σ, Follows Eq (eval b tree) (eval b' tree) s := by
  have hrelated : b.Related (fun x y => ∀ s, Follows Eq x y s) b' := {
    result := fun r s => .refl _ s
    bind := fun hx hf s => .bind_eq (hx s) fun a t _ => hf a t
    name := fun name s => .result fun value hok => ⟨value, lookupName_extends h hok, rfl⟩
    call := lookupCall_follows h }
  exact eval_related hrelated tree

theorem evaluate_follows (h : b.Extends b') (source : String) (s : σ) :
    Follows Eq (evaluate b source) (evaluate b' source) s :=
  .bind_same fun tree t _ => eval_follows h tree t

end Expr

/-! ## Scopes -/

/-- The second scope binds what has a value in the first to the same value, in the same file. -/
structure Scope.Extends (s s' : Scope) : Prop where
  arg : ∀ name text, (s.args.get? name).bind ArgBinding.value = some text →
    (s'.args.get? name).bind ArgBinding.value = some text
  file : s'.file = s.file

namespace Scope.Extends

variable {s s' : Scope} {look : Lookups} {r : AnonRegistry}

/-- A new argument takes no other's place. -/
theorem setArg {name : String} (hnew : s.args.get? name = none) (binding : ArgBinding) :
    s.Extends (s.setArg name binding) where
  arg other text hvalue := by
    have hother : name ≠ other := by
      rintro rfl
      rw [hnew] at hvalue
      cases hvalue
    rw [Scope.setArg, Dict.get?_insert_of_ne _ _ hother]
    exact hvalue
  file := rfl

theorem directory (h : s.Extends s') : s'.directory = s.directory := by
  rw [Scope.directory, Scope.directory, h.file]

/-- A directive looks up what has a value, and so does an expression. -/
theorem resolveArg_eq_ok {scope : Scope} {name text : String} :
    Segment.resolveArg scope name = .ok text ↔
      (scope.args.get? name).bind ArgBinding.value = some text := by
  rw [Segment.resolveArg]
  rcases scope.args.get? name with _ | ⟨_ | value, _, _⟩
  · constructor <;> intro h <;> cases h
  · constructor <;> intro h <;> cases h
  · refine ⟨fun h => congrArg some (Except.ok.inj h), fun h => ?_⟩
    exact congrArg Except.ok (Option.some.inj h)

theorem bindings_arg_eq_ok {scope : Scope} {name text : String} :
    (Segment.bindings scope look).arg name = .ok (some text) ↔
      (scope.args.get? name).bind ArgBinding.value = some text := by
  simp only [Segment.bindings]
  rcases scope.args.get? name with _ | ⟨_ | value, _, _⟩
  · constructor <;> intro h <;> cases h
  · constructor <;> intro h <;> cases h
  · exact ⟨Except.ok.inj, congrArg Except.ok⟩

theorem bindings (h : s.Extends s') :
    (Segment.bindings s look).Extends (Segment.bindings s' look) where
  arg name text hok := bindings_arg_eq_ok.2 (h.arg name text (bindings_arg_eq_ok.1 hok))
  env := rfl
  find := rfl
  directory := congrArg (Option.map Path.text) h.directory
  anon := rfl

theorem evalText (h : s.Extends s') (expression : String) (r : AnonRegistry) :
    Follows Eq (Segment.evalText s look expression) (Segment.evalText s' look expression) r :=
  .bind_eq (.adapt (Expr.evaluate_follows h.bindings expression r)) fun _ t _ => .refl _ t

mutual

theorem resolve (h : s.Extends s') : ∀ (segment : Segment) (r : AnonRegistry),
    Follows Eq (Segment.resolve s look segment) (Segment.resolve s' look segment) r
  | .text _, r => .refl _ r
  | .arg name, r => by
    rw [Segment.resolve, Segment.resolve]
    refine .result fun text hok => ⟨text, ?_, rfl⟩
    exact resolveArg_eq_ok.2 (h.arg name text (resolveArg_eq_ok.1 hok))
  | .env _, r => .refl _ r
  | .optenv _ _, r => .refl _ r
  | .find _, r => .refl _ r
  | .anon _, r => .refl _ r
  | .dirname, r => .of_eq (by rw [Segment.resolve, Segment.resolve, h.directory])
  | .eval parts, r => by
    rw [Segment.resolve, Segment.resolve]
    exact .bind_eq (resolveAll h parts r) fun expression t _ => h.evalText expression t

theorem resolveAll (h : s.Extends s') : ∀ (segments : List Segment) (r : AnonRegistry),
    Follows Eq (Segment.resolveAll s look segments) (Segment.resolveAll s' look segments) r
  | [], r => .refl _ r
  | segment :: rest, r => by
    rw [Segment.resolveAll, Segment.resolveAll]
    refine .bind_eq (resolve h segment r) fun _ t _ => ?_
    exact .bind_eq (resolveAll h rest t) fun _ u _ => .refl _ u

end

/-- **A text that resolves keeps what it resolves to.** -/
theorem evaluate (h : s.Extends s') (text : String) (r : AnonRegistry) :
    Follows Eq (Segment.evaluate s look text) (Segment.evaluate s' look text) r :=
  .bind_same fun found t _ => h.resolveAll found t

theorem text? (h : s.Extends s') (a : Attributes) (name : String) (r : AnonRegistry) :
    Follows Eq (a.text? look s name) (a.text? look s' name) r := by
  unfold Attributes.text?
  split
  · exact .refl _ r
  · exact .bind_eq (.adapt (h.resolveAll _ r)) fun _ t _ => .refl _ t

theorem conditionValue (h : s.Extends s') (name text : String) (r : AnonRegistry) :
    Follows Eq (Element.conditionValue look s name text)
      (Element.conditionValue look s' name text) r :=
  .bind_eq (.adapt (h.evaluate text r)) fun _ t _ => .refl _ t

theorem isActive (h : s.Extends s') (e : Element) (r : AnonRegistry) :
    Follows Eq (e.isActive look s) (e.isActive look s') r := by
  refine .adapt ?_
  split
  · exact .refl _ r
  · exact h.conditionValue _ _ r
  · exact .bind_eq (h.conditionValue _ _ r) fun _ t _ => .refl _ t
  · exact .refl _ r

end Scope.Extends
end LaunchFile
