import LaunchFile.Proofs.Expr.Related
import LaunchFile.Proofs.Lockstep

/-!
# Proofs/Answers/Basic — steps that are answered in two ways

What a run does depends on those who answer it only through their answers. `Mirrors P Q x y` says it
of one step answered in two ways, as `x` and as `y`: from states that are related by `P` both end in
the same, and in related states. It need hold only where `x` ends in a state with `Q`; a condition
on all answers of a run is put on its last state in this way.

Steps mirror each other if those who answer do (`Answers.Mirrors`), and here this is followed up to
the resolution of a text (`Segment.evaluate_mirrors`).
-/

namespace LaunchFile

section

variable {ε ε' σ τ α β : Type} {P : σ → τ → Prop} {Q : σ → Prop}

/-- Wherever `x` ends in a state with `Q`, `y` ends in the same from every related state. -/
structure Mirrors (P : σ → τ → Prop) (Q : σ → Prop) (x : ExceptT ε (StateM σ) α)
    (y : ExceptT ε (StateM τ) α) : Prop where
  /-- A state with `Q` comes of states with `Q` only. -/
  before : ∀ s, Q (outcome x s).2 → Q s
  agree : ∀ {s t}, P s t → Q (outcome x s).2 →
    (outcome x s).1 = (outcome y t).1 ∧ P (outcome x s).2 (outcome y t).2

namespace Mirrors

variable {x : ExceptT ε (StateM σ) α} {y : ExceptT ε (StateM τ) α}

/-- A result without a state mirrors itself. -/
theorem result (r : Except ε α) :
    Mirrors P Q (liftM r : ExceptT ε (StateM σ) α) (liftM r : ExceptT ε (StateM τ) α) := by
  cases r <;> exact ⟨fun _ => id, fun hst _ => ⟨rfl, hst⟩⟩

/-- A value mirrors itself. -/
theorem pure (a : α) :
    Mirrors P Q (Pure.pure a : ExceptT ε (StateM σ) α) (Pure.pure a : ExceptT ε (StateM τ) α) :=
  ⟨fun _ => id, fun hst _ => ⟨rfl, hst⟩⟩

/-- **Sequences mirror each other if their first parts do and what follows does.** -/
theorem bind {f : α → ExceptT ε (StateM σ) β} {g : α → ExceptT ε (StateM τ) β}
    (hxy : Mirrors P Q x y) (hfg : ∀ a, Mirrors P Q (f a) (g a)) :
    Mirrors P Q (x >>= f) (y >>= g) := by
  constructor
  · intro s hq
    refine hxy.before s ?_
    rw [outcome_bind] at hq
    rcases hx : outcome x s with ⟨e | a, s'⟩ <;> rw [hx] at hq
    · exact hq
    · exact (hfg a).before s' hq
  · intro s t hst hq
    rw [outcome_bind] at hq
    have hagree := hxy.agree hst
    rw [outcome_bind, outcome_bind]
    rcases hx : outcome x s with ⟨e | a, s'⟩ <;> rcases hy : outcome y t with ⟨e' | a', t'⟩ <;>
      rw [hx] at hq <;> rw [hx, hy] at hagree
    · exact ⟨congrArg Except.error (Except.error.inj (hagree hq).1), (hagree hq).2⟩
    · exact nomatch (hagree hq).1
    · exact nomatch (hagree ((hfg a).before s' hq)).1
    · obtain ⟨hvalue, hstate⟩ := hagree ((hfg a).before s' hq)
      obtain rfl : a = a' := Except.ok.inj hvalue
      exact (hfg a).agree hstate hq

/-- Errors may be changed in the same way. -/
theorem adapt (f : ε → ε') (h : Mirrors P Q x y) : Mirrors P Q (x.adapt f) (y.adapt f) := by
  constructor
  · intro s hq
    rw [outcome_adapt] at hq
    exact h.before s hq
  · intro s t hst hq
    rw [outcome_adapt] at hq
    rw [outcome_adapt, outcome_adapt]
    obtain ⟨hresult, hstate⟩ := h.agree hst hq
    exact ⟨congrArg (Except.mapError f) hresult, hstate⟩

/-- What is decided alike goes on alike. -/
theorem ite {c : Prop} [Decidable c] {x' : ExceptT ε (StateM σ) α} {y' : ExceptT ε (StateM τ) α}
    (h : Mirrors P Q x y) (h' : Mirrors P Q x' y') :
    Mirrors P Q (if c then x else x') (if c then y else y') := by
  split
  · exact h
  · exact h'

/-- A step that only reads and changes the state mirrors another such step if its answers do. -/
theorem lift {x : StateM σ α} {y : StateM τ α} (before : ∀ s, Q (x.run s).2 → Q s)
    (agree : ∀ {s t}, P s t → Q (x.run s).2 →
      (x.run s).1 = (y.run t).1 ∧ P (x.run s).2 (y.run t).2) :
    Mirrors P Q (liftM x : ExceptT ε (StateM σ) α) (liftM y : ExceptT ε (StateM τ) α) :=
  ⟨before, fun hst hq => (agree hst hq).imp_left (congrArg Except.ok)⟩

/-- Steps of an expression mirror each other along sequences, so that trees need not be followed
again. -/
theorem isCongruence : Expr.IsCongruence (σ := σ) (τ := τ) (Mirrors P Q) :=
  ⟨result, bind⟩

end Mirrors
end

/-! ## Those who answer -/

section

variable {L L' σ τ : Type} [Answers L σ] [Answers L' τ]

/-- Two kinds of those who answer say the same. -/
structure Answers.Mirrors (P : σ → τ → Prop) (Q : σ → Prop) (look : L) (look' : L') : Prop where
  parse : ∀ text, LaunchFile.Mirrors P Q (Answers.parse look text) (Answers.parse look' text)
  env : ∀ {ε : Type} name, LaunchFile.Mirrors P Q
    (liftM (Answers.env look name) : ExceptT ε (StateM σ) _) (liftM (Answers.env look' name))
  find : ∀ {ε : Type} package, LaunchFile.Mirrors P Q
    (liftM (Answers.find look package) : ExceptT ε (StateM σ) _)
    (liftM (Answers.find look' package))
  anon : ∀ {ε : Type} seed, LaunchFile.Mirrors P Q
    (liftM (Answers.anon look seed) : ExceptT ε (StateM σ) _) (liftM (Answers.anon look' seed))

variable {P : σ → τ → Prop} {Q : σ → Prop} {look : L} {look' : L'} {scope : Scope}

/-! ## Texts -/

namespace Segment

/-- Expressions in one scope look the same things up. -/
theorem bindings_beside (h : Answers.Mirrors P Q look look') :
    (bindings scope look).Beside (Mirrors P Q) (bindings scope look') where
  toIsCongruence := Mirrors.isCongruence
  arg := rfl
  directory := rfl
  env := h.env
  find := h.find
  anon := h.anon

/-- The text of an expression has the same value, or is refused for the same reason. -/
theorem evalText_mirrors (h : Answers.Mirrors P Q look look') (expression : String) :
    Mirrors P Q (evalText scope look expression) (evalText scope look' expression) := by
  refine .bind (.adapt _ (.bind (.result _) fun tree => ?_)) fun _ => .pure _
  exact Expr.eval_related (bindings_beside h).related tree

mutual

/-- **A segment is resolved to the same text.** The induction is on the segment; the parts of an
expression are a row of segments again. -/
theorem resolve_mirrors (h : Answers.Mirrors P Q look look') : ∀ segment : Segment,
    Mirrors P Q (resolve scope look segment) (resolve scope look' segment)
  | .text s => by
    rw [resolve, resolve]
    exact .pure s
  | .arg name => by
    rw [resolve, resolve]
    exact .result _
  | .env name => by
    rw [resolve, resolve]
    exact .bind (h.env name) fun _ => .result _
  | .optenv name fallback => by
    rw [resolve, resolve]
    exact .bind (h.env name) fun _ => .pure _
  | .find package => by
    rw [resolve, resolve]
    exact .bind (h.find package) fun _ => .result _
  | .anon seed => by
    rw [resolve, resolve]
    exact h.anon seed
  | .dirname => by
    rw [resolve, resolve]
    exact .result _
  | .eval parts => by
    rw [resolve, resolve]
    exact .bind (resolveAll_mirrors h parts) (evalText_mirrors h)

/-- Segments are resolved alike, one after the other. -/
theorem resolveAll_mirrors (h : Answers.Mirrors P Q look look') : ∀ segments : List Segment,
    Mirrors P Q (resolveAll scope look segments) (resolveAll scope look' segments)
  | [] => by
    rw [resolveAll, resolveAll]
    exact .pure ""
  | segment :: rest => by
    rw [resolveAll, resolveAll]
    exact .bind (resolve_mirrors h segment) fun _ =>
      .bind (resolveAll_mirrors h rest) fun _ => .pure _

end

/-- An attribute text resolves to the same text, or is refused for the same reason. -/
theorem evaluate_mirrors (h : Answers.Mirrors P Q look look') (text : String) :
    Mirrors P Q (evaluate scope look text) (evaluate scope look' text) :=
  .bind (h.parse text) (resolveAll_mirrors h)

end Segment
end
end LaunchFile
