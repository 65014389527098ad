import LaunchFile.Except
import LaunchFile.Walk

/-!
# Proofs/Lockstep — two steps side by side

Steps of a run and steps of a walk are of one kind: they end in a result or an error and leave a
state behind in either case. `Outcome.Agree` says that two outcomes match: both are results that are
related, or both are the same error, and the states behind them are related; `excused` names errors
of the first that the second need not answer. `Lockstep` says it of two steps from all related
states. The rule for sequences (`Outcome.Agree.bind`) hands on which outcome the first parts had, so
that what is known of the first run alone can be used at each step.
-/

namespace LaunchFile

section

variable {ε σ τ α β γ δ : Type}

/-! ## Outcomes -/

/-- What a step ends in, and the state behind it. -/
def outcome (step : ExceptT ε (StateM σ) α) (state : σ) : Except ε α × σ :=
  step.run state

/-- A step can end in this result, from some state. -/
def Yields (step : ExceptT ε (StateM σ) α) (a : α) : Prop :=
  ∃ before behind, outcome step before = (.ok a, behind)

/-- **A sequence stops at the first error.** -/
theorem outcome_bind (x : ExceptT ε (StateM σ) α) (f : α → ExceptT ε (StateM σ) β) (s : σ) :
    outcome (x >>= f) s =
      match outcome x s with
      | (.ok a, s') => outcome (f a) s'
      | (.error e, s') => (.error e, s') := by
  change (match x.run s with | (r, s') => ExceptT.bindCont f r s') = _
  rw [outcome]
  rcases x.run s with ⟨a | e, s'⟩ <;> rfl

/-- A sequence goes on behind a result. -/
theorem outcome_bind_ok {x : ExceptT ε (StateM σ) α} {s s' : σ} {a : α}
    (h : outcome x s = (.ok a, s')) (f : α → ExceptT ε (StateM σ) β) :
    outcome (x >>= f) s = outcome (f a) s' := by
  rw [outcome_bind, h]

/-- A sequence ends with an error of its first part. -/
theorem outcome_bind_error {x : ExceptT ε (StateM σ) α} {s s' : σ} {e : ε}
    (h : outcome x s = (.error e, s')) (f : α → ExceptT ε (StateM σ) β) :
    outcome (x >>= f) s = (.error e, s') := by
  rw [outcome_bind, h]

/-- A sequence that ends in a result went through one of its first part. -/
theorem outcome_bind_eq_ok {x : ExceptT ε (StateM σ) α} {f : α → ExceptT ε (StateM σ) β}
    {s t : σ} {b : β} (h : outcome (x >>= f) s = (.ok b, t)) :
    ∃ a u, outcome x s = (.ok a, u) ∧ outcome (f a) u = (.ok b, t) := by
  rw [outcome_bind] at h
  rcases hx : outcome x s with ⟨e | a, u⟩ <;> rw [hx] at h
  · cases h
  · exact ⟨a, u, rfl, h⟩

/-- A sequence that ends in an error does so in its first part, or behind a result of it. -/
theorem outcome_bind_eq_error {x : ExceptT ε (StateM σ) α} {f : α → ExceptT ε (StateM σ) β}
    {s t : σ} {e : ε} (h : outcome (x >>= f) s = (.error e, t)) :
    outcome x s = (.error e, t) ∨
      ∃ a u, outcome x s = (.ok a, u) ∧ outcome (f a) u = (.error e, t) := by
  rw [outcome_bind] at h
  rcases hx : outcome x s with ⟨e' | a, u⟩ <;> rw [hx] at h
  · cases h
    exact .inl rfl
  · exact .inr ⟨a, u, rfl, h⟩

/-- What holds of the state behind the first part of a sequence, and is kept by what follows if
there is a result, holds behind the sequence. -/
theorem outcome_bind_state {x : ExceptT ε (StateM σ) α} {f : α → ExceptT ε (StateM σ) β}
    {s : σ} {P : σ → Prop} (hx : P (outcome x s).2)
    (hf : ∀ a t, outcome x s = (.ok a, t) → P t → P (outcome (f a) t).2) :
    P (outcome (x >>= f) s).2 := by
  rw [outcome_bind]
  rcases hout : outcome x s with ⟨e | a, t⟩ <;> rw [hout] at hx
  · exact hx
  · exact hf a t hout hx

/-- A sequence yields what its second part does behind something that its first part yields. -/
theorem Yields.of_bind {x : ExceptT ε (StateM σ) α} {f : α → ExceptT ε (StateM σ) β} {b : β}
    (h : Yields (x >>= f) b) : ∃ a, Yields x a ∧ Yields (f a) b := by
  obtain ⟨before, behind, h⟩ := h
  obtain ⟨a, after, hx, hf⟩ := outcome_bind_eq_ok h
  exact ⟨a, ⟨before, after, hx⟩, ⟨after, behind, hf⟩⟩

theorem Yields.eq_of_pure {a b : α} (h : Yields (pure a : ExceptT ε (StateM σ) α) b) : a = b := by
  obtain ⟨before, behind, h⟩ := h
  exact Except.ok.inj (congrArg Prod.fst h)

/-- Two outcomes match. -/
def Outcome.Agree (excused : ε → Prop) (P : σ → τ → Prop) (R : α → β → Prop) :
    Except ε α × σ → Except ε β × τ → Prop
  | (.ok a, s), (.ok b, t) => R a b ∧ P s t
  | (.error e, s), (.error e', t) => excused e ∨ (e = e' ∧ P s t)
  | (.error e, _), (.ok _, _) => excused e
  | (.ok _, _), (.error _, _) => False

namespace Outcome.Agree

variable {excused : ε → Prop} {P : σ → τ → Prop} {R : α → β → Prop} {S : γ → δ → Prop}

/-- **Sequences match if their first parts do and what follows does, given how these ended.** -/
theorem bind {x : ExceptT ε (StateM σ) α} {y : ExceptT ε (StateM τ) β}
    {f : α → ExceptT ε (StateM σ) γ} {g : β → ExceptT ε (StateM τ) δ} {s : σ} {t : τ}
    (hxy : Outcome.Agree excused P R (outcome x s) (outcome y t))
    (hfg : ∀ a b s' t', outcome x s = (.ok a, s') → R a b → P s' t' →
      Outcome.Agree excused P S (outcome (f a) s') (outcome (g b) t')) :
    Outcome.Agree excused P S (outcome (x >>= f) s) (outcome (y >>= g) t) := by
  rw [outcome_bind, outcome_bind]
  rcases hx : outcome x s with ⟨e | a, s'⟩ <;> rcases hy : outcome y t with ⟨e' | b, t'⟩ <;>
    rw [hx, hy] at hxy
  · exact hxy
  · -- an excused error of the first; whatever the second goes on to do is no matter
    show Outcome.Agree excused P S (.error e, s') (outcome (g b) t')
    rcases outcome (g b) t' with ⟨e' | d, t''⟩
    · exact .inl hxy
    · exact hxy
  · exact hxy.elim
  · exact hfg a b s' t' hx hxy.1 hxy.2

/-- What is known of the first outcome alone may be used. -/
theorem imp {R' : α → β → Prop} {o : Except ε α × σ} {o' : Except ε β × τ}
    (h : Outcome.Agree excused P R o o') (hR : ∀ a b s, o = (.ok a, s) → R a b → R' a b) :
    Outcome.Agree excused P R' o o' := by
  rcases o with ⟨e | a, s⟩ <;> rcases o' with ⟨e' | b, t⟩
  · exact h
  · exact h
  · exact h
  · exact ⟨hR a b s rfl h.1, h.2⟩

/-- More may be excused. -/
theorem mono {excused' : ε → Prop} {o : Except ε α × σ} {o' : Except ε β × τ}
    (h : Outcome.Agree excused P R o o') (hexcused : ∀ e, excused e → excused' e) :
    Outcome.Agree excused' P R o o' := by
  rcases o with ⟨e | a, s⟩ <;> rcases o' with ⟨e' | b, t⟩
  · exact Or.imp_left (hexcused e) h
  · exact hexcused e h
  · exact h
  · exact h

/-- Where nothing is excused, one outcome determines the other. -/
theorem eq_map {g : α → β} {o : Except ε α × σ} {o' : Except ε β × σ}
    (h : Outcome.Agree (fun _ => False) Eq (fun a b => b = g a) o o') : o' = (o.1.map g, o.2) := by
  rcases o with ⟨e | a, s⟩ <;> rcases o' with ⟨e' | b, t⟩
  · obtain ⟨rfl, rfl⟩ := Or.resolve_left h id
    rfl
  · exact False.elim h
  · exact False.elim h
  · obtain ⟨rfl, rfl⟩ := h
    rfl

/-- Where nothing is excused, matching results are equal and the states related. -/
theorem eq_and_state {o : Except ε α × σ} {o' : Except ε α × τ}
    (h : Outcome.Agree (fun _ => False) P Eq o o') : o.1 = o'.1 ∧ P o.2 o'.2 := by
  rcases o with ⟨e | a, s⟩ <;> rcases o' with ⟨e' | b, t⟩
  · exact And.imp_left (congrArg Except.error) (Or.resolve_left h id)
  · exact False.elim h
  · exact False.elim h
  · exact And.imp_left (congrArg Except.ok) h

/-- What is done to the states behind two steps keeps the outcomes matching. -/
theorem mapState {σ' τ' : Type} {P' : σ' → τ' → Prop} (g : σ → σ') (g' : τ → τ')
    {o : Except ε α × σ} {o' : Except ε β × τ} (h : Outcome.Agree excused P R o o')
    (hP : ∀ s t, P s t → P' (g s) (g' t)) :
    Outcome.Agree excused P' R (o.1, g o.2) (o'.1, g' o'.2) := by
  rcases o with ⟨e | a, s⟩ <;> rcases o' with ⟨e' | b, t⟩
  · exact Or.imp_right (fun h => ⟨h.1, hP s t h.2⟩) h
  · exact h
  · exact h
  · exact ⟨h.1, hP s t h.2⟩

end Outcome.Agree

/-! ## Steps -/

/-- Two steps match from all related states. -/
def Lockstep (excused : ε → Prop) (P : σ → τ → Prop) (R : α → β → Prop)
    (x : ExceptT ε (StateM σ) α) (y : ExceptT ε (StateM τ) β) : Prop :=
  ∀ s t, P s t → Outcome.Agree excused P R (outcome x s) (outcome y t)

namespace Lockstep

variable {excused : ε → Prop} {P : σ → τ → Prop} {R : α → β → Prop} {S : γ → δ → Prop}

/-- Values that are related match. -/
theorem pure {a : α} {b : β} (h : R a b) :
    Lockstep excused P R (Pure.pure a) (Pure.pure b) :=
  fun _ _ hst => ⟨h, hst⟩

/-- **Sequences match if their first parts do**, and what follows does from what they yield. -/
theorem bind {x : ExceptT ε (StateM σ) α} {y : ExceptT ε (StateM τ) β}
    {f : α → ExceptT ε (StateM σ) γ} {g : β → ExceptT ε (StateM τ) δ}
    (hxy : Lockstep excused P R x y)
    (hfg : ∀ a b, Yields x a → R a b → Lockstep excused P S (f a) (g b)) :
    Lockstep excused P S (x >>= f) (y >>= g) := fun s t hst =>
  (hxy s t hst).bind fun a b s' t' hx hab hst' => hfg a b ⟨s, s', hx⟩ hab s' t' hst'

/-- Two sequences whose first parts have the same results. -/
theorem bind_eq {x : ExceptT ε (StateM σ) α} {y : ExceptT ε (StateM τ) α}
    {f : α → ExceptT ε (StateM σ) γ} {g : α → ExceptT ε (StateM τ) δ}
    (hxy : Lockstep excused P Eq x y)
    (hfg : ∀ a, Yields x a → Lockstep excused P S (f a) (g a)) :
    Lockstep excused P S (x >>= f) (y >>= g) :=
  hxy.bind fun a _ hx hab => hab ▸ hfg a hx

/-- A step matches itself. -/
theorem refl (x : ExceptT ε (StateM σ) α) : Lockstep excused Eq Eq x x := by
  rintro s _ rfl
  rcases outcome x s with ⟨e | a, s'⟩
  · exact .inr ⟨rfl, rfl⟩
  · exact ⟨rfl, rfl⟩

/-- Two sequences that begin with the same step. -/
theorem bind_same {x : ExceptT ε (StateM σ) α} {f : α → ExceptT ε (StateM σ) γ}
    {g : α → ExceptT ε (StateM σ) δ}
    (hfg : ∀ a, Yields x a → Lockstep excused Eq S (f a) (g a)) :
    Lockstep excused Eq S (x >>= f) (x >>= g) :=
  (refl x).bind_eq hfg

end Lockstep

/-! ## Results -/

/-- A result without a state leaves the state as it is. -/
theorem eq_ok_of_outcome {r : Except ε α} {a : α} {s s' : σ}
    (h : outcome (liftM r : ExceptT ε (StateM σ) α) s = (.ok a, s')) : r = .ok a ∧ s' = s := by
  cases r with
  | error e => cases h
  | ok b => exact ⟨congrArg Except.ok (Except.ok.inj (congrArg Prod.fst h)),
      (congrArg Prod.snd h).symm⟩

/-- So does an error without a state. -/
theorem eq_error_of_outcome {r : Except ε α} {e : ε} {s s' : σ}
    (h : outcome (liftM r : ExceptT ε (StateM σ) α) s = (.error e, s')) :
    r = .error e ∧ s' = s := by
  cases r with
  | error e' => exact ⟨congrArg Except.error (Except.error.inj (congrArg Prod.fst h)),
      (congrArg Prod.snd h).symm⟩
  | ok a => cases h

theorem Yields.eq_ok {r : Except ε α} {a : α}
    (h : Yields (liftM r : ExceptT ε (StateM σ) α) a) : r = .ok a := by
  obtain ⟨before, behind, h⟩ := h
  exact (eq_ok_of_outcome h).1

/-- Two results without a state match: related, or the same error. -/
def Except.Agree (R : α → β → Prop) : Except ε α → Except ε β → Prop
  | .ok a, .ok b => R a b
  | .error e, .error e' => e = e'
  | _, _ => False

/-- Results that match are steps that match. -/
theorem Except.Agree.lockstep {excused : ε → Prop} {P : σ → τ → Prop} {R : α → β → Prop}
    {r : Except ε α} {r' : Except ε β} (h : Except.Agree R r r') :
    Lockstep excused P R (liftM r : ExceptT ε (StateM σ) α)
      (liftM r' : ExceptT ε (StateM τ) β) := by
  intro s t hst
  rcases r with e | a <;> rcases r' with e' | b
  · exact .inr ⟨h, hst⟩
  · exact h.elim
  · exact h.elim
  · exact ⟨h, hst⟩

/-- A result without a state matches itself. -/
theorem Lockstep.result {excused : ε → Prop} {P : σ → τ → Prop} (r : Except ε α) :
    Lockstep excused P Eq (liftM r : ExceptT ε (StateM σ) α)
      (liftM r : ExceptT ε (StateM τ) α) :=
  Except.Agree.lockstep (by cases r <;> rfl)

/-- An error matches itself. -/
theorem Lockstep.error {excused : ε → Prop} {P : σ → τ → Prop} {R : α → β → Prop} (e : ε) :
    Lockstep excused P R (liftM (.error e : Except ε α) : ExceptT ε (StateM σ) α)
      (liftM (.error e : Except ε β) : ExceptT ε (StateM τ) β) :=
  Except.Agree.lockstep rfl

end

/-! ## Places -/

section

variable {σ τ α β : Type} {excused : LaunchError → Prop} {P : σ → τ → Prop} {R : α → β → Prop}

/-- What is done to errors is done to the outcome. -/
theorem outcome_adapt {ε ε' : Type} (f : ε → ε') (x : ExceptT ε (StateM σ) α) (s : σ) :
    outcome (x.adapt f) s = ((outcome x s).1.mapError f, (outcome x s).2) := by
  change (match x.run s with | (r, s') => ((r.mapError f : Except ε' α), s')) = _
  rw [outcome]
  rcases x.run s with ⟨r, s'⟩
  rfl

/-- What is done to errors is no matter to a result. -/
theorem outcome_adapt_eq_ok {ε ε' : Type} {f : ε → ε'} {x : ExceptT ε (StateM σ) α} {s t : σ}
    {a : α} (h : outcome (x.adapt f) s = (.ok a, t)) : outcome x s = (.ok a, t) := by
  rw [outcome_adapt] at h
  rcases hx : outcome x s with ⟨e | b, u⟩ <;> rw [hx] at h
  · cases h
  · cases h
    rfl

/-- An error that was changed comes of one. -/
theorem outcome_adapt_eq_error {ε ε' : Type} {f : ε → ε'} {x : ExceptT ε (StateM σ) α} {s t : σ}
    {e' : ε'} (h : outcome (x.adapt f) s = (.error e', t)) :
    ∃ e, outcome x s = (.error e, t) ∧ f e = e' := by
  rw [outcome_adapt] at h
  rcases hx : outcome x s with ⟨e | a, u⟩ <;> rw [hx] at h
  · cases h
    exact ⟨e, rfl, rfl⟩
  · cases h

theorem Yields.of_adapt {ε ε' σ α : Type} {f : ε → ε'} {x : ExceptT ε (StateM σ) α} {a : α}
    (h : Yields (x.adapt f) a) : Yields x a := by
  obtain ⟨before, after, h⟩ := h
  rw [outcome_adapt] at h
  rcases hx : outcome x before with ⟨err | b, t⟩ <;> rw [hx] at h
  · cases h
  · cases h
    exact ⟨before, t, hx⟩

/-- Errors that get the same place keep matching, and are excused if they are with that place. -/
theorem Outcome.Agree.locate {inner : LaunchError → Prop} {x : ExceptT LaunchError (StateM σ) α}
    {y : ExceptT LaunchError (StateM τ) β} {s : σ} {t : τ} (location : Location)
    (hexcused : ∀ e, inner e → excused (e.locate location))
    (h : Outcome.Agree inner P R (outcome x s) (outcome y t)) :
    Outcome.Agree excused P R (outcome (x.adapt (·.locate location)) s)
      (outcome (y.adapt (·.locate location)) t) := by
  rw [outcome_adapt, outcome_adapt]
  rcases hx : outcome x s with ⟨e | a, s'⟩ <;> rcases hy : outcome y t with ⟨e' | b, t'⟩ <;>
    rw [hx, hy] at h
  · exact Or.imp (hexcused e) (fun h => ⟨congrArg (·.locate location) h.1, h.2⟩) h
  · exact hexcused e h
  · exact False.elim h
  · exact h

/-- Steps that get the same place keep matching. -/
theorem Lockstep.locate {inner : LaunchError → Prop} {x : ExceptT LaunchError (StateM σ) α}
    {y : ExceptT LaunchError (StateM τ) β} (location : Location)
    (hexcused : ∀ e, inner e → excused (e.locate location)) (h : Lockstep inner P R x y) :
    Lockstep excused P R (x.adapt (·.locate location)) (y.adapt (·.locate location)) :=
  fun s t hst => (h s t hst).locate location hexcused

end
end LaunchFile
