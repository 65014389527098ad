import LaunchFile.Proofs.Lockstep

/-!
# Proofs/Keeps — what a step keeps, and the errors that it can end in

`Keeps P p step` says that a step keeps what holds of the state, also behind an error, and that its
errors are of a kind. The errors of a step are those of its parts.
-/

namespace LaunchFile

section

variable {ε ε' σ α β : Type} {P : σ → Prop} {p q : ε → Prop}

/-- A result, or an error of this kind. -/
structure Except.Faults (p : ε → Prop) (r : Except ε α) : Prop where
  of_error : ∀ e, r = .error e → p e

/-- A success has no error. -/
@[simp] theorem Except.Faults.ok (a : α) : Except.Faults p (.ok a : Except ε α) :=
  ⟨fun _ h => nomatch h⟩

/-- An error is the only one of its result. -/
theorem Except.Faults.error {e : ε} (h : p e) : Except.Faults p (.error e : Except ε α) :=
  ⟨fun _ heq => Except.error.inj heq ▸ h⟩

/-- Any error is of the kind of all errors. -/
theorem Except.Faults.any (r : Except ε α) : Except.Faults (fun _ => True) r :=
  ⟨fun _ _ => trivial⟩

/-- Errors of a kind are of any wider kind. -/
theorem Except.Faults.mono {r : Except ε α} (h : Except.Faults p r) (hp : ∀ e, p e → q e) :
    Except.Faults q r :=
  ⟨fun e he => hp e (h.of_error e he)⟩

/-- Errors of a sequence are those of its two parts. -/
theorem Except.Faults.bind {r : Except ε α} {f : α → Except ε β} (h : Except.Faults p r)
    (hf : ∀ a, Except.Faults p (f a)) : Except.Faults p (r >>= f) := by
  cases r with
  | error e => exact .error (h.of_error e rfl)
  | ok a => exact hf a

/-- A value that is changed adds no errors. -/
theorem Except.Faults.map {r : Except ε α} (h : Except.Faults p r) (f : α → β) :
    Except.Faults p (r.map f) := by
  cases r with
  | error e => exact .error (h.of_error e rfl)
  | ok a => exact .ok (f a)

/-- A state with `P`, and no error or one of this kind. -/
def Outcome.Keeps (P : σ → Prop) (p : ε → Prop) : Except ε α × σ → Prop
  | (.ok _, t) => P t
  | (.error e, t) => p e ∧ P t

/-- From a state with `P`, a step ends in a state with `P`, and its errors are of this kind. -/
structure Keeps (P : σ → Prop) (p : ε → Prop) (x : ExceptT ε (StateM σ) α) : Prop where
  run : ∀ s, P s → Outcome.Keeps P p (outcome x s)

namespace Keeps

/-- A value changes no state and has no error. -/
theorem pure (a : α) : Keeps P p (Pure.pure a : ExceptT ε (StateM σ) α) :=
  ⟨fun _ hs => hs⟩

/-- A throw changes no state. -/
theorem throw {e : ε} (h : p e) : Keeps P p (MonadExcept.throw e : ExceptT ε (StateM σ) α) :=
  ⟨fun _ hs => ⟨h, hs⟩⟩

/-- What two steps keep, their sequence keeps. -/
theorem bind {x : ExceptT ε (StateM σ) α} {f : α → ExceptT ε (StateM σ) β} (h : Keeps P p x)
    (hf : ∀ a, Keeps P p (f a)) : Keeps P p (x >>= f) := by
  refine ⟨fun s hs => ?_⟩
  have hx := h.run s hs
  rw [outcome_bind]
  rcases hout : outcome x s with ⟨e | a, t⟩ <;> rw [hout] at hx
  · exact hx
  · exact (hf a).run t hx

/-- A result changes no state. -/
theorem result {r : Except ε α} (h : Except.Faults p r) :
    Keeps P p (liftM r : ExceptT ε (StateM σ) α) := by
  refine ⟨fun s hs => ?_⟩
  cases r with
  | error e => exact ⟨h.of_error e rfl, hs⟩
  | ok a => exact hs

/-- Errors of a kind are of any wider kind. -/
theorem mono {x : ExceptT ε (StateM σ) α} (h : Keeps P p x) (hp : ∀ e, p e → q e) :
    Keeps P q x := by
  refine ⟨fun s hs => ?_⟩
  have hx := h.run s hs
  rcases hout : outcome x s with ⟨e | a, t⟩ <;> rw [hout] at hx
  · exact ⟨hp e hx.1, hx.2⟩
  · exact hx

/-- Errors that are changed, and with them their kind. -/
theorem adapt {p' : ε' → Prop} {x : ExceptT ε (StateM σ) α} (f : ε → ε') (h : Keeps P p x)
    (hf : ∀ e, p e → p' (f e)) : Keeps P p' (x.adapt f) := by
  refine ⟨fun s hs => ?_⟩
  have hx := h.run s hs
  rw [outcome_adapt]
  rcases hout : outcome x s with ⟨e | a, t⟩ <;> rw [hout] at hx
  · exact ⟨hf e hx.1, hx.2⟩
  · exact hx

/-- The error of a step that ends in one. -/
theorem of_error {x : ExceptT ε (StateM σ) α} (h : Keeps P p x) {s t : σ} {e : ε} (hs : P s)
    (hout : outcome x s = (.error e, t)) : p e := by
  have hx := h.run s hs
  rw [hout] at hx
  exact hx.1

/-- The state behind a step, whatever it ends in. -/
theorem state {x : ExceptT ε (StateM σ) α} (h : Keeps P p x) {s : σ} (hs : P s) :
    P (outcome x s).2 := by
  have hx := h.run s hs
  rcases hout : outcome x s with ⟨e | a, t⟩ <;> rw [hout] at hx
  · exact hx.2
  · exact hx

end Keeps
end
end LaunchFile
