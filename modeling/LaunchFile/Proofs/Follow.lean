import LaunchFile.Proofs.Walk.Moment

/-!
# Proofs/Follow — steps that follow others where these succeed

A step follows another if it has a related result, with the same state behind, wherever the other
has one (`Follows`). What it does where the other fails is no matter; so it may know more than the
other does.
-/

namespace LaunchFile

section

variable {ε σ α β γ δ : Type}

/-- Where the first step has a result from this state, so has the second, with the same state
behind. -/
def Follows (R : α → β → Prop) (x : ExceptT ε (StateM σ) α) (y : ExceptT ε (StateM σ) β)
    (s : σ) : Prop :=
  ∀ a t, outcome x s = (.ok a, t) → ∃ b, outcome y s = (.ok b, t) ∧ R a b

namespace Follows

variable {R R' : α → β → Prop} {S : γ → δ → Prop} {x : ExceptT ε (StateM σ) α}
  {y : ExceptT ε (StateM σ) β} {s : σ}

theorem refl (x : ExceptT ε (StateM σ) α) (s : σ) : Follows Eq x x s :=
  fun a _ h => ⟨a, h, rfl⟩

theorem pure {a : α} {b : β} (h : R a b) :
    Follows R (Pure.pure a : ExceptT ε (StateM σ) α) (Pure.pure b) s := by
  intro a' t hok
  cases hok
  exact ⟨b, rfl, h⟩

/-- A step that fails is followed by anything. -/
theorem of_error {e : ε} (h : (outcome x s).1 = .error e) : Follows R x y s := by
  intro a t hok
  rw [hok] at h
  cases h

/-- **Sequences follow if their first parts do and what follows does, given how these ended.** -/
theorem bind {f : α → ExceptT ε (StateM σ) γ} {g : β → ExceptT ε (StateM σ) δ}
    (hxy : Follows R x y s)
    (hfg : ∀ a b t, outcome x s = (.ok a, t) → outcome y s = (.ok b, t) → R a b →
      Follows S (f a) (g b) t) : Follows S (x >>= f) (y >>= g) s := by
  intro c u hok
  obtain ⟨a, t, hx, hf⟩ := outcome_bind_eq_ok hok
  obtain ⟨b, hy, hab⟩ := hxy a t hx
  obtain ⟨d, hg, hcd⟩ := hfg a b t hx hy hab c u hf
  exact ⟨d, (outcome_bind_ok hy g).trans hg, hcd⟩

/-- Two sequences that begin with the same step. -/
theorem bind_same {f : α → ExceptT ε (StateM σ) γ} {g : α → ExceptT ε (StateM σ) δ}
    (hfg : ∀ a t, outcome x s = (.ok a, t) → Follows S (f a) (g a) t) :
    Follows S (x >>= f) (x >>= g) s :=
  (refl x s).bind fun a _ t hx _ hab => hab ▸ hfg a t hx

theorem bind_eq {x y : ExceptT ε (StateM σ) α} {f : α → ExceptT ε (StateM σ) γ}
    {g : α → ExceptT ε (StateM σ) δ} (hxy : Follows Eq x y s)
    (hfg : ∀ a t, outcome x s = (.ok a, t) → Follows S (f a) (g a) t) :
    Follows S (x >>= f) (y >>= g) s :=
  hxy.bind fun a _ t hx _ hab => hab ▸ hfg a t hx

theorem imp (h : Follows R x y s)
    (hR : ∀ a b t, outcome x s = (.ok a, t) → outcome y s = (.ok b, t) → R a b → R' a b) :
    Follows R' x y s := by
  intro a t hx
  obtain ⟨b, hy, hab⟩ := h a t hx
  exact ⟨b, hy, hR a b t hx hy hab⟩

theorem of_eq {x y : ExceptT ε (StateM σ) α} (h : y = x) : Follows Eq x y s :=
  h ▸ refl x s

/-- Steps in lockstep follow each other. -/
theorem of_lockstep (h : Lockstep (fun _ => False) Eq R x y) (s : σ) : Follows R x y s := by
  intro a t hx
  have hxy := h s s rfl
  rw [hx] at hxy
  rcases hy : outcome y s with ⟨e | b, u⟩ <;> rw [hy] at hxy
  · exact hxy.elim
  · obtain ⟨hab, rfl⟩ := hxy
    exact ⟨b, rfl, hab⟩

theorem adapt {ε' : Type} {f g : ε → ε'} (h : Follows R x y s) :
    Follows R (x.adapt f) (y.adapt g) s := by
  intro a t hx
  rw [outcome_adapt] at hx ⊢
  rcases hout : outcome x s with ⟨e | a', u⟩ <;> rw [hout] at hx
  · cases hx
  · cases hx
    obtain ⟨b, hy, hab⟩ := h _ _ hout
    exact ⟨b, by rw [hy]; rfl, hab⟩

theorem result {r : Except ε α} {r' : Except ε β} (h : ∀ a, r = .ok a → ∃ b, r' = .ok b ∧ R a b) :
    Follows R (liftM r : ExceptT ε (StateM σ) α) (liftM r' : ExceptT ε (StateM σ) β) s := by
  intro a t hx
  obtain ⟨hr, rfl⟩ := eq_ok_of_outcome hx
  obtain ⟨b, rfl, hab⟩ := h a hr
  exact ⟨b, rfl, hab⟩

end Follows
end

theorem Follows.ofLaunch {α β : Type} {R : α → β → Prop} {x : LaunchM α} {y : LaunchM β}
    {s : WalkState} (h : Follows R x y s.registry) :
    Follows R (WalkT.ofLaunch x) (WalkT.ofLaunch y) s := by
  intro a t hx
  rw [WalkT.outcome_ofLaunch] at hx ⊢
  rcases hout : outcome x s.registry with ⟨e | a', r⟩ <;> rw [hout] at hx
  · cases hx
  · cases hx
    obtain ⟨b, hy, hab⟩ := h _ _ hout
    exact ⟨b, by rw [hy], hab⟩

end LaunchFile
