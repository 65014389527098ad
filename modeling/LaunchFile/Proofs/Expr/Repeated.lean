import LaunchFile.Proofs.Anon
import LaunchFile.Proofs.Lockstep
import LaunchFile.Proofs.Expr.Related
import LaunchFile.Substitution.Resolve

/-!
# Proofs/Expr/Repeated — an expression that is evaluated again has the same value

`Bindings.Repeats` says that what was asked for before is answered as it was then, and that nothing
tells later on that it was asked for again. What is evaluated from states that answer alike
is the same (`eval_alike`), and a tree that has a value keeps it when more has been looked up since
(`eval_again`). The look-ups of a scope are of this kind, whatever the registry of made-up names.
-/

namespace LaunchFile
namespace Expr

section

variable {σ α β : Type} {b : Bindings σ} {s t u : σ} {q : Question}

/-! ## Questions -/

/-- What an expression may ask for. -/
inductive Question where
  | env (name : String)
  | find (name : String)
  | anon (seed : String)

namespace Bindings

/-- Put a question. -/
def put (b : Bindings σ) : Question → StateM σ (Option String)
  | .env name => b.env name
  | .find name => b.find name
  | .anon seed => some <$> b.anon seed

/-- The answer to a question. -/
def answer (b : Bindings σ) (q : Question) (s : σ) : Option String :=
  ((b.put q).run s).1

/-- The state behind a question. -/
def ask (b : Bindings σ) (q : Question) (s : σ) : σ :=
  ((b.put q).run s).2

/-- The state behind a row of questions. -/
def after (b : Bindings σ) (questions : List Question) (s : σ) : σ :=
  questions.foldl (fun s q => b.ask q s) s

/-- One state becomes another by questions alone. -/
def Reaches (b : Bindings σ) (s t : σ) : Prop :=
  ∃ questions, t = b.after questions s

/-- No row of questions is answered differently from the two states. -/
def Alike (b : Bindings σ) (s t : σ) : Prop :=
  ∀ questions q, b.answer q (b.after questions s) = b.answer q (b.after questions t)

/-- A question that was asked before gets the same answer, and all later answers are as if it had
not been asked again. -/
structure Repeats (b : Bindings σ) : Prop where
  answer : ∀ {q s t}, b.Reaches (b.ask q s) t → b.answer q t = b.answer q s
  alike : ∀ {q s t}, b.Reaches (b.ask q s) t → b.Alike (b.ask q t) t

namespace Reaches

theorem refl (s : σ) : b.Reaches s s :=
  ⟨[], rfl⟩

/-- Rows of questions may be put behind one another. -/
theorem trans (h : b.Reaches s t) (h' : b.Reaches t u) : b.Reaches s u := by
  obtain ⟨questions, rfl⟩ := h
  obtain ⟨questions', rfl⟩ := h'
  exact ⟨questions ++ questions', (List.foldl_append ..).symm⟩

/-- One question leads to the state behind it. -/
theorem ask (q : Question) (s : σ) : b.Reaches s (b.ask q s) :=
  ⟨[q], rfl⟩

/-- What each question keeps, a row of them does. -/
theorem induction {P : σ → Prop} (hP : ∀ q s, P s → P (b.ask q s)) (h : b.Reaches s t)
    (hs : P s) : P t := by
  obtain ⟨questions, rfl⟩ := h
  induction questions generalizing s with
  | nil => exact hs
  | cons q rest ih => exact ih (hP q s hs)

end Reaches

namespace Alike

theorem refl (s : σ) : b.Alike s s :=
  fun _ _ => rfl

/-- States that are alike are so in either order. -/
theorem symm (h : b.Alike s t) : b.Alike t s :=
  fun questions q => (h questions q).symm

/-- States that are alike to one state are alike. -/
theorem trans (h : b.Alike s t) (h' : b.Alike t u) : b.Alike s u :=
  fun questions q => (h questions q).trans (h' questions q)

/-- The next question has the same answer. -/
theorem answer (h : b.Alike s t) (q : Question) : b.answer q s = b.answer q t :=
  h [] q

/-- States that are alike stay so behind the same question. -/
theorem ask (h : b.Alike s t) (q : Question) : b.Alike (b.ask q s) (b.ask q t) :=
  fun questions other => h (q :: questions) other

end Alike
end Bindings

/-! ## Evaluation from states that answer alike -/

/-- Two steps from states that answer alike have the same outcome, but for that. -/
abbrev SameFromAlike (b : Bindings σ) {α : Type} (x y : EvalM σ α) : Prop :=
  Lockstep (fun _ => False) b.Alike Eq x y

/-- From states that are alike the same is looked up. -/
theorem beside_sameFromAlike (b : Bindings σ) : b.Beside (SameFromAlike b) b where
  result r := .result r
  bind hx hf := hx.bind_eq fun a _ => hf a
  arg := rfl
  directory := rfl
  env name _ _ halike := ⟨halike.answer (.env name), halike.ask (.env name)⟩
  find name _ _ halike := ⟨halike.answer (.find name), halike.ask (.find name)⟩
  anon seed _ _ halike := ⟨Option.some.inj (halike.answer (.anon seed)), halike.ask (.anon seed)⟩

/-- **From states that are alike a tree has the same value**, and the states behind it are alike. -/
theorem eval_alike (b : Bindings σ) (tree : Tree) :
    SameFromAlike b (eval b tree) (eval b tree) :=
  eval_related (beside_sameFromAlike b).related tree

/-! ## Evaluation once more -/

/-- Whatever has been asked since this state, the step has this result and nothing tells later on
that it was taken. -/
def Settled (b : Bindings σ) (x : EvalM σ α) (a : α) (s : σ) : Prop :=
  ∀ t, b.Reaches s t → ∃ u, outcome x t = (.ok a, u) ∧ b.Reaches t u ∧ b.Alike u t

/-- What is settled stays settled. -/
theorem Settled.mono {x : EvalM σ α} {a : α} (h : Settled b x a s) (hst : b.Reaches s t) :
    Settled b x a t :=
  fun u htu => h u (hst.trans htu)

/-- A sequence is settled if its parts are. -/
theorem Settled.bind {x : EvalM σ α} {f : α → EvalM σ β} {a : α} {c : β}
    (hx : Settled b x a s) (hf : Settled b (f a) c s) : Settled b (x >>= f) c s := by
  intro t hst
  obtain ⟨u, hxt, htu, halike⟩ := hx t hst
  obtain ⟨v, hfu, huv, halike'⟩ := hf u (hst.trans htu)
  exact ⟨v, (outcome_bind_ok hxt f).trans hfu, htu.trans huv, halike'.trans halike⟩

/-- A step that has a result asks questions alone, and is settled behind them. -/
def Settles (b : Bindings σ) {α : Type} (x : EvalM σ α) : Prop :=
  ∀ s a t, outcome x s = (.ok a, t) → b.Reaches s t ∧ Settled b x a t

/-- A question whose answer the step has as its result is settled. -/
theorem settles_of_put (hb : b.Repeats) (q : Question) {x : EvalM σ α} {f : α → Option String}
    (hf : Function.Injective f)
    (hx : ∀ s, ∃ a, f a = b.answer q s ∧ outcome x s = (.ok a, b.ask q s)) : Settles b x := by
  intro s a t hok
  obtain ⟨a, ha, hs⟩ := hx s
  obtain ⟨rfl, rfl⟩ := Prod.mk.inj (hs.symm.trans hok) |>.imp Except.ok.inj id
  refine ⟨.ask q s, fun u hreach => ⟨b.ask q u, ?_, .ask q u, hb.alike hreach⟩⟩
  obtain ⟨a', ha', hu⟩ := hx u
  obtain rfl : a' = a := hf (ha'.trans ((hb.answer hreach).trans ha.symm))
  exact hu

/-- Looking something up settles it, if it is answered alike from then on. -/
theorem beside_settles (hb : b.Repeats) :
    b.Beside (fun {α} (x _ : EvalM σ α) => Settles b x) b where
  result r s a t hok := by
    obtain ⟨rfl, rfl⟩ := eq_ok_of_outcome hok
    exact ⟨.refl _, fun u _ => ⟨u, rfl, .refl u, .refl u⟩⟩
  bind hx hf s c t hok := by
    obtain ⟨a, u, hxs, hfu⟩ := outcome_bind_eq_ok hok
    obtain ⟨hsu, hsettled⟩ := hx s a u hxs
    obtain ⟨hut, hsettled'⟩ := hf a u c t hfu
    exact ⟨hsu.trans hut, (hsettled.mono hut).bind hsettled'⟩
  arg := rfl
  directory := rfl
  env name := settles_of_put hb (.env name) Function.injective_id fun _ => ⟨_, rfl, rfl⟩
  find name := settles_of_put hb (.find name) Function.injective_id fun _ => ⟨_, rfl, rfl⟩
  anon seed := settles_of_put hb (.anon seed) (fun _ _ => Option.some.inj) fun _ => ⟨_, rfl, rfl⟩

/-- **A tree that has a value has it again, whatever has been looked up since.** -/
theorem eval_again (hb : b.Repeats) (tree : Tree) : Settles b (eval b tree) :=
  eval_related (beside_settles hb).related tree

end
end Expr

/-! ## The look-ups of a scope -/

namespace Segment

open LaunchFile.Expr (Question)

variable {scope : Scope} {look : Lookups} {r r' : AnonRegistry}

/-- Questions do nothing to the registry but resolve seeds. -/
theorem reaches_of_reaches (h : (bindings scope look).Reaches r r') : r.Reaches r' := by
  refine h.induction (P := r.Reaches) (fun q s hs => ?_) (.refl r)
  cases q with
  | env _ | find _ => exact hs
  | anon seed => exact hs.resolve seed

/-- What was asked for once is recorded from then on. -/
theorem resolve_of_reaches {seed : String}
    (h : (bindings scope look).Reaches ((bindings scope look).ask (.anon seed) r) r') :
    r'.resolve seed = ((r.resolve seed).1, r') := by
  have hlater : (r.resolve seed).2.Reaches r' := reaches_of_reaches h
  exact AnonRegistry.resolve_of_get? (hlater.get? (AnonRegistry.get?_resolve_self r seed))

/-- **A registry of made-up names answers repeated questions alike.** -/
theorem repeats_bindings (scope : Scope) (look : Lookups) : (bindings scope look).Repeats where
  answer {q s t} h := by
    cases q with
    | env _ | find _ => rfl
    | anon seed =>
      have hname : (t.resolve seed).1 = (s.resolve seed).1 := by rw [resolve_of_reaches h]
      exact congrArg some hname
  alike {q _ t} h := by
    cases q with
    | env _ | find _ => exact .refl t
    | anon seed =>
      have hsame : (bindings scope look).ask (.anon seed) t = t :=
        congrArg Prod.snd (resolve_of_reaches h)
      rw [hsame]
      exact .refl t

end Segment
end LaunchFile
