import LaunchFile.Proofs.Anon
import LaunchFile.Proofs.Expr.Related
import LaunchFile.Proofs.Keeps
import LaunchFile.Substitution.Resolve

/-!
# Proofs/Substitution/Naming — all that resolution does to the registry is to resolve seeds

An expression changes what it is evaluated on by its calls of `anon` alone (`Expr.keeps_eval`), and
so do the directives of a text. The registry behind a text that is resolved is therefore one that
the registry before it reaches by resolutions, also behind an error (`Segment.keeps_evaluate`).
-/

namespace LaunchFile

/-! ## Expressions -/

namespace Expr

variable {σ : Type} {b : Bindings σ} {P : σ → Prop}

/-- All that is looked up keeps this property. -/
structure Bindings.Keeps (b : Bindings σ) (P : σ → Prop) : Prop where
  env : ∀ name s, P s → P ((b.env name).run s).2
  find : ∀ name s, P s → P ((b.find name).run s).2
  anon : ∀ seed s, P s → P ((b.anon seed).run s).2

/-- Any error of a step is of the kind of all errors. -/
abbrev EvalM.Keeps {α : Type} (P : σ → Prop) (x : EvalM σ α) : Prop :=
  LaunchFile.Keeps P (fun _ => True) x

/-- **What every look-up keeps, evaluation does.** -/
theorem keeps_eval (hb : b.Keeps P) (tree : Tree) : EvalM.Keeps P (eval b tree) := by
  have hbeside : b.Beside (fun {_} (x _ : EvalM σ _) => EvalM.Keeps P x) b := {
    result := fun r => .result (.any r)
    bind := fun hx hf => .bind hx hf
    arg := rfl
    directory := rfl
    env := fun name => ⟨fun s hs => hb.env name s hs⟩
    find := fun name => ⟨fun s hs => hb.find name s hs⟩
    anon := fun seed => ⟨fun s hs => hb.anon seed s hs⟩ }
  exact eval_related hbeside.related tree

theorem keeps_evaluate (hb : b.Keeps P) (source : String) : EvalM.Keeps P (evaluate b source) :=
  .bind (.result (.any _)) fun tree => keeps_eval hb tree

end Expr

/-! ## Segments -/

namespace Segment

variable {r : AnonRegistry}

/-- What a step makes of a registry that this one reaches is one that it reaches. -/
abbrev KeepsNames {α : Type} (r : AnonRegistry) (x : ResolveM α) : Prop :=
  Keeps r.Reaches (fun _ => True) x

variable (scope : Scope) (look : Lookups)

theorem keeps_evalText (expression : String) : KeepsNames r (evalText scope look expression) := by
  have hbindings : (bindings scope look).Keeps r.Reaches := {
    env := fun _ _ h => h
    find := fun _ _ h => h
    anon := fun seed _ h => h.resolve seed }
  exact .bind ((Expr.keeps_evaluate hbindings expression).adapt _ fun _ h => h) fun _ => .pure _

mutual

theorem keeps_resolve : ∀ segment : Segment, KeepsNames r (resolve scope look segment)
  | .text _ => by
    rw [resolve]
    exact .pure _
  | .arg _ | .dirname => by
    rw [resolve]
    exact .result (.any _)
  | .env _ => by
    rw [resolve_env]
    exact .result (.any _)
  | .find _ => by
    rw [resolve_find]
    exact .result (.any _)
  | .optenv _ _ => by
    rw [resolve_optenv]
    exact .pure _
  | .anon seed => by
    rw [resolve]
    exact ⟨fun s hs => hs.resolve seed⟩
  | .eval parts => by
    rw [resolve]
    exact .bind (keeps_resolveAll parts) fun expression => keeps_evalText scope look expression

theorem keeps_resolveAll : ∀ segments : List Segment,
    KeepsNames r (resolveAll scope look segments)
  | [] => by
    rw [resolveAll]
    exact .pure _
  | segment :: rest => by
    rw [resolveAll]
    exact .bind (keeps_resolve segment) fun _ => .bind (keeps_resolveAll rest) fun _ => .pure _

end

/-- **Resolving a text resolves seeds**, and does nothing else to the registry. -/
theorem keeps_evaluate (text : String) : KeepsNames r (evaluate scope look text) :=
  .bind (.result (.any _)) fun found => keeps_resolveAll scope look found

end Segment
end LaunchFile
