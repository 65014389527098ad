import LaunchFile.Proofs.Anon
import LaunchFile.Proofs.Answers.Basic

/-!
# Proofs/Answers/Names — names that are made up, and names that are given

Of a registry a run sees nothing but the names of its seeds. It ends as if each seed had, from the
start, the name that it has behind the run (`mirrors_given`); and a run that makes up no name ends
as it does with any other suffixes ahead (`mirrors_unmade`).
-/

namespace LaunchFile

/-- Someone who answers with the name that is given for each seed, and keeps nothing. -/
structure GivenNames where
  look : Lookups
  name : String → String

instance : Answers GivenNames Unit where
  parse _ text := Segment.parse text
  env given name := pure (given.look.env name)
  find given package := pure (given.look.find package)
  anon given seed := pure (given.name seed)

namespace Lookups

variable (look : Lookups)

/-- What is looked up leaves the registry alone. -/
theorem mirrors_of_anon {L τ : Type} [Answers L τ] {P : AnonRegistry → τ → Prop}
    {Q : AnonRegistry → Prop} {other : L}
    (parse : ∀ text, (Answers.parse other text : ResolveT τ (List Segment)) =
      liftM (Segment.parse text))
    (env : ∀ name, (Answers.env other name : StateM τ _) = pure (look.env name))
    (find : ∀ package, (Answers.find other package : StateM τ _) = pure (look.find package))
    (before : ∀ seed r, Q (r.resolve seed).2 → Q r)
    (agree : ∀ seed r t, P r t → Q (r.resolve seed).2 →
      (r.resolve seed).1 = (Answers.anon other seed t).1 ∧
        P (r.resolve seed).2 (Answers.anon other seed t).2) :
    Answers.Mirrors P Q look other where
  parse text := parse text ▸ .result (Segment.parse text)
  env name := env name ▸ .pure (look.env name)
  find package := find package ▸ .pure (look.find package)
  anon seed := .lift (before seed) (agree seed _ _)

/-- **A run sees the names alone** that its seeds have in the end: it ends as one with these names
given from the start. -/
theorem mirrors_given (names : String → String) :
    Answers.Mirrors (fun (_ : AnonRegistry) (_ : Unit) => True)
      (fun r => ∀ seed name, r.get? seed = some name → names seed = name)
      look (GivenNames.mk look names) := by
  refine look.mirrors_of_anon (fun _ => rfl) (fun _ => rfl) (fun _ => rfl) ?_ ?_
  · exact fun seed r h other name hget => h other name (AnonRegistry.get?_resolve hget seed)
  · exact fun seed r _ _ h => ⟨(h seed _ (AnonRegistry.get?_resolve_self r seed)).symm, trivial⟩

/-- **Where no name is made up, it does not matter what suffixes lie ahead.** -/
theorem mirrors_unmade (known : List (String × String)) :
    Answers.Mirrors (fun r s : AnonRegistry => r.names = known ∧ s.names = known)
      (fun r => r.names.length ≤ known.length) look look := by
  refine look.mirrors_of_anon (fun _ => rfl) (fun _ => rfl) (fun _ => rfl) ?_ ?_
  · intro seed r h
    exact Nat.le_trans (AnonRegistry.Reaches.resolve (.refl r) seed).length_names_le h
  · rintro seed r s ⟨hr, hs⟩ h
    show _ = (s.resolve seed).1 ∧ _ = _ ∧ (s.resolve seed).2.names = _
    cases hget : r.get? seed with
    | some name =>
      have hget' : s.get? seed = some name := by rwa [AnonRegistry.get?, hs, ← hr]
      rw [AnonRegistry.resolve_of_get? hget, AnonRegistry.resolve_of_get? hget']
      exact ⟨rfl, hr, hs⟩
    | none =>
      -- a name that is made up would be one too many
      rw [AnonRegistry.resolve_of_get?_none hget, hr] at h
      exact absurd h (Nat.not_succ_le_self _)

end Lookups
end LaunchFile
