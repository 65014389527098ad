import LaunchFile.Proofs.Walk.Moment

/-!
# Proofs/Walk/Include — an include that leads to a file

An include that takes part first resolves its own attributes (`Element.Includes`). If the file that
they name is not open, what is left is to collect what its children pass and to walk the file.
-/

namespace LaunchFile

/-- An include takes part and its attributes amount to this, which leaves a state behind. -/
def Element.Includes (w : World) (parent : String) (scope : Scope) (e : Element)
    (head : IncludeHead) (before behind : WalkState) : Prop :=
  ∃ between, e.ActiveAs w parent scope .include before between ∧
    outcome (WalkT.ofLaunch (IncludeHead.read w.look scope e)) between = (.ok head, behind)

theorem Element.Includes.chain_eq {w : World} {parent : String} {scope : Scope} {e : Element}
    {head : IncludeHead} {s t : WalkState} (h : e.Includes w parent scope head s t) :
    t.chain = s.chain := by
  obtain ⟨between, hpart, hhead⟩ := h
  exact (WalkT.ok_of_ofLaunch hhead).2.trans (WalkT.ok_of_ofLaunch hpart).2

/-- An include that leads to a file: its attributes, its children, and the scope of the file. -/
theorem WalkT.enterInclude_eq_ok {w : World} {scope inner : Scope} {e : Element} {path : Path}
    {s t : WalkState} (h : outcome (enterInclude w scope e) s = (.ok (path, inner), t)) :
    ∃ head r inputs, outcome (IncludeHead.read w.look scope e) s.registry = (.ok head, r) ∧
      ¬s.chain.any (·.sameAs head.path) = true ∧
      outcome (IncludeInputs.addChildren w scope (.start head.passesAll scope) e.children) r =
        (.ok inputs, t.registry) ∧
      path = head.path ∧ inner = e.inside (inputs.scopeOf head.scope head.path) ∧
      t.chain = s.chain := by
  obtain ⟨head, u, hhead, h⟩ := outcome_bind_eq_ok h
  obtain ⟨hread, hu⟩ := eq_of_ofLaunch hhead
  obtain ⟨chain, _, hc, h⟩ := outcome_bind_eq_ok h
  cases hc
  split at h
  · cases h
  · rename_i hnew
    obtain ⟨inputs, v, hinputs, h⟩ := outcome_bind_eq_ok h
    obtain ⟨hadd, hv⟩ := eq_of_ofLaunch hinputs
    cases h
    exact ⟨head, u.registry, inputs, hread, hu ▸ hnew, hadd, rfl, rfl, hv.trans hu⟩

section

variable {w : World} {enter : EnterFile} {parent : String} {scope : Scope} {e : Element}
  {head : IncludeHead} {s t : WalkState}

/-- What an include ends in that leads to a file: what walking that file does. -/
theorem outcome_walkElement_of_enter {path : Path} {top : Scope} {between : WalkState}
    (hpart : e.ActiveAs w parent scope .include s between)
    (henter : outcome (WalkT.enterInclude w scope e) between = (.ok (path, top), t)) :
    outcome (walkElement w enter parent scope e) s =
      let walked := outcome (enter path top) t
      ((walked.1.map fun _ => scope).mapError (·.locate e.location), walked.2) := by
  rw [outcome_walkElement hpart, walkAs, outcome_bind_ok henter]
  dsimp only
  rw [outcome_bind]
  rcases outcome (enter path top) t with ⟨err | _, u⟩ <;> rfl

/-- An include of a file that is not open leads to it once its children have passed their inputs. -/
theorem WalkT.outcome_enterInclude {inputs : IncludeInputs} {r : AnonRegistry}
    (hhead : outcome (ofLaunch (IncludeHead.read w.look scope e)) s = (.ok head, t))
    (hnew : ¬t.chain.any (·.sameAs head.path) = true)
    (hadd : outcome (IncludeInputs.addChildren w scope (.start head.passesAll scope) e.children)
      t.registry = (.ok inputs, r)) :
    outcome (enterInclude w scope e) s =
      (.ok (head.path, e.inside (inputs.scopeOf head.scope head.path)),
        ⟨r, t.chain, t.log ++ head.clear.toList.map .rosparam⟩) := by
  refine (outcome_bind_ok hhead _).trans ?_
  refine (outcome_bind_ok (x := WalkT.chain) rfl _).trans ?_
  rw [if_neg hnew]
  exact outcome_bind_ok (outcome_ofLaunch_eq hadd) _

/-- An include once it is known that its file is not open. -/
def WalkT.follow (w : World) (enter : EnterFile) (scope : Scope) (e : Element)
    (head : IncludeHead) : WalkM Scope := do
  let start := IncludeInputs.start head.passesAll scope
  let inputs ← ofLaunch (start.addChildren w scope e.children)
  emitClear head.clear
  enter head.path (e.inside (inputs.scopeOf head.scope head.path))
  return scope

theorem walkAs_of_new {inside : Scope → WalkM Scope}
    (hhead : outcome (WalkT.ofLaunch (IncludeHead.read w.look scope e)) s = (.ok head, t))
    (hnew : ¬t.chain.any (·.sameAs head.path) = true) :
    outcome (walkAs w enter inside scope e .include) s =
      outcome (WalkT.follow w enter scope e head) t := by
  rw [walkAs, WalkT.enterInclude, bind_assoc]
  refine (outcome_bind_ok hhead _).trans ?_
  rw [bind_assoc]
  refine (outcome_bind_ok (x := WalkT.chain) rfl _).trans ?_
  rw [if_neg hnew]
  simp only [bind_assoc, pure_bind]
  rfl

/-- What an include of a file that is not open ends in. -/
theorem outcome_walkElement_of_new (h : e.Includes w parent scope head s t)
    (hnew : ¬s.chain.any (·.sameAs head.path) = true) :
    outcome (walkElement w enter parent scope e) s =
      let walked := outcome (WalkT.follow w enter scope e head) t
      (walked.1.mapError (·.locate e.location), walked.2) := by
  have heq := h.chain_eq
  obtain ⟨between, hpart, hhead⟩ := h
  rw [outcome_walkElement hpart, walkAs_of_new hhead (heq ▸ hnew)]

end
end LaunchFile
