import LaunchFile.Proofs.Walk.Moment

/-!
# Proofs/Walk/Onward — an element by itself, and how the run goes on behind it

What an element does falls into two parts. By itself it reads its attributes and records what they
ask for (`Element.front`); what is left is then to walk its children, to walk a file or nothing at
all (`Onward`). The two parts in sequence are the walk of the element (`walkElement_front`).
-/

namespace LaunchFile

/-- How a run goes on behind the attributes of an element. -/
inductive Onward where
  /-- There is nothing left to do; this is the scope of what follows. -/
  | done (behind : Scope)
  /-- The children are to be walked in this scope, and this is recorded behind them. -/
  | inside (inner : Scope) (finish : Scope → Log)
  /-- This file is to be walked, with this top scope. -/
  | file (path : Path) (top : Scope)

section

variable (w : World) (enter : EnterFile)

/-- What an element that takes part does by itself. -/
def Element.alone (scope : Scope) (e : Element) : Tag → WalkM Onward
  | .arg => do
    let behind ← WalkT.ofLaunch (readArg w.look scope e)
    return .done behind
  | .remap => do
    let behind ← WalkT.ofLaunch (readRemap w.look scope e)
    return .done behind
  | .env => do
    let (name, value) ← WalkT.ofLaunch (readEnv w.look scope e)
    return .done (scope.setEnv name value)
  | .machine => do
    let behind ← WalkT.machine w scope e
    return .done behind
  | .param => do
    WalkT.param w scope e
    return .done scope
  | .rosparam => do
    WalkT.rosparam w scope e
    return .done scope
  | .group => do
    let inner ← WalkT.enterGroup w scope e
    return .inside inner fun _ => []
  | .node => do
    let node ← WalkT.enterNode w scope false e
    return .inside (e.inside node.scope) fun behind => [.node (node.finish behind)]
  | .test => do
    let node ← WalkT.enterNode w scope true e
    return .inside (e.inside node.scope) fun behind => [.node (node.finish behind)]
  | .include => do
    let (path, top) ← WalkT.enterInclude w scope e
    return .file path top

/-- What an element does by itself. -/
def Element.front (parent : String) (scope : Scope) (e : Element) : WalkM Onward := do
  match ← WalkT.ofLaunch (e.activeTag w parent scope) with
  | none => return .done scope
  | some tag => e.alone w scope tag

/-- What is left to do of an element, given how its children are walked. -/
def Onward.walk (inside : Scope → WalkM Scope) (scope : Scope) : Onward → WalkM Scope
  | .done behind => return behind
  | .inside inner finish => do
    let behind ← inside inner
    WalkT.emitAll (finish behind)
    return scope
  | .file path top => do
    enter path top
    return scope

/-! ## The two parts in sequence -/

theorem WalkT.emitAll_nil : (emitAll [] : WalkM Unit) = pure () := by
  funext s
  exact congrArg (fun log => (Except.ok (), { s with log })) (List.append_nil s.log)

theorem walkAs_eq (inside : Scope → WalkM Scope) (scope : Scope) (e : Element) (tag : Tag) :
    walkAs w enter inside scope e tag =
      e.alone w scope tag >>= Onward.walk enter inside scope := by
  cases tag with
  | arg | remap | env | machine | param | rosparam | «include» =>
    simp only [walkAs, Element.alone, bind_assoc, pure_bind, Onward.walk, bind_pure]
  | group =>
    simp only [walkAs, Element.alone, bind_assoc, pure_bind, Onward.walk, WalkT.emitAll_nil]
  | node | test =>
    simp only [walkAs, Element.alone, bind_assoc, pure_bind, Onward.walk, WalkT.node, WalkT.emit]

/-- **An element does what it does by itself, and then what is left.** -/
theorem walkElement_front (parent : String) (scope : Scope) (e : Element) :
    walkElement w enter parent scope e = WalkT.located e.location (e.front w parent scope >>=
      Onward.walk enter (fun inner => walkChildren w enter e.tag inner e.children) scope) := by
  rw [walkElement_eq, Element.front, bind_assoc]
  refine congrArg _ (congrArg _ (funext fun found => ?_))
  cases found with
  | none => rw [pure_bind, Option.elim_none, Onward.walk]
  | some tag => exact walkAs_eq w enter _ scope e tag

/-! ## Moments -/

/-- Where the run comes to next because of an element, if there is anything left to do of it. -/
def Onward.moment? (e : Element) (s : WalkState) : Onward → Option Moment
  | .done _ => none
  | .inside inner _ => some (.children e.tag inner e.children s)
  | .file path top => some (.opening path top s)

variable {w enter} {parent : String} {scope : Scope} {e : Element} {rest : List Element}
  {s t : WalkState} {onward : Onward} {m : Moment}

/-- By itself an element that takes part does what its tag says. -/
theorem Element.ActiveAs.outcome_front {tag : Tag} (hpart : e.ActiveAs w parent scope tag s t) :
    outcome (e.front w parent scope) s = outcome (e.alone w scope tag) t :=
  outcome_bind_ok hpart _

/-- **What is left of an element is what the run is led to.** -/
theorem Moment.Leads.of_front (h : outcome (e.front w parent scope) s = (.ok onward, t))
    (hm : onward.moment? e t = some m) :
    (Moment.children parent scope (e :: rest) s).Leads w enter m := by
  obtain ⟨found, s₁, hpart, h⟩ := outcome_bind_eq_ok h
  cases found with
  | none =>
    cases h
    cases hm
  | some tag =>
    cases tag with
    | arg | remap | env | machine | param | rosparam =>
      obtain ⟨_, _, _, h⟩ := outcome_bind_eq_ok h
      cases h
      cases hm
    | group =>
      obtain ⟨inner, _, henter, h⟩ := outcome_bind_eq_ok h
      cases h
      cases hm
      exact .group hpart henter
    | node =>
      obtain ⟨node, _, henter, h⟩ := outcome_bind_eq_ok h
      cases h
      cases hm
      exact .node false hpart henter
    | test =>
      obtain ⟨node, _, henter, h⟩ := outcome_bind_eq_ok h
      cases h
      cases hm
      exact .node true hpart henter
    | «include» =>
      obtain ⟨⟨path, top⟩, _, henter, h⟩ := outcome_bind_eq_ok h
      cases h
      cases hm
      exact .include hpart henter

/-- A run goes past an element, or to what is left of it. -/
theorem Moment.Leads.past_or_front
    (h : (Moment.children parent scope (e :: rest) s).Leads w enter m) :
    (∃ behind t, outcome (walkElement w enter parent scope e) s = (.ok behind, t) ∧
      m = .children parent behind rest t) ∨
    ∃ onward t, outcome (e.front w parent scope) s = (.ok onward, t) ∧
      onward.moment? e t = some m := by
  cases h with
  | past hpast => exact .inl ⟨_, _, hpast, rfl⟩
  | group hpart henter =>
    refine .inr ⟨.inside _ fun _ => [], _, ?_, rfl⟩
    exact (outcome_bind_ok hpart _).trans (outcome_bind_ok henter _)
  | @node _ _ _ _ _ _ node _ isTest hpart henter =>
    refine .inr ⟨.inside _ fun behind => [.node (node.finish behind)], _,
      (outcome_bind_ok hpart _).trans ?_, rfl⟩
    cases isTest <;> exact outcome_bind_ok henter _
  | «include» hpart henter =>
    refine .inr ⟨.file _ _, _, ?_, rfl⟩
    exact (outcome_bind_ok hpart _).trans (outcome_bind_ok henter _)

/-- An element that was walked was read, and what was left of it was done. -/
theorem exists_front_of_walkElement {behind : Scope}
    (h : outcome (walkElement w enter parent scope e) s = (.ok behind, t)) :
    ∃ onward u, outcome (e.front w parent scope) s = (.ok onward, u) ∧
      outcome (onward.walk enter (fun inner => walkChildren w enter e.tag inner e.children) scope)
        u = (.ok behind, t) := by
  rw [walkElement_front] at h
  exact outcome_bind_eq_ok (outcome_adapt_eq_ok h)

end
end LaunchFile
