import LaunchFile.Proofs.Binding
import LaunchFile.Proofs.Walk.Ending
import LaunchFile.Proofs.Walk.Records

/-!
# Proofs/Walk/NodeParts — the children of a node

From a `<node>` or `<test>` that is entered, a run goes to its first child and then from child to
child (`Moment.InNode`). Private names keep standing below that node on the way
(`InNode.privateNs`), and if the run succeeds the node is recorded behind the last child
(`InNode.exists_recorded`).
-/

namespace LaunchFile

open Moment (InRun)

/-- From this moment, where a `<node>` or `<test>` is entered, the run goes to this one, where some
of the children of that element are still to be walked. -/
inductive Moment.InNode (w : World) (enter : EnterFile) : Moment → NodeSpec.Entered → Moment → Prop
  | first {parent around e rest s s₁ node t} (isTest : Bool) :
    e.ActiveAs w parent around (.ofNode isTest) s s₁ →
    outcome (WalkT.enterNode w around isTest e) s₁ = (.ok node, t) →
    InNode w enter (.children parent around (e :: rest) s) node
      (.children e.tag (e.inside node.scope) e.children t)
  | next {launch node parent scope e rest s behind t} :
    InNode w enter launch node (.children parent scope (e :: rest) s) →
    outcome (walkElement w enter parent scope e) s = (.ok behind, t) →
    InNode w enter launch node (.children parent behind rest t)

section

variable {w : World} {enter : EnterFile} {parent : String} {scope around behind : Scope}
  {e root : Element} {rest : List Element} {s t : WalkState} {registry : AnonRegistry}
  {levels : Nat} {launch m : Moment} {node : NodeSpec.Entered}

/-! ## What follows an element -/

theorem privateNs_of_walkAs {inside : Scope → WalkM Scope} {tag : Tag}
    (h : Yields (walkAs w enter inside scope e tag) behind) :
    behind.privateNs = scope.privateNs := by
  cases tag with
  | arg =>
    obtain ⟨_, _, hbind⟩ := exists_of_readArg (Yields.of_ofLaunch h)
    exact Scope.eq_setArg_of_bind hbind ▸ rfl
  | remap =>
    obtain ⟨_, _, _, _, rfl⟩ := exists_of_readRemap (Yields.of_ofLaunch h)
    rfl
  | machine =>
    obtain ⟨spec, _, rfl⟩ := exists_of_machine h
    split <;> rfl
  | env | param | rosparam | node | test =>
    obtain ⟨_, _, h⟩ := h.of_bind
    exact h.eq_of_pure ▸ rfl
  | group | «include» =>
    obtain ⟨_, _, h⟩ := h.of_bind
    obtain ⟨_, _, h⟩ := h.of_bind
    exact h.eq_of_pure ▸ rfl

/-- **What follows an element is in the same node**, whatever the element is. -/
theorem privateNs_of_walkElement (h : Yields (walkElement w enter parent scope e) behind) :
    behind.privateNs = scope.privateNs := by
  rw [walkElement_eq] at h
  obtain ⟨found, _, h⟩ := (Yields.of_adapt h).of_bind
  cases found with
  | none => exact h.eq_of_pure ▸ rfl
  | some tag => exact privateNs_of_walkAs h

theorem Element.privateNs_inside (e : Element) (scope : Scope) :
    (e.inside scope).privateNs = scope.privateNs := by
  rw [Element.inside]
  split <;> rfl

/-! ## From child to child -/

namespace Moment.InNode

/-- What the run is at is due to a `<node>` or `<test>`. -/
theorem exists_entered (h : InNode w enter launch node m) : ∃ parent around e rest s s₁ t isTest,
    launch = .children parent around (e :: rest) s ∧
      e.ActiveAs w parent around (.ofNode isTest) s s₁ ∧
        outcome (WalkT.enterNode w around isTest e) s₁ = (.ok node, t) := by
  induction h with
  | first isTest hpart henter => exact ⟨_, _, _, _, _, _, _, isTest, rfl, hpart, henter⟩
  | next _ _ ih => exact ih

theorem inRun (h : InNode w (walkFile w levels) launch node m)
    (hlaunch : InRun w scope root registry levels launch) :
    InRun w scope root registry levels m := by
  induction h with
  | first isTest hpart henter => exact hlaunch.within (.node isTest hpart henter)
  | next _ hwalk ih => exact (ih hlaunch).within (.past hwalk)

/-- **Private names stand below the node**, at every one of its children. -/
theorem privateNs (h : InNode w enter launch node m) :
    m.scope.privateNs = some node.spec.name := by
  induction h with
  | first _ _ henter =>
    obtain ⟨_, _, _, _, _, _, _, hscope⟩ := (WalkT.isOf_of_enterNode ⟨_, _, henter⟩).exists_around
    rw [Moment.scope, Element.privateNs_inside, hscope]
    rfl
  | next _ hwalk ih => exact (privateNs_of_walkElement ⟨_, _, hwalk⟩).trans ih

/-- **A run that succeeds records the node**, as it is behind its last child. -/
theorem exists_recorded {last : Scope} (h : InNode w (walkFile w levels) launch node m)
    (hlaunch : InRun w scope root registry levels launch)
    (hwalk : (walked w scope root registry).1 = .ok last) :
    ∃ behind, node.finish behind ∈ (walked w scope root registry).2.log.nodes := by
  obtain ⟨parent, around, e, rest, s, s₁, t, isTest, rfl, hpart, henter⟩ := h.exists_entered
  obtain ⟨next, u, helement⟩ := hlaunch.exists_walkElement hwalk
  have hfinal := (hlaunch.within (.past helement)).precedes.2
  have hfront : outcome (e.front w parent around) s =
      (.ok (.inside (e.inside node.scope) fun behind => [.node (node.finish behind)]), t) := by
    rw [hpart.outcome_front]
    cases isTest <;> exact outcome_bind_ok henter _
  obtain ⟨onward, _, hfront', honward⟩ := exists_front_of_walkElement helement
  rw [hfront] at hfront'
  cases hfront'
  obtain ⟨behind, v, _, hemit⟩ := outcome_bind_eq_ok honward
  cases hemit
  refine ⟨behind, Log.mem_nodes.2 (hfinal.subset ?_)⟩
  exact List.mem_append_right _ (List.mem_singleton_self _)

end Moment.InNode
end
end LaunchFile
