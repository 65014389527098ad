import LaunchFile.Proofs.Rebinding
import LaunchFile.Proofs.Run.Isolation
import LaunchFile.Proofs.Walk.Scopes

/-!
# Proofs/Walk/Rebinding — walks in which more arguments are given from outside

A walk in a scope in which arguments are given from outside with the values that they have anyway
(`Scope.Rebound`) follows the walk in the other, element by element (`walkChildren_follows`), unless
a default that it passes over makes up a name. What is included sees no difference at all.
-/

namespace LaunchFile

open Moment (InRun)

/-! ## Defaults that make up no name -/

namespace Element

mutual

/-- All elements of a tree pass a test. -/
def all (p : Element → Bool) : Element → Bool
  | .mk tag attrs children text location =>
    p (.mk tag attrs children text location) && allIn p children

def allIn (p : Element → Bool) : List Element → Bool
  | [] => true
  | e :: rest => all p e && allIn p rest

end

variable {p : Element → Bool}

theorem all_of_mem : ∀ {es : List Element}, allIn p es = true → ∀ e ∈ es, e.all p = true
  | [], _ => fun _ hmem => absurd hmem List.not_mem_nil
  | e :: rest, h => by
    rw [allIn, Bool.and_eq_true] at h
    exact List.forall_mem_cons.2 ⟨h.1, all_of_mem h.2⟩

theorem and_of_all {e : Element} (h : e.all p = true) :
    p e = true ∧ ∀ c ∈ e.children, c.all p = true := by
  cases e
  rw [all, Bool.and_eq_true] at h
  exact ⟨h.1, all_of_mem h.2⟩

/-- The default of an `<arg>` is direct. -/
def hasDirectDefault (e : Element) : Bool :=
  e.tag != "arg" || (e.attr? "default").all Segment.isDirectText

end Element

/-- The default of an `<arg>` at hand makes up no name. -/
def Moment.MakesNoName (w : World) : Moment → Prop
  | .children _ scope (e :: _) _ => e.tag = "arg" →
    ∀ raw, e.attr? "default" = some raw → Segment.MakesNoName scope w.look raw
  | _ => True

section

variable {w : World} {parent : String} {scope scope' : Scope} {e : Element} {s : WalkState}
  {levels : Nat}

/-- **A tree in which the defaults of arguments are direct makes up no name for an argument.**
Nothing is asked of what it includes. -/
theorem Moment.InRun.makesNoName {root : Element} {registry : AnonRegistry}
    (hroot : root.all Element.hasDirectDefault = true) {m : Moment}
    (h : InRun w scope root registry (w.files.size + 1) m) : m.MakesNoName w := by
  have helements := h.forElements_top (fun _ he => (Element.and_of_all he).2) hroot
  match m with
  | .children _ _ [] _ => trivial
  | .opening .. => trivial
  | .children _ scope (e :: _) _ =>
    intro htag raw hraw
    have hdirect := (Element.and_of_all (helements e List.mem_cons_self)).1
    rw [Element.hasDirectDefault, htag, hraw] at hdirect
    exact Segment.makesNoName_of_isDirectText hdirect

/-! ## Elements -/

namespace WalkT

theorem machine_follows (h : scope.Rebound scope') :
    Follows Scope.Rebound (machine w scope e) (machine w scope' e) s := by
  have hread : MachineSpec.read w scope' e = MachineSpec.read w scope e :=
    machineSpec_read_eq w w.strict h.toSameTexts (.refl e)
  unfold machine
  rw [hread]
  refine .bind_same fun spec t _ => .bind_same fun known u _ => .bind_same fun isNew v _ => ?_
  have hscope : Scope.Rebound (if spec.default == .yes then scope.setMachine spec.name else scope)
      (if spec.default == .yes then scope'.setMachine spec.name else scope') := by
    split
    · exact h.of_args (h.setMachine spec.name) rfl rfl
    · exact h
  cases isNew with
  | true => exact .bind_same fun _ _ _ => .pure hscope
  | false => exact .pure hscope

theorem enterGroup_follows (h : scope.Rebound scope') :
    Follows Scope.Rebound (enterGroup w scope e) (enterGroup w scope' e) s := by
  refine .bind (.ofLaunch (readGroup_follows h)) ?_
  intro ⟨inner, clear⟩ ⟨inner', clear'⟩ t _ _ hread
  obtain ⟨hclear, hinner⟩ := hread
  subst hclear
  exact .bind_same fun _ _ _ => .pure (hinner.inside e)

theorem enterNode_follows (h : scope.Rebound scope') (isTest : Bool) :
    Follows (fun n n' : NodeSpec.Entered => n'.spec = n.spec ∧ n.scope.Rebound n'.scope)
      (enterNode w scope isTest e) (enterNode w scope' isTest e) s := by
  refine .bind_same fun known t _ => ?_
  refine .bind (.ofLaunch (nodeSpec_follows h known isTest)) fun n n' u _ _ hread => ?_
  obtain ⟨hspec, hclear, hinner⟩ := hread
  rw [hclear]
  exact .bind_same fun _ _ _ => .pure ⟨hspec, hinner⟩

/-- A `<node>` or `<test>`, given how its children are walked. -/
theorem node_follows {inside : Scope → WalkM Scope} (h : scope.Rebound scope') (isTest : Bool)
    (hinside : ∀ {n inner' t}, outcome (enterNode w scope isTest e) s = (.ok n, t) →
      (e.inside n.scope).Rebound inner' →
      Follows Scope.Rebound (inside (e.inside n.scope)) (inside inner') t) :
    Follows Eq (node w inside scope isTest e) (node w inside scope' isTest e) s := by
  refine .bind (enterNode_follows h isTest) fun n n' t henter _ hentered => ?_
  obtain ⟨hspec, hscope⟩ := hentered
  refine .bind (hinside henter (hscope.inside e)) fun behind behind' u _ _ hbehind => ?_
  have hfinish : n'.finish behind' = n.finish behind := by
    rw [NodeSpec.Entered.finish, NodeSpec.Entered.finish, hspec, hbehind.remaps_eq, hbehind.env]
  rw [hfinish]
  exact .refl _ u

theorem param_follows (h : scope.Rebound scope') :
    Follows Eq (param w scope e) (param w scope' e) s :=
  .bind_eq (.ofLaunch (readParam_follows h)) fun _ t _ => .refl _ t

theorem rosparam_follows (h : scope.Rebound scope') :
    Follows Eq (rosparam w scope e) (rosparam w scope' e) s :=
  .bind_eq (.ofLaunch (LaunchFile.rosparam_follows h)) fun _ t _ => .refl _ t

end WalkT

/-- An element that takes part, other than an include. -/
theorem walkAs_follows {enter : EnterFile} {tag : Tag} {rest : List Element} {s₀ : WalkState}
    (h : scope.Rebound scope') (hpart : e.ActiveAs w parent scope tag s₀ s)
    (hinclude : tag ≠ .include)
    (hquiet : (Moment.children parent scope (e :: rest) s₀).MakesNoName w)
    (hinside : ∀ {inner inner' t},
      (Moment.children parent scope (e :: rest) s₀).Leads w enter
        (.children e.tag inner e.children t) → inner.Rebound inner' →
      Follows Scope.Rebound (walkChildren w enter e.tag inner e.children)
        (walkChildren w enter e.tag inner' e.children) t) :
    Follows Scope.Rebound
      (walkAs w enter (fun inner => walkChildren w enter e.tag inner e.children) scope e tag)
      (walkAs w enter (fun inner => walkChildren w enter e.tag inner e.children) scope' e tag)
      s := by
  cases tag with
  | arg => exact .ofLaunch (readArg_follows h (hquiet (Tag.eq_text_of_child? hpart.child?)))
  | remap => exact .ofLaunch (readRemap_follows h)
  | env =>
    have hread : Follows Eq (readEnv w.look scope e) (readEnv w.look scope' e) s.registry :=
      .of_lockstep (readEnv_eq (h.readsAlike e) (.refl e)) _
    refine .bind_eq (.ofLaunch hread) fun entry _ _ => .pure ?_
    exact h.of_args (h.setEnv entry.1 entry.2) rfl rfl
  | machine => exact WalkT.machine_follows h
  | param => exact .bind_eq (WalkT.param_follows h) fun _ _ _ => .pure h
  | rosparam => exact .bind_eq (WalkT.rosparam_follows h) fun _ _ _ => .pure h
  | group =>
    refine .bind (WalkT.enterGroup_follows h) fun inner inner' t henter _ hinner => ?_
    exact .bind (hinside (.group hpart henter) hinner) fun _ _ _ _ _ _ => .pure h
  | node =>
    refine .bind_eq (WalkT.node_follows h false ?_) fun _ _ _ => .pure h
    exact fun henter => hinside (.node false hpart henter)
  | test =>
    refine .bind_eq (WalkT.node_follows h true ?_) fun _ _ _ => .pure h
    exact fun henter => hinside (.node true hpart henter)
  | «include» => exact absurd rfl hinclude

/-- An include in two scopes that pass the same. -/
theorem walkInclude_follows (h : scope.Rebound scope') (he : e.tag = "include") :
    Follows Scope.Rebound (walkElement w (walkFile w levels) parent scope e)
      (walkElement w (walkFile w levels) parent scope' e) s := by
  intro behind t hok
  obtain ⟨result, registry, more, hwalk, hwalk'⟩ :=
    walkInclude_isolated he (h.includesAlike w.look e) rfl rfl rfl levels
  rw [hwalk] at hok
  rw [hwalk']
  cases result with
  | error err => cases hok
  | ok _ =>
    cases hok
    exact ⟨scope', rfl, h⟩

variable {scope₀ : Scope} {root : Element} {registry : AnonRegistry}

mutual

/-- An element that is walked in the first scope is walked in the second, to the same effect. The
induction is on the tree. -/
theorem walkElement_follows
    (hquiet : ∀ m, InRun w scope₀ root registry levels m → m.MakesNoName w) :
    ∀ (e : Element) (rest : List Element) {parent : String} {scope scope' : Scope} {s : WalkState},
      InRun w scope₀ root registry levels (.children parent scope (e :: rest) s) →
      scope.Rebound scope' →
      Follows Scope.Rebound (walkElement w (walkFile w levels) parent scope e)
        (walkElement w (walkFile w levels) parent scope' e) s
  | .mk tag attrs children text location, rest, parent, scope, scope', s, hm, h => by
    by_cases htag : tag = "include"
    · exact walkInclude_follows h htag
    · have hactive : Element.activeTag w parent scope' (.mk tag attrs children text location) =
          Element.activeTag w parent scope (.mk tag attrs children text location) := by
        rw [Element.activeTag, Element.activeTag, h.isActive]
      rw [walkElement_eq, walkElement_eq, hactive]
      refine .adapt (.bind_same fun found t hpart => ?_)
      cases found with
      | none => exact .pure h
      | some found =>
        refine walkAs_follows h hpart ?_ (hquiet _ hm) fun hleads hinner => ?_
        · rintro rfl
          exact htag (Tag.eq_text_of_child? (Element.ActiveAs.child? hpart))
        · exact walkChildren_follows hquiet children (hm.within hleads) hinner

/-- **Children that are walked in the first scope are walked in the second, to the same effect.** -/
theorem walkChildren_follows
    (hquiet : ∀ m, InRun w scope₀ root registry levels m → m.MakesNoName w) :
    ∀ (es : List Element) {parent : String} {scope scope' : Scope} {s : WalkState},
      InRun w scope₀ root registry levels (.children parent scope es s) → scope.Rebound scope' →
      Follows Scope.Rebound (walkChildren w (walkFile w levels) parent scope es)
        (walkChildren w (walkFile w levels) parent scope' es) s
  | [], parent, scope, scope', s, _, h => by
    rw [walkChildren, walkChildren]
    exact .pure h
  | e :: rest, parent, scope, scope', s, hm, h => by
    rw [walkChildren, walkChildren]
    refine .bind (walkElement_follows hquiet e rest hm h) fun behind behind' t hok _ hbehind => ?_
    exact walkChildren_follows hquiet rest (hm.within (.past hok)) hbehind

end

end
end LaunchFile
