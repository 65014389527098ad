import LaunchFile.Proofs.Walk.Chain

/-!
# Proofs/Walk/Ending — what a moment ends in is passed on to the end of the run

From any moment of a run to its end seeds are resolved and more is recorded, but nothing is taken
back. An error that has a place already goes through all enclosing elements and all including files
as it is, as no place takes that of another one: what the walk of some children ends in, at any
depth, is what the run ends in (`InRun.passesOn`).
-/

namespace LaunchFile

open Moment (InRun)

section

variable {α β γ : Type}

/-! ## States -/

theorem continues_of_ok {p : LaunchError → Prop} {x : WalkM α} {s₀ s t : WalkState}
    {chain : List Path} {a : α} (h : Keeps (s₀.Continues chain) p x) (hs : s₀.Continues chain s)
    (hout : outcome x s = (.ok a, t)) : s₀.Continues chain t := by
  have hstate := h.state hs
  rwa [hout] at hstate

/-! ## Outcomes -/

/-- The second outcome comes out of the first: an error that has a place is the error of both, and
what was resolved and recorded behind the first stays. -/
structure Outcome.PassesOn (o : Except LaunchError α × WalkState)
    (o' : Except LaunchError β × WalkState) : Prop where
  error : ∀ err place, o.1 = .error err → err.location = some place → o'.1 = .error err
  registry : o.2.registry.Reaches o'.2.registry
  log : o.2.log <+: o'.2.log

namespace Outcome.PassesOn

variable {o : Except LaunchError α × WalkState} {o' : Except LaunchError β × WalkState}
  {o'' : Except LaunchError γ × WalkState}

theorem refl (o : Except LaunchError α × WalkState) : PassesOn o o :=
  ⟨fun _ _ herror _ => herror, .refl _, List.prefix_rfl⟩

theorem trans (h : PassesOn o o') (h' : PassesOn o' o'') : PassesOn o o'' :=
  ⟨fun err place herror hplace => h'.error err place (h.error err place herror hplace) hplace,
    h.registry.trans h'.registry, h.log.trans h'.log⟩

/-- **A place is attached only to an error that has none.** -/
theorem locate (o : Except LaunchError α × WalkState) (location : Location) :
    PassesOn o (o.1.mapError (·.locate location), o.2) := by
  refine ⟨fun err place herror hplace => ?_, .refl _, List.prefix_rfl⟩
  rw [herror]
  exact congrArg Except.error (LaunchError.locate_of_location hplace location)

/-- What the first part of a sequence ends in, the sequence passes on. -/
theorem bind (x : WalkM α) {f : α → WalkM β}
    (hf : ∀ a (t : WalkState), t.Continues t.chain (outcome (f a) t).2) (s : WalkState) :
    PassesOn (outcome x s) (outcome (x >>= f) s) := by
  rw [outcome_bind]
  rcases outcome x s with ⟨err | a, t⟩
  · exact ⟨fun _ _ herror _ => congrArg Except.error (Except.error.inj herror), .refl _,
      List.prefix_rfl⟩
  · exact ⟨fun _ _ hok _ => (nomatch hok), (hf a t).registry, (hf a t).log⟩

theorem andReturn (x : WalkM α) (f : α → β) (s : WalkState) :
    PassesOn (outcome x s) (outcome (x >>= fun a => pure (f a)) s) :=
  .bind x (f := fun a => pure (f a)) (fun _ t => .refl t) s

/-- What only closes a file and forgets a result passes on everything. -/
theorem closed (o : Except LaunchError α × WalkState) (f : α → β) :
    PassesOn o (o.1.map f, o.2.closed) := by
  refine ⟨fun err _ herror _ => ?_, .refl _, List.prefix_rfl⟩
  rw [herror]
  rfl

end Outcome.PassesOn

/-! ## Moments -/

/-- What is still to be walked in the file of a moment ends in something that this outcome comes out
of. -/
def Moment.PassesOn (w : World) (enter : EnterFile) (o : Except LaunchError α × WalkState) :
    Moment → Prop
  | .children parent scope es s =>
    Outcome.PassesOn (outcome (walkChildren w enter parent scope es) s) o
  | .opening path top s => Outcome.PassesOn (outcome (enter path top) s) o

variable {w : World} {levels : Nat} {parent : String} {scope : Scope} {e : Element}
  {rest : List Element} {s t : WalkState} {tag : Tag} {o : Except LaunchError α × WalkState}
  {m m' : Moment}

theorem continues_walkChildren (w : World) (levels : Nat) (parent : String) (scope : Scope)
    (es : List Element) (s : WalkState) :
    s.Continues s.chain (outcome (walkChildren w (walkFile w levels) parent scope es) s).2 :=
  (keeps_walkChildren (keeps_walkFile levels s.chain) parent scope es).state (.refl s)

/-- What the walk of an element ends in is passed on by the walk of the children that it begins. -/
theorem passesOn_walkChildren (w : World) (levels : Nat) (parent : String) (scope : Scope)
    (e : Element) (rest : List Element) (s : WalkState) :
    Outcome.PassesOn (outcome (walkElement w (walkFile w levels) parent scope e) s)
      (outcome (walkChildren w (walkFile w levels) parent scope (e :: rest)) s) := by
  rw [walkChildren]
  exact .bind _ (fun behind => continues_walkChildren w levels parent behind rest) s

/-- What an element that takes part ends in is passed on by its walk. -/
theorem Element.ActiveAs.passesOn (hpart : e.ActiveAs w parent scope tag s t) :
    Outcome.PassesOn
      (outcome (walkAs w (walkFile w levels)
        (fun inner => walkChildren w (walkFile w levels) e.tag inner e.children) scope e tag) t)
      (outcome (walkElement w (walkFile w levels) parent scope e) s) := by
  rw [outcome_walkElement hpart]
  exact .locate _ e.location

/-- **What the next moment ends in, the moment before it passes on.** -/
theorem Moment.Leads.passesOn (h : m.Leads w (walkFile w levels) m')
    (hm : m.PassesOn w (walkFile w levels) o) : m'.PassesOn w (walkFile w levels) o := by
  cases h with
  | past hpast =>
    rw [Moment.PassesOn, walkChildren, outcome_bind_ok hpast] at hm
    exact hm
  | @group _ _ _ _ _ _ inner t hpart henter =>
    refine .trans ?_ (.trans (hpart.passesOn.trans (passesOn_walkChildren ..)) hm)
    rw [walkAs, outcome_bind_ok henter]
    exact .andReturn _ _ t
  | @node _ scope e _ _ s node t isTest hpart henter =>
    refine .trans ?_ (.trans (hpart.passesOn.trans (passesOn_walkChildren ..)) hm)
    have hnode : Outcome.PassesOn
        (outcome (walkChildren w (walkFile w levels) e.tag (e.inside node.scope) e.children) t)
        (outcome (WalkT.node w (fun inner => walkChildren w (walkFile w levels) e.tag inner
          e.children) scope isTest e) s) := by
      rw [WalkT.node, outcome_bind_ok henter]
      exact .bind _ (fun _ t => ⟨rfl, .refl _, List.prefix_append ..⟩) t
    refine hnode.trans ?_
    cases isTest <;> exact .andReturn _ _ s
  | @«include» _ _ _ _ _ _ path top t hpart henter =>
    refine .trans ?_ (.trans (hpart.passesOn.trans (passesOn_walkChildren ..)) hm)
    rw [walkAs, outcome_bind_ok henter]
    exact .andReturn _ _ t

/-- **The state of a moment continues that of the moment before it.** -/
theorem Moment.Leads.continues (h : m.Leads w (walkFile w levels) m') :
    m.state.Continues m.state.chain m'.state := by
  have hactive : ∀ {parent scope e tag s t}, Element.ActiveAs w parent scope e tag s t →
      s.Continues s.chain t := fun hpart =>
    continues_of_ok (WalkT.keeps_ofLaunch (isPlain_activeTag w _ _ _)) (.refl _) hpart
  cases h with
  | past hpast =>
    exact continues_of_ok (keeps_walkElement (keeps_walkFile levels _) _ _ _) (.refl _) hpast
  | group hpart henter =>
    exact continues_of_ok WalkT.keeps_enterGroup (hactive hpart) henter
  | node isTest hpart henter =>
    exact continues_of_ok (WalkT.keeps_enterNode isTest) (hactive hpart) henter
  | «include» hpart henter =>
    exact continues_of_ok WalkT.keeps_enterInclude (hactive hpart) henter

/-! ## Runs -/

variable {root : Element} {registry : AnonRegistry} {scope₀ : Scope}

/-- What the walk of a file ends in, once its root is entered. -/
theorem outcome_openFile {enter : EnterFile} {path : Path} {top inner : Scope} {tree : Element}
    (htree : readTree w path = .ok tree)
    (hroot : outcome (WalkT.enterRoot w top tree) (s.opened path) = (.ok (some inner), t)) :
    outcome (openFile w enter path top) s =
      let walked := outcome (walkChildren w enter tree.tag inner tree.children) t
      (walked.1.map fun _ => (), walked.2.closed) := by
  rw [openFile, htree]
  refine (outcome_bind_ok (x := liftM (Except.ok tree)) rfl _).trans ?_
  rw [outcome_bind, WalkT.outcome_within, walkRoot, outcome_bind_ok hroot]
  dsimp only
  rcases outcome (walkChildren w enter tree.tag inner tree.children) t with ⟨err | _, u⟩ <;> rfl

/-- The walk of a whole tree. -/
abbrev walked (w : World) (scope : Scope) (root : Element) (registry : AnonRegistry) :
    Except LaunchError Scope × WalkState :=
  outcome (walkRoot w (walkFile w (w.files.size + 1)) scope root) (.start registry scope)

/-- All that a run does to its state is to continue it. -/
theorem continues_walked (w : World) (scope : Scope) (root : Element) (registry : AnonRegistry) :
    (WalkState.start registry scope).Continues scope.file.toList
      (walked w scope root registry).2 :=
  (keeps_walkRoot (keeps_walkFile (w.files.size + 1) scope.file.toList) root).state (.refl _)

/-- **What any moment of a run ends in, the run passes on.** The induction is on the way to the
moment. -/
theorem Moment.InRun.passesOn (h : InRun w scope root registry levels m) :
    m.PassesOn w (walkFile w levels) (walked w scope root registry) := by
  induction h with
  | start hroot =>
    rw [Moment.PassesOn, walked, walkRoot, outcome_bind_ok hroot]
    exact .refl _
  | within _ hleads ih => exact hleads.passesOn ih
  | @into levels path top s tree inner t _ htree hroot ih =>
    rw [Moment.PassesOn, walkFile, walkNested, outcome_openFile htree hroot] at ih
    exact (Outcome.PassesOn.closed _ _).trans ih

/-- **A run that succeeds walks all elements that it comes to.** -/
theorem Moment.InRun.exists_walkElement {last : Scope}
    (h : InRun w scope₀ root registry levels (.children parent scope (e :: rest) s))
    (hwalk : (walked w scope₀ root registry).1 = .ok last) :
    ∃ behind t, outcome (walkElement w (walkFile w levels) parent scope e) s = (.ok behind, t) := by
  rcases helement : outcome (walkElement w (walkFile w levels) parent scope e) s with
    ⟨err | behind, t⟩
  · have hplace : ∃ place, err.location = some place := by
      rw [walkElement_front] at helement
      obtain ⟨inner, _, rfl⟩ := outcome_adapt_eq_error helement
      exact ⟨_, inner.location_locate e.location⟩
    obtain ⟨place, hplace⟩ := hplace
    have hends := (passesOn_walkChildren ..).trans h.passesOn |>.error err place
      (congrArg Prod.fst helement) hplace
    rw [hwalk] at hends
    cases hends
  · exact ⟨behind, t, rfl⟩

/-- What was resolved and recorded at a moment is so at the end of the run. -/
theorem Moment.InRun.precedes : ∀ {m : Moment}, InRun w scope root registry levels m →
    m.state.registry.Reaches (walked w scope root registry).2.registry ∧
      m.state.log <+: (walked w scope root registry).2.log
  | .children parent scope es s, h => by
    have hend := continues_walkChildren w levels parent scope es s
    exact ⟨hend.registry.trans h.passesOn.registry, hend.log.trans h.passesOn.log⟩
  | .opening path top s, h => by
    have hend : s.Continues s.chain (outcome (walkFile w levels path top) s).2 :=
      (keeps_walkFile levels s.chain path top).state (.refl s)
    exact ⟨hend.registry.trans h.passesOn.registry, hend.log.trans h.passesOn.log⟩

/-- **The state of any moment continues that at the start of the run.** -/
theorem Moment.InRun.continues (h : InRun w scope root registry levels m) :
    (WalkState.start registry scope).Continues m.state.chain m.state := by
  induction h with
  | start hroot =>
    have ht := continues_of_ok keeps_enterRoot (.refl _) hroot
    exact ⟨rfl, ht.registry, ht.log⟩
  | within _ hleads ih => exact ⟨rfl, ih.registry.trans hleads.continues.registry,
      ih.log.trans hleads.continues.log⟩
  | @into _ path _ _ _ _ _ _ _ hroot ih =>
    have ht := continues_of_ok keeps_enterRoot (ih.opened path) hroot
    exact ⟨rfl, ht.registry, ht.log⟩

/-! ## Texts -/

variable {file : Option Path} {args : List (String × String)} {source : String} {err : LaunchError}

/-- The run of a tree ends in an error if its walk does. -/
theorem interpretTree_eq_error :
    (outcome (interpretTree w scope root) registry).1 = .error err ↔
      (walked w scope root registry).1 = .error err := by
  rw [interpretTree, outcome_interpretWith]
  dsimp only [walked]
  cases (outcome _ _).1 with
  | error e =>
    exact ⟨fun h => congrArg _ (Except.error.inj h), fun h => congrArg _ (Except.error.inj h)⟩
  | ok _ => exact ⟨nofun, nofun⟩

/-- The run of a text that has a launch tree ends in an error if the walk of the tree does. -/
theorem interpretText_eq_error (hparse : Element.parse source file = .ok root) :
    (outcome (interpretText w file args source) registry).1 = .error err ↔
      (walked w (topScope file args) root registry).1 = .error err := by
  rw [interpretText_of_ok hparse]
  exact interpretTree_eq_error

/-- The model of a text comes from the walk of its launch tree. -/
theorem exists_walked_of_ok {model : Model}
    (h : (outcome (interpretText w file args source) registry).1 = .ok model) :
    ∃ root behind, Element.parse source file = .ok root ∧
      (walked w (topScope file args) root registry).1 = .ok behind ∧
      model = Model.ofLog (walked w (topScope file args) root registry).2.log behind.args := by
  cases hparse : Element.parse source file with
  | error err =>
    rw [interpretText_of_error hparse] at h
    cases h
  | ok root =>
    rw [interpretText_of_ok hparse, interpretTree, outcome_interpretWith] at h
    obtain ⟨behind, hbehind, hmodel⟩ := Except.map_eq_ok h
    exact ⟨root, behind, rfl, hbehind, hmodel.symm⟩

end
end LaunchFile
