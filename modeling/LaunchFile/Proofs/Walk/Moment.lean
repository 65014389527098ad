import LaunchFile.Interpreter
import LaunchFile.Proofs.Lockstep
import LaunchFile.Proofs.Reading

/-!
# Proofs/Walk/Moment — the moments of a run

A run is at some children that are still to be walked, or about to open an included file. From such
a moment it goes past the first child, into it, or into the file (`Moment.Leads`, `Moment.InRun`).
What is said of a run at every moment is said of all moments that it goes through.
-/

namespace LaunchFile

/-! ## States -/

namespace WalkState

variable {σ : Type}

/-- The state with one more file open. -/
def opened (path : Path) (s : WalkState σ) : WalkState σ :=
  { s with chain := s.chain ++ [path] }

/-- The state with the file closed that was opened last. -/
def closed (s : WalkState σ) : WalkState σ :=
  { s with chain := s.chain.dropLast }

end WalkState

namespace WalkT

variable {σ α : Type}

/-- A step of the run is a step of the walk on its registry. -/
theorem outcome_ofLaunch (step : LaunchT σ α) (s : WalkState σ) :
    outcome (ofLaunch step) s =
      ((outcome step s.registry).1, { s with registry := (outcome step s.registry).2 }) := rfl

theorem outcome_ofLaunch_eq {step : LaunchM α} {s : WalkState} {result : Except LaunchError α}
    {r : AnonRegistry} (h : outcome step s.registry = (result, r)) :
    outcome (ofLaunch step) s = (result, { s with registry := r }) := by
  rw [outcome_ofLaunch, h]

/-- A step of the run changes nothing but the registry. -/
theorem eq_of_ofLaunch {step : LaunchM α} {s t : WalkState} {a : α}
    (h : outcome (ofLaunch step) s = (.ok a, t)) :
    outcome step s.registry = (.ok a, t.registry) ∧ t.chain = s.chain := by
  rw [outcome_ofLaunch] at h
  have hresult := congrArg Prod.fst h
  have hstate := congrArg Prod.snd h
  subst hstate
  exact ⟨Prod.ext hresult rfl, rfl⟩

/-- An error of such a step is one of the run. -/
theorem error_of_ofLaunch {step : LaunchM α} {s t : WalkState} {err : LaunchError}
    (h : outcome (ofLaunch step) s = (.error err, t)) :
    outcome step s.registry = (.error err, t.registry) := by
  rw [outcome_ofLaunch] at h
  have hresult := congrArg Prod.fst h
  have hstate := congrArg Prod.snd h
  subst hstate
  exact Prod.ext hresult rfl

/-- A result of such a step is one of the run, and the chain stays. -/
theorem ok_of_ofLaunch {step : LaunchM α} {s t : WalkState} {a : α}
    (h : outcome (ofLaunch step) s = (.ok a, t)) : Yields step a ∧ t.chain = s.chain :=
  ⟨⟨_, _, (eq_of_ofLaunch h).1⟩, (eq_of_ofLaunch h).2⟩

/-- A step within a file runs with the file open and closes it behind. -/
theorem outcome_within (path : Path) (step : WalkT σ α) (s : WalkState σ) :
    outcome (within path step) s =
      ((outcome step (s.opened path)).1, (outcome step (s.opened path)).2.closed) := rfl

end WalkT

/-- What a step of the walk yields, the step of the run does. -/
theorem Yields.of_ofLaunch {α : Type} {x : LaunchM α} {a : α} (h : Yields (WalkT.ofLaunch x) a) :
    Yields x a := by
  obtain ⟨before, after, h⟩ := h
  exact (WalkT.ok_of_ofLaunch h).1

/-! ## Moments -/

/-- Where a run is: at children that are still to be walked, or about to open a file. -/
inductive Moment where
  /-- Children of an element with the tag `parent`, still to be walked. -/
  | children (parent : String) (scope : Scope) (elements : List Element) (state : WalkState)
  /-- A file to be opened, with its top scope. -/
  | opening (path : Path) (scope : Scope) (state : WalkState)

/-- The scope at a moment. -/
def Moment.scope : Moment → Scope
  | .children _ scope _ _ => scope
  | .opening _ scope _ => scope

/-- The state at a moment. -/
def Moment.state : Moment → WalkState
  | .children _ _ _ state => state
  | .opening _ _ state => state

/-- An element takes part with this tag, which leaves a state behind. -/
def Element.ActiveAs (w : World) (parent : String) (scope : Scope) (e : Element) (tag : Tag)
    (before behind : WalkState) : Prop :=
  outcome (WalkT.ofLaunch (e.activeTag w parent scope)) before = (.ok (some tag), behind)

/-- Only an element whose parent allows its tag takes part. -/
theorem Element.ActiveAs.child? {w : World} {parent : String} {scope : Scope} {e : Element}
    {tag : Tag} {before behind : WalkState} (h : e.ActiveAs w parent scope tag before behind) :
    Tag.child? parent e.tag = some tag := by
  obtain ⟨hyields, _⟩ := WalkT.ok_of_ofLaunch h
  rw [Element.activeTag] at hyields
  split at hyields
  · obtain ⟨_, _, hnone⟩ := hyields.of_bind
    exact absurd hnone.eq_of_pure (by simp)
  · rename_i found hfound
    obtain ⟨active, _, htag⟩ := hyields.of_bind
    cases active with
    | true => rw [hfound, htag.eq_of_pure]
    | false => exact absurd htag.eq_of_pure (by simp)

/-- How a tag is written. -/
def Tag.text : Tag → String
  | .arg => "arg"
  | .node => "node"
  | .test => "test"
  | .param => "param"
  | .rosparam => "rosparam"
  | .group => "group"
  | .include => "include"
  | .remap => "remap"
  | .env => "env"
  | .machine => "machine"

/-- A child that is allowed has the text of its tag. -/
theorem Tag.eq_text_of_child? {parent text : String} {tag : Tag}
    (h : child? parent text = some tag) : text = tag.text := by
  have htag := (Option.filter_eq_some_iff.1 h).1
  unfold ofText? at htag
  split at htag <;> cases htag <;> rfl

/-- What an element is walked as, once it is known whether it takes part. -/
theorem walkElement_eq (w : World) (enter : EnterFile) (parent : String) (scope : Scope)
    (e : Element) : walkElement w enter parent scope e =
    WalkT.located e.location (WalkT.ofLaunch (e.activeTag w parent scope) >>= fun found =>
      found.elim (pure scope)
        (walkAs w enter (fun inner => walkChildren w enter e.tag inner e.children) scope e)) := by
  cases e
  rw [walkElement]
  congr 1
  refine congrArg _ (funext fun found => ?_)
  cases found <;> rfl

/-- What an element that takes part ends in. -/
theorem outcome_walkElement {w : World} {enter : EnterFile} {parent : String} {scope : Scope}
    {e : Element} {tag : Tag} {s₀ s : WalkState}
    (hpart : e.ActiveAs w parent scope tag s₀ s) :
    outcome (walkElement w enter parent scope e) s₀ =
      let walked := outcome (walkAs w enter (fun inner => walkChildren w enter e.tag inner
        e.children) scope e tag) s
      (walked.1.mapError (·.locate e.location), walked.2) := by
  rw [walkElement_eq, WalkT.located, outcome_adapt, outcome_bind_ok hpart, Option.elim_some]

/-- The tag of a `<node>` or a `<test>`. -/
def Tag.ofNode (isTest : Bool) : Tag :=
  if isTest then .test else .node

namespace Moment

variable (w : World)

/-- How one moment leads to another in the same file, or to the opening of an included one. -/
inductive Leads (enter : EnterFile) : Moment → Moment → Prop
  | past {parent scope e rest s scope' s'} :
    outcome (walkElement w enter parent scope e) s = (.ok scope', s') →
    Leads enter (.children parent scope (e :: rest) s) (.children parent scope' rest s')
  | group {parent scope e rest s s₁ inner s₂} :
    e.ActiveAs w parent scope .group s s₁ →
    outcome (WalkT.enterGroup w scope e) s₁ = (.ok inner, s₂) →
    Leads enter (.children parent scope (e :: rest) s) (.children e.tag inner e.children s₂)
  | node {parent scope e rest s s₁ node s₂} (isTest : Bool) :
    e.ActiveAs w parent scope (.ofNode isTest) s s₁ →
    outcome (WalkT.enterNode w scope isTest e) s₁ = (.ok node, s₂) →
    Leads enter (.children parent scope (e :: rest) s)
      (.children e.tag (e.inside node.scope) e.children s₂)
  | include {parent scope e rest s s₁ path inner s₂} :
    e.ActiveAs w parent scope .include s s₁ →
    outcome (WalkT.enterInclude w scope e) s₁ = (.ok (path, inner), s₂) →
    Leads enter (.children parent scope (e :: rest) s) (.opening path inner s₂)

/-- The moments of the run of a tree, each with the number of levels that files may still nest. -/
inductive InRun (scope : Scope) (root : Element) (registry : AnonRegistry) : Nat → Moment → Prop
  | start {inner s} :
    outcome (WalkT.enterRoot w scope root) (.start registry scope) = (.ok (some inner), s) →
    InRun scope root registry (w.files.size + 1) (.children root.tag inner root.children s)
  | within {budget m m'} :
    InRun scope root registry budget m → m.Leads w (walkFile w budget) m' →
    InRun scope root registry budget m'
  | into {budget path top s tree inner s'} :
    InRun scope root registry (budget + 1) (.opening path top s) →
    readTree w path = .ok tree →
    outcome (WalkT.enterRoot w top tree) (s.opened path) = (.ok (some inner), s') →
    InRun scope root registry budget (.children tree.tag inner tree.children s')

/-- What holds of all children that are still to be walked. -/
def ForElements (Q : Element → Prop) : Moment → Prop
  | .children _ _ elements _ => ∀ e ∈ elements, Q e
  | .opening .. => True

variable {w}

/-- What holds of an element and of all inside of it holds on the way. -/
theorem Leads.forElements {Q : Element → Prop} (hinside : ∀ e, Q e → ∀ c ∈ e.children, Q c)
    {enter : EnterFile} {m m' : Moment} (h : m.Leads w enter m') (hm : m.ForElements Q) :
    m'.ForElements Q := by
  cases h with
  | past _ => exact fun e he => hm e (List.mem_cons_of_mem _ he)
  | group _ _ => exact hinside _ (hm _ List.mem_cons_self)
  | node _ _ _ => exact hinside _ (hm _ List.mem_cons_self)
  | «include» _ _ => trivial

/-- **The elements of a run are those of the tree and of the files that it opens.** -/
theorem InRun.forElements {Q : Element → Prop} (hinside : ∀ e, Q e → ∀ c ∈ e.children, Q c)
    {scope : Scope} {root : Element} {registry : AnonRegistry} (hroot : Q root)
    (hfiles : ∀ path tree, readTree w path = .ok tree → Q tree) {budget : Nat} {m : Moment}
    (h : InRun w scope root registry budget m) : m.ForElements Q := by
  induction h with
  | start _ => exact hinside root hroot
  | within _ hleads ih => exact hleads.forElements hinside ih
  | into _ htree _ _ => exact hinside _ (hfiles _ _ htree)

/-- Included files have fewer levels left than the tree. -/
theorem InRun.budget_le {scope : Scope} {root : Element} {registry : AnonRegistry} {budget : Nat}
    {m : Moment} (h : InRun w scope root registry budget m) : budget ≤ w.files.size + 1 := by
  induction h with
  | start _ => exact Nat.le_refl _
  | within _ _ ih => exact ih
  | into _ _ _ ih => exact Nat.le_of_succ_le ih

/-- **With all levels left, the elements of a run are those of the tree.** -/
theorem InRun.forElements_top {Q : Element → Prop} (hinside : ∀ e, Q e → ∀ c ∈ e.children, Q c)
    {scope : Scope} {root : Element} {registry : AnonRegistry} (hroot : Q root) {m : Moment}
    (h : InRun w scope root registry (w.files.size + 1) m) : m.ForElements Q := by
  generalize hlevels : w.files.size + 1 = levels at h
  induction h with
  | start _ => exact hinside root hroot
  | within _ hleads ih => exact hleads.forElements hinside (ih hlevels)
  | into hopening _ _ _ => exact absurd hopening.budget_le (by omega)

/-! ## Names -/

end Moment

/-- The attributes that hold names to be resolved. The name of a node is of one segment only. -/
def Tag.nameAttrs : Tag → List String
  | .param => ["name"]
  | .rosparam => ["ns", "param"]
  | .remap => ["from", "to"]
  | .group | .node | .test | .include => ["ns"]
  | .arg | .env | .machine => []

/-- Of the names of a node only the namespace is one that scopes resolve. -/
theorem Tag.nameAttrs_ofNode (isTest : Bool) : (ofNode isTest).nameAttrs = ["ns"] := by
  cases isTest <;> rfl

/-- All that names of the first child resolve to has a property, if it takes part. -/
def Moment.NamesAre (p : String → Prop) (w : World) : Moment → Prop
  | .children parent scope (e :: _) s =>
    ∀ tag behind, e.ActiveAs w parent scope tag s behind →
      e.NamesAre p w.look scope tag.nameAttrs
  | _ => True

/-- Names are of no account if every text has the property. -/
theorem Moment.namesAre_of_forall {p : String → Prop} (h : ∀ text, p text) (w : World) :
    ∀ m : Moment, m.NamesAre p w
  | .children _ _ (_ :: _) _ => fun _ _ _ _ _ text _ => h text
  | .children _ _ [] _ => trivial
  | .opening .. => trivial

/-- Less may be said of the names. -/
theorem Moment.NamesAre.imp {p q : String → Prop} {w : World} (hpq : ∀ text, p text → q text) :
    ∀ {m : Moment}, m.NamesAre p w → m.NamesAre q w
  | .children _ _ (_ :: _) _, h => fun tag behind hpart attr hattr text htext =>
    hpq text (h tag behind hpart attr hattr text htext)
  | .children _ _ [] _, _ => trivial
  | .opening .., _ => trivial

/-! ## Models -/

/-- The model of a tree is that of its walk. -/
theorem outcome_interpretWith {L σ : Type} [Answers L σ] (w : World L) (enter : EnterFile σ)
    (scope : Scope) (root : Element) (registry : σ) :
    outcome (interpretWith w enter scope root) registry =
      let walk := outcome (walkRoot w enter scope root) (.start registry scope)
      (walk.1.map fun behind => Model.ofLog walk.2.log behind.args, walk.2.registry) := rfl

/-- A text that is read is the walk of its tree. -/
theorem interpretText_of_ok {w : World} {file : Option Path} {args : List (String × String)}
    {source : String} {root : Element} (h : Element.parse source file = .ok root) :
    interpretText w file args source = interpretTree w (topScope file args) root := by
  rw [interpretText, h]
  rfl

/-- A text that is not read ends the run at once. -/
theorem interpretText_of_error {w : World} {file : Option Path} {args : List (String × String)}
    {source : String} {err : LaunchError} (h : Element.parse source file = .error err) :
    interpretText w file args source = throw err := by
  rw [interpretText, h]
  rfl

end LaunchFile
