import LaunchFile.Proofs.Binding
import LaunchFile.Proofs.Entering
import LaunchFile.Proofs.Walk.Include
import LaunchFile.Proofs.Walk.Readings

/-!
# Proofs/Walk/Scopes — the scopes that an element makes

All that an element can make of the scope around it, for what follows it or for what is inside of it
(`Scope.Derives`). A run goes from one moment to the next by nothing else (`Moment.Leads.derives`),
so that what holds of all derived scopes holds of all scopes of a run.
-/

namespace LaunchFile

/-- The scopes that an element makes of the one around it. -/
inductive Scope.Derives (w : World) (e : Element) (s : Scope) : Scope → Prop
  | same : Derives w e s s
  | arg {behind} : Yields (readArg w.look s e) behind → Derives w e s behind
  | remap {source target} : GraphName.check false source = .ok () →
    GraphName.check false target = .ok () → Derives w e s (s.addRemap source target)
  | env (name value) : Derives w e s (s.setEnv name value)
  | machine {spec} : Yields (MachineSpec.read w s e) spec → spec.default = .yes →
    Derives w e s (s.setMachine spec.name)
  /-- Inside of a namespace, that of a group or of an include. -/
  | pushed {ns inner} : s.enterNs ns = .ok inner → Derives w e s inner
  | node {ns around name} : s.enterNs ns = .ok around → GraphName.checkBase name = .ok () →
    Derives w e s (around.enterNode (around.resolveName name))
  /-- The top of an included file. -/
  | included {ns inner passesAll inputs path} : s.enterNs ns = .ok inner →
    Yields (IncludeInputs.addChildren w s (.start passesAll s) e.children) inputs →
    Derives w e s (inputs.scopeOf inner path)
  | inside {inner} : Derives w e s inner → Derives w e s (e.inside inner)

section

variable {w : World} {enter : EnterFile} {parent : String} {scope inner behind : Scope}
  {e : Element}

/-! ## Behind an element -/

/-- A machine becomes the default of what follows if it says so. -/
theorem exists_of_machine (h : Yields (WalkT.machine w scope e) behind) :
    ∃ spec, Yields (MachineSpec.read w scope e) spec ∧
      behind = if spec.default == .yes then scope.setMachine spec.name else scope := by
  obtain ⟨s, t, h⟩ := h
  obtain ⟨spec, _, _, hread, _, _, hbehind⟩ := WalkT.exists_isNew_of_machine h
  exact ⟨spec, Yields.of_ofLaunch ⟨_, _, hread⟩, hbehind⟩

/-- A machine leaves its scope with another default machine at most. -/
theorem derives_of_machine (h : Yields (WalkT.machine w scope e) behind) :
    scope.Derives w e behind := by
  obtain ⟨spec, hread, rfl⟩ := exists_of_machine h
  split
  · rename_i hdefault
    exact .machine hread (eq_of_beq hdefault)
  · exact .same

/-- What an element leaves behind derives from the scope before it. -/
theorem derives_of_walkAs {inside : Scope → WalkM Scope} {tag : Tag}
    (h : Yields (walkAs w enter inside scope e tag) behind) : scope.Derives w e behind := by
  cases tag with
  | arg => exact .arg (Yields.of_ofLaunch h)
  | remap =>
    obtain ⟨source, target, hsource, htarget, rfl⟩ := exists_of_readRemap (Yields.of_ofLaunch h)
    exact .remap hsource htarget
  | env =>
    obtain ⟨entry, _, h⟩ := h.of_bind
    exact h.eq_of_pure ▸ .env entry.1 entry.2
  | machine => exact derives_of_machine h
  | param | rosparam | node | test =>
    obtain ⟨_, _, h⟩ := h.of_bind
    exact h.eq_of_pure ▸ .same
  | group | «include» =>
    obtain ⟨_, _, h⟩ := h.of_bind
    obtain ⟨_, _, h⟩ := h.of_bind
    exact h.eq_of_pure ▸ .same

/-- **The scope behind an element derives from the scope before it.** -/
theorem derives_of_walkElement (h : Yields (walkElement w enter parent scope e) behind) :
    scope.Derives w e behind := by
  rw [walkElement_eq] at h
  obtain ⟨found, _, h⟩ := (Yields.of_adapt h).of_bind
  cases found with
  | none => exact h.eq_of_pure ▸ .same
  | some tag => exact derives_of_walkAs h

/-! ## Inside of an element -/

/-- The scope of a group's children derives from the one around it. -/
theorem WalkT.derives_of_enterGroup (h : Yields (enterGroup w scope e) inner) :
    scope.Derives w e inner := by
  obtain ⟨⟨entered, clear⟩, hread, h⟩ := h.of_bind
  obtain ⟨_, _, h⟩ := h.of_bind
  obtain ⟨ns, hentered, _⟩ := exists_of_readGroup (Yields.of_ofLaunch hread)
  exact h.eq_of_pure ▸ .inside (.pushed hentered)

/-- A node that is entered is of the scope around it. -/
theorem WalkT.isOf_of_enterNode {isTest : Bool} {node : NodeSpec.Entered}
    (h : Yields (enterNode w scope isTest e) node) : node.IsOf scope := by
  obtain ⟨known, _, h⟩ := h.of_bind
  obtain ⟨read, hread, h⟩ := h.of_bind
  obtain ⟨_, _, h⟩ := h.of_bind
  exact h.eq_of_pure ▸ NodeSpec.isOf_of_read (Yields.of_ofLaunch hread)

/-- The scope of a node's children derives from the one around it. -/
theorem NodeSpec.Entered.IsOf.derives {node : NodeSpec.Entered} (h : node.IsOf scope) :
    scope.Derives w e (e.inside node.scope) := by
  obtain ⟨ns, around, name, haround, hname, _, hfull, hscope⟩ := h.exists_around
  rw [hscope, hfull]
  exact .inside (.node haround hname)

/-- The scope of an included file derives from the including one. -/
theorem WalkT.derives_of_enterInclude {path : Path} {s t : WalkState}
    (h : outcome (enterInclude w scope e) s = (.ok (path, inner), t)) :
    scope.Derives w e inner := by
  obtain ⟨head, r, inputs, hread, _, hadd, _, rfl, _⟩ := enterInclude_eq_ok h
  obtain ⟨ns, hentered, _⟩ := IncludeHead.exists_of_read ⟨_, _, hread⟩
  exact .inside (.included hentered ⟨_, _, hadd⟩)

/-- The element that is next at a moment. -/
def Moment.next? : Moment → Option Element
  | .children _ _ (e :: _) _ => some e
  | _ => none

/-- **The scope of the next moment is one that the element at hand derives.** -/
theorem Moment.Leads.derives {m m' : Moment} (h : m.Leads w enter m') :
    ∃ e, m.next? = some e ∧ m.scope.Derives w e m'.scope := by
  cases h with
  | past hpast => exact ⟨_, rfl, derives_of_walkElement ⟨_, _, hpast⟩⟩
  | group _ henter => exact ⟨_, rfl, WalkT.derives_of_enterGroup ⟨_, _, henter⟩⟩
  | node _ _ henter => exact ⟨_, rfl, (WalkT.isOf_of_enterNode ⟨_, _, henter⟩).derives⟩
  | «include» _ henter => exact ⟨_, rfl, WalkT.derives_of_enterInclude henter⟩

/-- The children of a root are walked in its scope, with the condition noted. -/
theorem eq_inside_of_enterRoot {root : Element}
    (h : Yields (WalkT.enterRoot w scope root) (some inner)) : inner = root.inside scope := by
  obtain ⟨_, _, h⟩ := h.of_bind
  obtain ⟨active, _, h⟩ := h.of_bind
  cases active with
  | false => cases h.eq_of_pure
  | true => exact (Option.some.inj h.eq_of_pure).symm

/-- **What holds of all derived scopes holds of all scopes of a run.** -/
theorem Moment.InRun.of_derives {P : Scope → Prop}
    (hP : ∀ {s e s'}, P s → s.Derives w e s' → P s') {root : Element} {registry : AnonRegistry}
    {levels : Nat} {m : Moment} (h : InRun w scope root registry levels m) (hscope : P scope) :
    P m.scope := by
  induction h with
  | start hroot => exact eq_inside_of_enterRoot ⟨_, _, hroot⟩ ▸ hP hscope (.inside .same)
  | within _ hleads ih =>
    obtain ⟨e, _, hderives⟩ := hleads.derives
    exact hP ih hderives
  | into _ _ hroot ih => exact eq_inside_of_enterRoot ⟨_, _, hroot⟩ ▸ hP ih (.inside .same)

/-! ## Parts of a scope -/

/-- A part of scopes that namespaces, nodes, conditions, variables and arguments leave as it is. -/
structure Scope.IsSteady {α : Type} (f : Scope → α) : Prop where
  pushNamespace : ∀ s name, f (pushNamespace s name) = f s
  enterNode : ∀ s fullName, f (enterNode s fullName) = f s
  setCondition : ∀ s condition, f (setCondition s condition) = f s
  setEnv : ∀ s name value, f (setEnv s name value) = f s
  setArg : ∀ s name binding, f (setArg s name binding) = f s

namespace Scope.IsSteady

variable {α : Type} {f : Scope → α} {s s' : Scope}

/-- A namespace changes nothing that is steady. -/
theorem enterNs (hf : IsSteady f) {ns : Option String} (h : s.enterNs ns = .ok s') :
    f s' = f s := by
  cases ns with
  | none => exact Except.ok.inj h ▸ rfl
  | some ns =>
    obtain ⟨_, _, h⟩ := Except.bind_eq_ok h
    exact Except.ok.inj h ▸ hf.pushNamespace s ns

/-- A condition changes nothing that is steady. -/
theorem inside (hf : IsSteady f) (e : Element) (s : Scope) : f (e.inside s) = f s := by
  rw [Element.inside]
  split
  · exact hf.setCondition s true
  · rfl

end Scope.IsSteady

/-- The scopes of what is left of an element have this part of the scope around it; but in an
included file, all but the namespace and the condition starts anew. -/
def Onward.Keeps {α : Type} (f : Scope → α) (e : Element) (scope : Scope) : Onward → Prop
  | .done behind => f behind = f scope
  | .inside inner _ => f inner = f scope
  | .file path top => ∃ inputs around, top = e.inside (IncludeInputs.scopeOf inputs around path)

variable {s t : WalkState} {onward : Onward}

/-- **Only a `<remap>` and a `<machine>` change more** than namespaces, nodes, conditions, variables
and arguments. -/
theorem Element.keeps_of_alone {α : Type} {f : Scope → α} (hf : Scope.IsSteady f) {tag : Tag}
    (hremap : tag = .remap → ∀ s source target, f (Scope.addRemap s source target) = f s)
    (hmachine : tag = .machine → ∀ s name, f (Scope.setMachine s name) = f s)
    (h : outcome (e.alone w scope tag) s = (.ok onward, t)) : onward.Keeps f e scope := by
  cases tag with
  | arg =>
    obtain ⟨behind, _, hread, h⟩ := outcome_bind_eq_ok h
    cases h
    obtain ⟨_, _, hbind⟩ := exists_of_readArg (Yields.of_ofLaunch ⟨_, _, hread⟩)
    exact Scope.eq_setArg_of_bind hbind ▸ hf.setArg ..
  | remap =>
    obtain ⟨behind, _, hread, h⟩ := outcome_bind_eq_ok h
    cases h
    obtain ⟨_, _, _, _, rfl⟩ := exists_of_readRemap (Yields.of_ofLaunch ⟨_, _, hread⟩)
    exact hremap rfl ..
  | env =>
    obtain ⟨_, _, _, h⟩ := outcome_bind_eq_ok h
    cases h
    exact hf.setEnv ..
  | machine =>
    obtain ⟨behind, _, hread, h⟩ := outcome_bind_eq_ok h
    cases h
    obtain ⟨spec, _, rfl⟩ := exists_of_machine ⟨_, _, hread⟩
    split
    · exact hmachine rfl ..
    · exact rfl
  | param | rosparam =>
    obtain ⟨_, _, _, h⟩ := outcome_bind_eq_ok h
    cases h
    exact rfl
  | group =>
    obtain ⟨inner, _, henter, h⟩ := outcome_bind_eq_ok h
    cases h
    obtain ⟨⟨entered, clear⟩, _, hread, henter⟩ := outcome_bind_eq_ok henter
    obtain ⟨_, _, _, henter⟩ := outcome_bind_eq_ok henter
    cases henter
    obtain ⟨_, hentered, _⟩ := exists_of_readGroup (Yields.of_ofLaunch ⟨_, _, hread⟩)
    exact (hf.inside e entered).trans (hf.enterNs hentered)
  | node | test =>
    obtain ⟨node, _, henter, h⟩ := outcome_bind_eq_ok h
    cases h
    obtain ⟨_, around, _, haround, _, _, _, hscope⟩ :=
      (WalkT.isOf_of_enterNode ⟨_, _, henter⟩).exists_around
    rw [Onward.Keeps, hf.inside, hscope, hf.enterNode, hf.enterNs haround]
  | «include» =>
    obtain ⟨⟨path, top⟩, _, henter, h⟩ := outcome_bind_eq_ok h
    cases h
    obtain ⟨head, _, inputs, _, _, _, rfl, rfl, _⟩ := WalkT.enterInclude_eq_ok henter
    exact ⟨inputs, head.scope, rfl⟩

/-! ## Surroundings -/

/-- Two scopes in one file, with one default machine. -/
structure Scope.SamePlace (s s' : Scope) : Prop where
  file : s'.file = s.file
  machine : s'.machine = s.machine

namespace Scope.SamePlace

variable {s s' : Scope}

/-- A scope is in its own place. -/
theorem refl (s : Scope) : s.SamePlace s :=
  ⟨rfl, rfl⟩

/-- Going inside of an element stays in place. -/
theorem inside (h : s.SamePlace s') (e : Element) : s.SamePlace (e.inside s') := by
  rw [Element.inside]
  split
  · exact ⟨h.file, h.machine⟩
  · exact h

end Scope.SamePlace

/-- The scopes of what is left of an element are in its file and have its default machine; but in an
included file, all starts anew. -/
def Onward.SamePlace (scope : Scope) : Onward → Prop
  | .done behind => scope.SamePlace behind
  | .inside inner _ => scope.SamePlace inner
  | .file path top => top.file = some path ∧ top.machine = localMachine

/-- **Only a `<machine>` changes the default machine**, and no element the file. -/
theorem Element.samePlace_of_alone {tag : Tag} (htag : tag ≠ .machine)
    (h : outcome (e.alone w scope tag) s = (.ok onward, t)) : onward.SamePlace scope := by
  have hsteady : Scope.IsSteady fun s => (s.file, s.machine) :=
    ⟨fun _ _ => rfl, fun _ _ => rfl, fun _ _ => rfl, fun _ _ _ => rfl, fun _ _ _ => rfl⟩
  have hkeeps := Element.keeps_of_alone hsteady (fun _ _ _ _ => rfl) (fun heq => absurd heq htag) h
  cases onward with
  | done behind => exact ⟨congrArg Prod.fst hkeeps, congrArg Prod.snd hkeeps⟩
  | inside inner finish => exact ⟨congrArg Prod.fst hkeeps, congrArg Prod.snd hkeeps⟩
  | file path top =>
    obtain ⟨inputs, around, rfl⟩ := hkeeps
    have htop := hsteady.inside e (inputs.scopeOf around path)
    exact ⟨congrArg Prod.fst htop, congrArg Prod.snd htop⟩

/-- The default machine behind an element that may declare one. -/
def defaultBehind (before : String) : Option MachineSpec → String
  | some spec => if spec.default == .yes then spec.name else before
  | none => before

/-- The scopes of what is left of an element, given the machine that it declares: that one becomes
the default of what follows if it says so. -/
def Onward.IsPlaced (declared : Option MachineSpec) (scope : Scope) : Onward → Prop
  | .done behind =>
    behind.file = scope.file ∧ behind.machine = defaultBehind scope.machine declared
  | .inside inner _ => scope.SamePlace inner ∧ declared = none
  | .file path top => top.file = some path ∧ top.machine = localMachine ∧ declared = none

/-- **By itself an element keeps the file**, and it changes the default machine for what follows
only, and only if it declares one. -/
theorem Element.isPlaced_of_front (rest : List Element)
    (h : outcome (e.front w parent scope) s = (.ok onward, t)) :
    onward.IsPlaced ((Moment.children parent scope (e :: rest) s).machine? w) scope := by
  obtain ⟨found, s₁, hpart, h⟩ := outcome_bind_eq_ok h
  cases found with
  | none =>
    cases h
    rw [Moment.machine?, Moment.reads_of_inactive hpart]
    exact ⟨rfl, rfl⟩
  | some tag =>
    by_cases htag : tag = .machine
    · subst htag
      obtain ⟨behind, _, hmachine, h⟩ := outcome_bind_eq_ok h
      cases h
      obtain ⟨spec, _, _, hread, _, _, rfl⟩ := WalkT.exists_isNew_of_machine hmachine
      rw [Moment.machine?, Moment.reads_eq_some hpart hread, Onward.IsPlaced, defaultBehind]
      split <;> exact ⟨rfl, rfl⟩
    · rw [Moment.machine?_eq_none hpart htag]
      have hplace := Element.samePlace_of_alone htag h
      cases onward with
      | done behind => exact ⟨hplace.file, hplace.machine⟩
      | inside inner finish => exact ⟨hplace, rfl⟩
      | file path top => exact ⟨hplace.1, hplace.2, rfl⟩

/-- What follows an element is in its file too. -/
theorem Element.placed_of_walkElement (rest : List Element)
    (h : outcome (walkElement w enter parent scope e) s = (.ok behind, t)) :
    behind.file = scope.file ∧ behind.machine =
      defaultBehind scope.machine ((Moment.children parent scope (e :: rest) s).machine? w) := by
  obtain ⟨onward, u, hfront, honward⟩ := exists_front_of_walkElement h
  have hplaced := Element.isPlaced_of_front rest hfront
  cases onward with
  | done behind =>
    cases honward
    exact hplaced
  | inside inner finish =>
    obtain ⟨_, _, _, honward⟩ := outcome_bind_eq_ok honward
    cases honward
    rw [hplaced.2]
    exact ⟨rfl, rfl⟩
  | file path top =>
    obtain ⟨_, _, _, honward⟩ := outcome_bind_eq_ok honward
    cases honward
    rw [hplaced.2.2]
    exact ⟨rfl, rfl⟩

/-- The file of a moment is the one before it, or the one that is about to be opened. -/
theorem Moment.Leads.file_eq {m m' : Moment} (h : m.Leads w enter m') :
    match m' with
    | .children .. => m'.scope.file = m.scope.file
    | .opening path .. => m'.scope.file = some path := by
  match m, h with
  | .children parent scope (e :: rest) s, h =>
    rcases h.past_or_front with ⟨behind, t, hwalk, rfl⟩ | ⟨onward, t, hfront, hm⟩
    · exact (Element.placed_of_walkElement rest hwalk).1
    · have hplaced := Element.isPlaced_of_front rest hfront
      cases onward <;> cases hm
      · exact hplaced.1.file
      · exact hplaced.1
  | .children parent scope [] s, h => cases h
  | .opening .., h => cases h

end
end LaunchFile
