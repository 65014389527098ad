import LaunchFile.Proofs.Faults.Read
import LaunchFile.Proofs.Walk.Include
import LaunchFile.Proofs.Walk.Onward

/-!
# Proofs/Walk/Chain — what goes on during a walk, and the files that are open

A step of a walk resolves seeds and adds to the log (`WalkState.Continues`), and it leaves the files
open that were open before it, also behind an error. A cycle of files that it reports begins with
these files and goes on: only an include reports one, and what is included is walked with one more
file open (`keeps_walkFile`). So a cycle that comes out of an included file is longer than the one
that its include itself may report (`openFile_keeps`).
-/

namespace LaunchFile

/-! ## Cycles -/

/-- A cycle that the error reports begins with these files and goes on. -/
def LaunchError.Extends (chain : List Path) (e : LaunchError) : Prop :=
  ∀ cycle, e.cause = .includeCycle cycle → ∃ path more, cycle = chain ++ path :: more

namespace LaunchError

/-- An error that is no cycle extends every chain. -/
theorem NoCycle.extends {e : LaunchError} (h : e.NoCycle) (chain : List Path) : e.Extends chain :=
  fun cycle hcycle => absurd hcycle (h cycle)

theorem Extends.locate {chain : List Path} {e : LaunchError} (h : e.Extends chain)
    (location : Location) : (e.locate location).Extends chain := fun cycle hcycle => by
  rw [cause_locate] at hcycle
  exact h cycle hcycle

/-- A cycle behind more open files is one behind fewer. -/
theorem Extends.of_concat {chain : List Path} {path : Path} {e : LaunchError}
    (h : e.Extends (chain ++ [path])) : e.Extends chain := by
  intro cycle hcycle
  obtain ⟨next, more, rfl⟩ := h cycle hcycle
  exact ⟨path, next :: more, List.append_assoc ..⟩

/-- An error of an element itself, with these files open: a plain one at the element or at one of
its children, or the cycle that the element closes as an include. -/
inductive IsOwn (chain : List Path) (e : Element) : LaunchError → Prop
  | plain {err : LaunchError} : err.IsPlain (e :: e.children) → IsOwn chain e err
  | cycle (path : Path) : IsOwn chain e (.ofCause (.includeCycle (chain ++ [path])))

/-- An error of an element extends the chain that the element is walked with. -/
theorem IsOwn.extends {chain : List Path} {e : Element} {err : LaunchError}
    (h : err.IsOwn chain e) : err.Extends chain := by
  cases h with
  | plain hplain => exact hplain.noCycle.extends chain
  | cycle path =>
    intro cycle hcycle
    cases hcycle
    exact ⟨path, [], rfl⟩

/-- The place of an error of an element is its own or that of a child. -/
theorem IsOwn.place {chain : List Path} {e : Element} {err : LaunchError} (h : err.IsOwn chain e)
    {location : Location} (hlocation : err.location = some location) :
    ∃ x ∈ e :: e.children, x.location = location := by
  cases h with
  | plain hplain => exact hplain.place location hlocation
  | cycle _ => cases hlocation

end LaunchError

/-! ## States -/

/-- A state that a walk may come to from another one, with these files open: more seeds are
resolved and more is recorded. -/
structure WalkState.Continues (s₀ : WalkState) (chain : List Path) (s : WalkState) : Prop where
  chain : s.chain = chain
  registry : s₀.registry.Reaches s.registry
  log : s₀.log <+: s.log

namespace WalkState.Continues

variable {s₀ s : WalkState} {chain : List Path}

theorem refl (s : WalkState) : s.Continues s.chain s :=
  ⟨rfl, .refl _, List.prefix_rfl⟩

/-- Opening a file goes on from a state. -/
theorem opened (h : s₀.Continues chain s) (path : Path) :
    s₀.Continues (chain ++ [path]) (s.opened path) :=
  ⟨congrArg (· ++ [path]) h.chain, h.registry, h.log⟩

/-- Closing it again goes back to the chain before. -/
theorem closed {path : Path} (h : s₀.Continues (chain ++ [path]) s) :
    s₀.Continues chain s.closed :=
  ⟨by rw [WalkState.closed, h.chain, List.dropLast_concat], h.registry, h.log⟩

end WalkState.Continues

/-- A step with these files open leaves them open, and its errors are plain ones at the element or
at one of its children. -/
abbrev WalkT.KeepsPlain {α : Type} (s₀ : WalkState) (chain : List Path) (e : Element)
    (x : WalkM α) : Prop :=
  Keeps (s₀.Continues chain) (LaunchError.IsPlain (e :: e.children)) x

/-- A step with these files open leaves them open, and its errors are those of an element itself. -/
abbrev WalkT.KeepsOwn {α : Type} (s₀ : WalkState) (chain : List Path) (e : Element)
    (x : WalkM α) : Prop :=
  Keeps (s₀.Continues chain) (LaunchError.IsOwn chain e) x

/-- A step with these files open leaves them open, and its cycles extend them. -/
abbrev WalkT.KeepsChain {α : Type} (s₀ : WalkState) (chain : List Path) (x : WalkM α) : Prop :=
  Keeps (s₀.Continues chain) (LaunchError.Extends chain) x

section

variable {w : World} {enter : EnterFile} {s₀ : WalkState} {chain : List Path} {scope : Scope}
  {e : Element} {p : LaunchError → Prop}

namespace WalkT

variable {α : Type} {es : List Element}

/-! ## Steps -/

/-- A plain step of the run stays plain in a walk. -/
theorem isPlain_ofLaunch {x : LaunchM α} (h : x.IsPlain es) :
    Keeps (s₀.Continues chain) (LaunchError.IsPlain es) (ofLaunch x) := by
  refine ⟨fun s hs => ?_⟩
  have hx := (h.keeps s₀.registry).run s.registry hs.registry
  rw [outcome_ofLaunch]
  rcases hout : outcome x s.registry with ⟨e | a, registry⟩ <;> rw [hout] at hx
  · exact ⟨hx.1, hs.chain, hx.2, hs.log⟩
  · exact ⟨hs.chain, hx, hs.log⟩

/-- Steps of the run leave the chain as it is. -/
theorem keeps_ofLaunch {x : LaunchM α} (h : x.IsPlain [e]) : KeepsPlain s₀ chain e (ofLaunch x) :=
  isPlain_ofLaunch (h.mono (List.cons_subset_cons e e.children.nil_subset))

theorem keeps_result {r : Result α} (h : r.IsPlain [e]) :
    KeepsPlain s₀ chain e (liftM r : WalkM α) :=
  .mono (.result h) fun _ he => he.mono (List.cons_subset_cons e e.children.nil_subset)

theorem keeps_machines : Keeps (s₀.Continues chain) p machines :=
  ⟨fun _ hs => hs⟩

/-- What is recorded is no matter of the chain. -/
theorem keeps_emitAll (effects : List Effect) :
    Keeps (s₀.Continues chain) p (emitAll effects) :=
  ⟨fun _ hs => ⟨hs.chain, hs.registry, hs.log.trans (List.prefix_append ..)⟩⟩

/-- A step that looks at the files that are open finds these. -/
theorem keeps_chain_bind {f : List Path → WalkM α}
    (h : Keeps (s₀.Continues chain) p (f chain)) :
    Keeps (s₀.Continues chain) p (WalkT.chain >>= f) := by
  refine ⟨fun s hs => ?_⟩
  rw [← hs.chain] at h ⊢
  exact h.run s ⟨rfl, hs.registry, hs.log⟩

/-- A file that is open within a step is closed behind it. -/
theorem keeps_within {x : WalkM α} {path : Path} (h : Keeps (s₀.Continues (chain ++ [path])) p x) :
    Keeps (s₀.Continues chain) p (within path x) := by
  refine ⟨fun s hs => ?_⟩
  have hx := h.run (s.opened path) (hs.opened path)
  rw [outcome_within]
  rcases hout : outcome x (s.opened path) with ⟨e | a, t⟩ <;> rw [hout] at hx
  · exact ⟨hx.1, hx.2.closed⟩
  · exact hx.closed

/-! ## Leaves -/

theorem keeps_machine : KeepsPlain s₀ chain e (machine w scope e) := by
  refine .bind (keeps_ofLaunch (isPlain_readMachine w scope e)) fun spec => ?_
  refine .bind keeps_machines fun known => ?_
  refine .bind (keeps_result (isPlain_isNew known spec)) fun isNew => ?_
  cases isNew with
  | true => exact .bind (keeps_emitAll _) fun _ => .pure _
  | false => exact .pure _

/-- A `<param>` is at fault by itself. -/
theorem keeps_param : KeepsPlain s₀ chain e (param w scope e) :=
  .bind (keeps_ofLaunch (isPlain_readParam w scope e)) fun _ => keeps_emitAll _

/-- A `<rosparam>` is at fault by itself. -/
theorem keeps_rosparam : KeepsPlain s₀ chain e (rosparam w scope e) :=
  .bind (keeps_ofLaunch (RosparamCommand.isPlain_read w.look scope e)) fun _ => keeps_emitAll _

/-! ## Going inside -/

/-- A group is at fault by itself before it is entered. -/
theorem keeps_enterGroup : KeepsPlain s₀ chain e (enterGroup w scope e) :=
  .bind (keeps_ofLaunch (isPlain_readGroup w.look scope e)) fun _ =>
    .bind (keeps_emitAll _) fun _ => .pure _

/-- So is a node. -/
theorem keeps_enterNode (isTest : Bool) : KeepsPlain s₀ chain e (enterNode w scope isTest e) :=
  .bind keeps_machines fun known =>
    .bind (keeps_ofLaunch (NodeSpec.isPlain_read w.look scope e isTest known)) fun _ =>
      .bind (keeps_emitAll _) fun _ => .pure _

/-- An include may be a cycle, which begins with the files that are open. -/
theorem keeps_enterInclude : KeepsOwn s₀ chain e (enterInclude w scope e) := by
  refine .bind ((keeps_ofLaunch (isPlain_readHead w.look scope e)).mono fun _ => .plain)
    fun head => keeps_chain_bind ?_
  split
  · exact .throw (.cycle head.path)
  · have hinputs := (IncludeInputs.isPlain_addChildren w scope (.start head.passesAll scope)
      e.children).mono (List.subset_cons_self e _)
    refine .bind ((isPlain_ofLaunch hinputs).mono fun _ => .plain) fun inputs => ?_
    exact .bind (keeps_emitAll _) fun _ => .pure _

/-- An include reports a cycle only if it leads to a file that is open. -/
theorem exists_head_of_enterInclude {s t : WalkState} {err : LaunchError} {cycle : List Path}
    (h : outcome (enterInclude w scope e) s = (.error err, t))
    (hcycle : err.cause = .includeCycle cycle) :
    ∃ head, outcome (ofLaunch (IncludeHead.read w.look scope e)) s = (.ok head, t) ∧
      t.chain.any (·.sameAs head.path) = true ∧
      err = .ofCause (.includeCycle (t.chain ++ [head.path])) := by
  rcases outcome_bind_eq_error h with hhead | ⟨head, u, hhead, h⟩
  · have hplain := (keeps_ofLaunch (isPlain_readHead w.look scope e)).of_error (.refl s) hhead
    exact absurd hcycle (hplain.noCycle cycle)
  · refine ⟨head, ?_⟩
    rw [outcome_bind_ok (x := WalkT.chain) rfl] at h
    split at h
    · rename_i hopen
      cases h
      exact ⟨hhead, hopen, rfl⟩
    · -- what is left of an include of another file fails plainly, or not at all
      rcases outcome_bind_eq_error h with hinputs | ⟨inputs, v, _, h⟩
      · have hplain := (isPlain_ofLaunch (IncludeInputs.isPlain_addChildren w scope
          (.start head.passesAll scope) e.children)).of_error (.refl u) hinputs
        exact absurd hcycle (hplain.noCycle cycle)
      · cases h

end WalkT

/-! ## Elements -/

/-- What an element other than an include does by itself fails plainly. -/
theorem isPlain_alone {tag : Tag} (htag : tag ≠ .include) :
    WalkT.KeepsPlain s₀ chain e (e.alone w scope tag) := by
  cases tag with
  | arg => exact .bind (WalkT.keeps_ofLaunch (isPlain_readArg w.look scope e)) fun _ => .pure _
  | remap => exact .bind (WalkT.keeps_ofLaunch (isPlain_readRemap w.look scope e)) fun _ => .pure _
  | env => exact .bind (WalkT.keeps_ofLaunch (isPlain_readEnv w.look scope e)) fun _ => .pure _
  | machine => exact .bind WalkT.keeps_machine fun _ => .pure _
  | param => exact .bind WalkT.keeps_param fun _ => .pure _
  | rosparam => exact .bind WalkT.keeps_rosparam fun _ => .pure _
  | group => exact .bind WalkT.keeps_enterGroup fun _ => .pure _
  | node => exact .bind (WalkT.keeps_enterNode false) fun _ => .pure _
  | test => exact .bind (WalkT.keeps_enterNode true) fun _ => .pure _
  | «include» => exact absurd rfl htag

/-- All that an element does by itself leaves the chain as it is. -/
theorem keeps_alone (tag : Tag) : WalkT.KeepsOwn s₀ chain e (e.alone w scope tag) := by
  by_cases htag : tag = .include
  · subst htag
    exact .bind WalkT.keeps_enterInclude fun _ => .pure _
  · exact (isPlain_alone htag).mono fun _ => .plain

/-- **What an element does by itself** fails at the element or at one of its children. -/
theorem keeps_front (parent : String) :
    WalkT.KeepsOwn s₀ chain e (e.front w parent scope) := by
  refine .bind ((WalkT.keeps_ofLaunch (isPlain_activeTag w scope e parent)).mono fun _ => .plain)
    fun found => ?_
  cases found with
  | none => exact .pure _
  | some tag => exact keeps_alone tag

/-- **Only an include of a file that is open reports a cycle**, before anything inside is walked. -/
theorem exists_includes_of_front {parent : String} {s t : WalkState} {err : LaunchError}
    {cycle : List Path} (h : outcome (e.front w parent scope) s = (.error err, t))
    (hcycle : err.cause = .includeCycle cycle) :
    ∃ head, e.Includes w parent scope head s t ∧ t.chain.any (·.sameAs head.path) = true ∧
      err = .ofCause (.includeCycle (t.chain ++ [head.path])) := by
  rcases outcome_bind_eq_error h with hactive | ⟨found, u, hpart, h⟩
  · have hplain := (WalkT.keeps_ofLaunch (isPlain_activeTag w scope e parent)).of_error
      (.refl s) hactive
    exact absurd hcycle (hplain.noCycle cycle)
  · cases found with
    | none => cases h
    | some tag =>
      by_cases htag : tag = .include
      · subst htag
        rcases outcome_bind_eq_error h with henter | ⟨_, _, _, h⟩
        · obtain ⟨head, hhead, hopen⟩ := WalkT.exists_head_of_enterInclude henter hcycle
          exact ⟨head, ⟨u, hpart, hhead⟩, hopen⟩
        · cases h
      · have hplain := (isPlain_alone htag).of_error (.refl u) h
        exact absurd hcycle (hplain.noCycle cycle)

/-- What is left of an element fails as its children or the included file do. -/
theorem keeps_onward {inside : Scope → WalkM Scope}
    (hinside : ∀ inner, Keeps (s₀.Continues chain) p (inside inner))
    (henter : ∀ path inner, Keeps (s₀.Continues chain) p (enter path inner)) :
    ∀ onward : Onward, Keeps (s₀.Continues chain) p (onward.walk enter inside scope)
  | .done _ => .pure _
  | .inside inner _ =>
    .bind (hinside inner) fun _ => .bind (WalkT.keeps_emitAll _) fun _ => .pure _
  | .file path top => .bind (henter path top) fun _ => .pure _

mutual

/-- **A walk leaves the chain as it found it.** The induction is on the tree. -/
theorem keeps_walkElement (henter : ∀ path inner, WalkT.KeepsChain s₀ chain (enter path inner))
    (parent : String) (scope : Scope) :
    ∀ e : Element, WalkT.KeepsChain s₀ chain (walkElement w enter parent scope e)
  | .mk tag attrs children text location => by
    rw [walkElement_front]
    refine .adapt _ (p := LaunchError.Extends chain) ?_ fun _ he => he.locate location
    refine .bind ((keeps_front parent).mono fun _ he => he.extends) fun onward => ?_
    exact keeps_onward (fun inner => keeps_walkChildren henter tag inner children) henter onward

theorem keeps_walkChildren (henter : ∀ path inner, WalkT.KeepsChain s₀ chain (enter path inner))
    (parent : String) (scope : Scope) :
    ∀ es : List Element, WalkT.KeepsChain s₀ chain (walkChildren w enter parent scope es)
  | [] => .pure _
  | e :: rest => by
    rw [walkChildren]
    exact .bind (keeps_walkElement henter parent scope e) fun behind =>
      keeps_walkChildren henter parent behind rest

end

/-! ## Files -/

/-- The root is looked at as any element. -/
theorem keeps_enterRoot {root : Element} :
    WalkT.KeepsPlain s₀ chain root (WalkT.enterRoot w scope root) := by
  refine .bind (WalkT.keeps_result (isPlain_checkRoot root)) fun _ => ?_
  refine .bind (WalkT.keeps_ofLaunch (isPlain_isActive w.look scope root)) fun active => ?_
  cases active <;> exact .pure _

/-- So it is with a whole tree. -/
theorem keeps_walkRoot (henter : ∀ path inner, WalkT.KeepsChain s₀ chain (enter path inner))
    (root : Element) : WalkT.KeepsChain s₀ chain (walkRoot w enter scope root) := by
  refine .bind (keeps_enterRoot.mono fun _ he => he.noCycle.extends chain) fun inner => ?_
  cases inner with
  | none => exact .pure _
  | some inner => exact keeps_walkChildren henter root.tag inner root.children

/-- **A cycle inside of a file begins with the files around it and that file.** -/
theorem openFile_keeps {path : Path}
    (henter : ∀ path' inner, WalkT.KeepsChain s₀ (chain ++ [path]) (enter path' inner)) :
    Keeps (s₀.Continues chain) (LaunchError.Extends (chain ++ [path]))
      (openFile w enter path scope) := by
  refine .bind (.mono (.result (noCycle_readTree w path)) fun _ he => he.extends _) fun root => ?_
  exact .bind (WalkT.keeps_within (keeps_walkRoot henter root)) fun _ => .pure _

/-- **A cycle that a walk reports begins with the files that are open.** -/
theorem keeps_walkFile : ∀ (budget : Nat) (chain : List Path) (path : Path) (inner : Scope),
    WalkT.KeepsChain s₀ chain (walkFile w budget path inner)
  | 0, chain, path, inner => by
    refine WalkT.keeps_chain_bind (.throw fun cycle hcycle => ?_)
    cases hcycle
    exact ⟨path, [], rfl⟩
  | budget + 1, chain, path, inner =>
    (openFile_keeps fun path' inner' => keeps_walkFile budget (chain ++ [path]) path' inner').mono
      fun _ he => he.of_concat

end
end LaunchFile
