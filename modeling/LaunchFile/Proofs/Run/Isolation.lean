import LaunchFile.Proofs.Dict
import LaunchFile.Proofs.Run.Gates
import LaunchFile.Proofs.Substitution.Plain
import LaunchFile.Proofs.Walk.Include

/-!
# Proofs/Run/Isolation — what an included file sees of the file that includes it

The root of an included file is walked in a scope that holds the arguments and the variables that
the include passes, the namespace, and nothing else (`Scope.IsTop`). An argument that two children
pass keeps the file from being walked. What surrounds the include has no other say in what it adds
to the model: two scopes in which it resolves alike give the same (`walkInclude_isolated`).
-/

namespace LaunchFile

/-! ## What is forwarded -/

/-- An argument with a value that an include forwards because it passes all arguments. -/
def Scope.Forwards (scope : Scope) (passesAll : Bool) (name text : String) : Prop :=
  passesAll = true ∧ ∃ binding, scope.args.get? name = some binding ∧ binding.value = some text

theorem get?_start {scope : Scope} (passesAll : Bool) (name text : String) :
    (IncludeInputs.start passesAll scope).args.get? name = some text ↔
      scope.Forwards passesAll name text := by
  have hvalued : (IncludeInputs.valued scope.args).get? name =
      (scope.args.get? name).bind ArgBinding.value :=
    Dict.get?_filterMapValues ArgBinding.value scope.args name
  cases passesAll with
  | false => simp [IncludeInputs.start, Scope.Forwards]
  | true => simp [IncludeInputs.start, Scope.Forwards, hvalued, Option.bind_eq_some_iff]

/-! ## The top scope -/

/-- The scope of the root of a file that an include with these attributes leads to, whose children
pass this. -/
structure Scope.IsTop (scope : Scope) (head : IncludeHead) (passed : List Passed) (top : Scope) :
    Prop where
  /-- An argument is bound by the value of a child, else by the default of a child, else by what is
  forwarded, and always from outside. -/
  args : ∀ name binding, top.args.get? name = some binding ↔
    ∃ text, binding = ⟨some text, .override, none⟩ ∧
      (.value name text ∈ passed ∨ .default name text ∈ passed ∨
        scope.Forwards head.passesAll name text ∧ ∀ other, .value name other ∉ passed)
  /-- Just the arguments that are not forwarded take their defaults. -/
  default : ∀ name text, .default name text ∈ passed →
    ∀ other, ¬scope.Forwards head.passesAll name other
  waived : ∀ name, .waived name ∈ passed → ∃ text, scope.Forwards head.passesAll name text
  /-- No two children pass one argument. -/
  nodup : (passed.filterMap Passed.arg?).Nodup
  /-- Of the variables that children set, the last one of a name counts. -/
  env : ∀ name, top.env.get? name =
    ((passed.filterMap Passed.env?).reverse.find? (·.1 == name)).map Prod.snd
  ns : top.ns = head.scope.ns
  file : top.file = some head.path
  privateNs : top.privateNs = none
  remaps : top.remaps = []
  machine : top.machine = localMachine

/-- Inside of an element nothing but the condition is another. -/
theorem inside_eq (e : Element) (scope : Scope) :
    ∃ condition, e.inside scope = { scope with condition } := by
  rw [Element.inside]
  split
  · exact ⟨some true, rfl⟩
  · exact ⟨scope.condition, rfl⟩

theorem IncludeInputs.Holds.isTop {scope : Scope} {head : IncludeHead} {passed : List Passed}
    {inputs : IncludeInputs}
    (h : Holds (start head.passesAll scope).args passed inputs) (e : Element) :
    scope.IsTop head passed (e.inside (inputs.scopeOf head.scope head.path)) := by
  obtain ⟨condition, hinside⟩ := inside_eq e (inputs.scopeOf head.scope head.path)
  rw [hinside]
  exact {
    args := fun name binding => by
      let given : String → ArgBinding := fun text => ⟨some text, .override, none⟩
      have hget : (inputs.scopeOf head.scope head.path).args.get? name =
          (inputs.args.get? name).map given := 
        Dict.get?_mapValues (fun _ => given) inputs.args name
      rw [hget, Option.map_eq_some_iff]
      refine exists_congr fun text => ?_
      rw [h.args, get?_start, and_comm, eq_comm]
    default := fun name text hmem other hother => by
      have hget := (get?_start head.passesAll name other).2 hother
      rw [h.default name text hmem] at hget
      cases hget
    waived := fun name hmem => by
      obtain ⟨text, hget⟩ := Option.isSome_iff_exists.1 (h.waived name hmem)
      exact ⟨text, (get?_start head.passesAll name text).1 hget⟩
    nodup := h.nodup
    env := fun name => by
      rw [← Dict.get?_ofPairs, ← h.env]
      rfl
    ns := rfl
    file := rfl
    privateNs := rfl
    remaps := rfl
    machine := rfl }

section

variable {w : World} {enter : EnterFile} {parent : String} {scope : Scope} {e : Element}
  {head : IncludeHead} {s t : WalkState}

/-- **What an included root is walked in.** An include that leads to a file has resolved its own
attributes and then its children, and does what walking that file in its top scope does. -/
theorem isTop_of_leads {rest : List Element} {path : Path} {top : Scope}
    (h : (Moment.children parent scope (e :: rest) s).Leads w enter (.opening path top t)) :
    ∃ head u passed, e.Includes w parent scope head s u ∧ head.IsOf w.look scope e ∧
      outcome (Passed.readAll w scope (IncludeInputs.start head.passesAll scope).args e.children)
        u.registry = (.ok passed, t.registry) ∧
      path = head.path ∧ scope.IsTop head passed top ∧
      outcome (walkElement w enter parent scope e) s =
        let walked := outcome (enter path top) t
        ((walked.1.map fun _ => scope).mapError (·.locate e.location), walked.2) := by
  cases h with
  | «include» hpart henter =>
    obtain ⟨head, r, inputs, hread, _, hadd, rfl, rfl, _⟩ := WalkT.enterInclude_eq_ok henter
    obtain ⟨passed, hpassed, hholds⟩ :=
      IncludeInputs.addChildren_eq_ok (IncludeInputs.holds_start head.passesAll scope) hadd
    exact ⟨head, _, passed, ⟨_, hpart, WalkT.outcome_ofLaunch_eq hread⟩,
      IncludeHead.isOf_of_read ⟨_, _, hread⟩, hpassed, rfl, hholds.isTop e,
      outcome_walkElement_of_enter hpart henter⟩

/-- **An include leads to its file** if that is not open, its children resolve, and no two of them
pass one argument. -/
theorem leads_of_readAll (h : e.Includes w parent scope head s t)
    (hnew : ¬s.chain.any (·.sameAs head.path) = true) {passed : List Passed} {r : AnonRegistry}
    (hpassed : outcome (Passed.readAll w scope (IncludeInputs.start head.passesAll scope).args
      e.children) t.registry = (.ok passed, r))
    (hnodup : (passed.filterMap Passed.arg?).Nodup) (rest : List Element) :
    ∃ top u, u.registry = r ∧
      (Moment.children parent scope (e :: rest) s).Leads w enter (.opening head.path top u) := by
  have heq := h.chain_eq
  obtain ⟨between, hpart, hhead⟩ := h
  obtain ⟨inputs, hadd, _⟩ := IncludeInputs.addChildren_of_readAll
    (IncludeInputs.holds_start head.passesAll scope) hpassed hnodup
  exact ⟨_, _, rfl, .include hpart (WalkT.outcome_enterInclude hhead (heq ▸ hnew) hadd)⟩

/-- **An argument that two children pass** is refused as soon as the second has resolved, and no
file is walked. -/
theorem walkElement_conflict (h : e.Includes w parent scope head s t)
    (hnew : ¬s.chain.any (·.sameAs head.path) = true) {before after : List Element}
    {child : Element} (hchildren : e.children = before ++ child :: after) {passed : List Passed}
    {given : Passed} {name : String} {r r' : AnonRegistry}
    (hbefore : outcome (Passed.readAll w scope
      (IncludeInputs.start head.passesAll scope).args before) t.registry = (.ok passed, r))
    (hnodup : (passed.filterMap Passed.arg?).Nodup)
    (hread : outcome (Passed.read w scope (IncludeInputs.start head.passesAll scope).args child) r =
      (.ok (some given), r'))
    (hname : given.arg? = some name) (hmem : name ∈ passed.filterMap Passed.arg?) :
    ∃ existing requested u, outcome (walkElement w enter parent scope e) s =
      (.error ⟨.argConflict name (some existing) requested, some child.location⟩, u) := by
  have hconflict : ∃ existing requested r₂, outcome (IncludeInputs.addChildren w scope
      (.start head.passesAll scope) (before ++ child :: after)) t.registry =
      (.error ⟨.argConflict name (some existing) requested, some child.location⟩, r₂) :=
    IncludeInputs.addChildren_conflict (IncludeInputs.holds_start head.passesAll scope) hbefore
      hnodup hread hname hmem
  obtain ⟨existing, requested, r₂, herror⟩ := hconflict
  rw [← hchildren] at herror
  have hfollow : outcome (WalkT.follow w enter scope e head) t =
      (.error ⟨.argConflict name (some existing) requested, some child.location⟩,
        { t with registry := r₂ }) :=
    outcome_bind_error (WalkT.outcome_ofLaunch_eq herror) _
  refine ⟨existing, requested, { t with registry := r₂ }, ?_⟩
  rw [outcome_walkElement_of_new h hnew, hfollow]
  rfl

end

/-! ## Two scopes -/

/-- An include resolves alike in two scopes: they have the same namespace and the same directory,
and the attributes of the include and of its children have the same texts. -/
structure Scope.AgreesOn (look : Lookups) (e : Element) (scope scope' : Scope) : Prop where
  ns : scope'.ns = scope.ns
  directory : scope'.directory = scope.directory
  reads : e.ReadsAlike look scope scope'
  readsChild : ∀ child ∈ e.children, child.ReadsAlike look scope scope'
  pushed : ∀ ns, e.Resolves look scope "ns" ns → scope'.resolveName ns = scope.resolveName ns

/-- An include that passes all arguments forwards the same ones, too. -/
structure Scope.AgreesFor (look : Lookups) (e : Element) (scope scope' : Scope) : Prop extends
    scope.AgreesOn look e scope' where
  forwarded : e.PassesAll look scope →
    ∀ name text, scope'.Forwards true name text ↔ scope.Forwards true name text

theorem Scope.AgreesFor.includesAlike {look : Lookups} {e : Element} {scope scope' : Scope}
    (h : scope.AgreesFor look e scope') : scope.IncludesAlike .reordered look e scope' where
  ns := ⟨h.ns, trivial⟩
  pushed ns hns _ := ⟨h.pushed ns hns, trivial⟩
  directory := h.directory
  reads := h.reads
  readsChild := h.readsChild
  passed hall := by
    refine fun name => Option.ext fun text => ?_
    exact ((get?_start true name text).trans (h.forwarded hall name text)).trans
      (get?_start true name text).symm
  passed_eq hordered := hordered.elim

/-- An include is walked as nothing else. -/
theorem Tag.eq_of_child?_include {parent : String} {tag : Tag}
    (h : child? parent "include" = some tag) : tag = .include :=
  (Option.some.inj (Option.filter_eq_some_iff.1 h).1).symm

/-- An element whose texts are plain reads alike in all scopes. -/
theorem Element.readsAlike_of_isPlain {e : Element}
    (h : ∀ entry ∈ e.attrs.entries, Segment.IsPlain entry.2.toList) (look : Lookups)
    (s s' : Scope) : e.ReadsAlike look s s' := by
  intro attr raw hraw
  have hplain := h (attr, raw) (Dict.mem_of_get? hraw)
  rw [Segment.evaluate_of_isPlain hplain, Segment.evaluate_of_isPlain hplain]

section

variable {w : World} {parent : String} {scope scope' : Scope} {e : Element} {s s' : WalkState}

/-- **An include in two scopes**, side by side. -/
theorem walkInclude_agree (he : e.tag = "include")
    (halike : scope.IncludesAlike .reordered w.look e scope')
    {base base' : Log} {chain : List Path} (levels : Nat)
    (hst : WalkState.Beside .reordered base base' chain s s') :
    Outcome.Agree (fun _ => False) (WalkState.Beside .reordered base base' chain)
      (fun behind behind' => behind = scope ∧ behind' = scope')
      (outcome (walkElement w (walkFile w levels) parent scope e) s)
      (outcome (walkElement w (walkFile w levels) parent scope' e) s') := by
  rw [walkElement_eq, walkElement_eq]
  refine Outcome.Agree.locate e.location (fun _ => id) ?_
  refine (WalkT.ofLaunch_lockstep (activeTag_lockstep (w.excuses_self fun _ => False) rfl
    halike.reads.isActive) s s' hst).bind fun found found' t t' hpart hsame ht => ?_
  subst hsame
  cases found with
  | none => exact ⟨⟨rfl, rfl⟩, ht⟩
  | some tag =>
    have hactive : e.ActiveAs w parent scope tag s t := hpart
    obtain rfl := Tag.eq_of_child?_include (he ▸ hactive.child?)
    refine (WalkT.enterInclude_agree (w.excuses_self _) halike (.refl e) he ht
      fun _ _ _ _ _ _ _ => .inr rfl).bind fun opened opened' u u' _ hopened hu => ?_
    obtain ⟨path, inner⟩ := opened
    obtain ⟨path', inner'⟩ := opened'
    obtain ⟨rfl, hinner⟩ := hopened
    refine (walkFile_agree trivial (Regions.whole rfl w) (w.excuses_self _) excusedAnywhere_false
      levels
      chain trivial hinner hu).bind fun _ _ v v' _ _ hv => ?_
    exact ⟨⟨rfl, rfl⟩, hv⟩

/-- What surrounds an include has no other say in it. -/
theorem walkInclude_isolated (he : e.tag = "include")
    (halike : scope.IncludesAlike .reordered w.look e scope')
    (hregistry : s'.registry = s.registry) (hchain : s'.chain = s.chain)
    (hmachines : Log.machines s'.log = Log.machines s.log) (levels : Nat) :
    ∃ (result : Except LaunchError Unit) (registry : AnonRegistry) (more : Log),
      outcome (walkElement w (walkFile w levels) parent scope e) s =
        (result.map fun () => scope, ⟨registry, s.chain, s.log ++ more⟩) ∧
      outcome (walkElement w (walkFile w levels) parent scope' e) s' =
        (result.map fun () => scope', ⟨registry, s.chain, s'.log ++ more⟩) := by
  have hst : WalkState.Beside .reordered s.log s'.log s.chain s s' :=
    ⟨hregistry, rfl, hchain, hmachines, ⟨[], by simp, by simp [Log.mapNames], by simp⟩⟩
  have hboth : Outcome.Agree _ _ _ (outcome (walkElement w (walkFile w levels) parent scope e) s)
      (outcome (walkElement w (walkFile w levels) parent scope' e) s') :=
    walkInclude_agree he halike levels hst
  generalize outcome (walkElement w _ parent scope e) s = o at hboth ⊢
  generalize outcome (walkElement w _ parent scope' e) s' = o' at hboth ⊢
  rcases o with ⟨result, t⟩
  rcases o' with ⟨result', t'⟩
  have hstates : ∀ {t t' : WalkState}, WalkState.Beside .reordered s.log s'.log s.chain t t' →
      ∃ registry more, t = ⟨registry, s.chain, s.log ++ more⟩ ∧
        t' = ⟨registry, s.chain, s'.log ++ more⟩ := by
    rintro ⟨_, _, _⟩ ⟨_, _, _⟩ ⟨rfl, rfl, rfl, _, more, rfl, rfl, _⟩
    refine ⟨_, more, rfl, ?_⟩
    rw [show Renaming.reordered.map = id from rfl, Log.mapNames_id]
  rcases result with err | behind <;> rcases result' with err' | behind'
  · obtain ⟨rfl, hbehind⟩ := Or.resolve_left hboth id
    obtain ⟨registry, more, rfl, rfl⟩ := hstates hbehind
    exact ⟨.error err, registry, more, rfl, rfl⟩
  · exact False.elim hboth
  · exact False.elim hboth
  · obtain ⟨⟨rfl, rfl⟩, hbehind⟩ := hboth
    obtain ⟨registry, more, rfl, rfl⟩ := hstates hbehind
    exact ⟨.ok (), registry, more, rfl, rfl⟩

end

/-! ## All of it -/

/-- What an include does, whatever surrounds it. -/
structure Element.Isolated (w : World) (levels : Nat) (parent : String) (scope : Scope)
    (e : Element) (s : WalkState) : Prop where
  /-- The root of the file is walked in a scope of what is passed, and the include does no more than
  that. -/
  top : ∀ rest path top t,
    (Moment.children parent scope (e :: rest) s).Leads w (walkFile w levels) (.opening path top t) →
    ∃ head u passed, e.Includes w parent scope head s u ∧ head.IsOf w.look scope e ∧
      outcome (Passed.readAll w scope (IncludeInputs.start head.passesAll scope).args e.children)
        u.registry = (.ok passed, t.registry) ∧
      path = head.path ∧ scope.IsTop head passed top ∧
      outcome (walkElement w (walkFile w levels) parent scope e) s =
        let walked := outcome (walkFile w levels path top) t
        ((walked.1.map fun _ => scope).mapError (·.locate e.location), walked.2)
  /-- The file is reached if it is not open, the children resolve, and no two of them pass one
  argument. -/
  reaches : ∀ head t passed r,
    e.Includes w parent scope head s t → ¬s.chain.any (·.sameAs head.path) = true →
    outcome (Passed.readAll w scope (IncludeInputs.start head.passesAll scope).args e.children)
      t.registry = (.ok passed, r) →
    (passed.filterMap Passed.arg?).Nodup →
    ∀ rest, ∃ top u, u.registry = r ∧
      (Moment.children parent scope (e :: rest) s).Leads w (walkFile w levels)
        (.opening head.path top u)
  /-- A child that names an argument of a child before it is refused. -/
  conflict : ∀ head t before child after passed given name r r',
    e.Includes w parent scope head s t → ¬s.chain.any (·.sameAs head.path) = true →
    e.children = before ++ child :: after →
    outcome (Passed.readAll w scope (IncludeInputs.start head.passesAll scope).args before)
      t.registry = (.ok passed, r) →
    (passed.filterMap Passed.arg?).Nodup →
    outcome (Passed.read w scope (IncludeInputs.start head.passesAll scope).args child) r =
      (.ok (some given), r') →
    given.arg? = some name → name ∈ passed.filterMap Passed.arg? →
    ∃ existing requested u, outcome (walkElement w (walkFile w levels) parent scope e) s =
      (.error ⟨.argConflict name (some existing) requested, some child.location⟩, u)
  /-- In a scope that agrees for it, with the same registry, files and machines, it ends alike and
  adds the same effects. -/
  elsewhere : ∀ scope' s', scope.AgreesFor w.look e scope' →
    s'.registry = s.registry → s'.chain = s.chain →
    Log.machines s'.log = Log.machines s.log →
    ∃ (result : Except LaunchError Unit) (registry : AnonRegistry) (more : Log),
      outcome (walkElement w (walkFile w levels) parent scope e) s =
        (result.map fun () => scope, ⟨registry, s.chain, s.log ++ more⟩) ∧
      outcome (walkElement w (walkFile w levels) parent scope' e) s' =
        (result.map fun () => scope', ⟨registry, s.chain, s'.log ++ more⟩)

/-- **Includes are isolated.** -/
theorem include_isolated (w : World) (levels : Nat) (parent : String) (scope : Scope)
    {e : Element} (he : e.tag = "include") (s : WalkState) :
    e.Isolated w levels parent scope s where
  top _ _ _ _ := isTop_of_leads
  reaches _ _ _ _ h hnew hpassed hnodup := leads_of_readAll h hnew hpassed hnodup
  conflict _ _ _ _ _ _ _ _ _ _ h hnew hchildren hbefore hnodup hread hname hmem :=
    walkElement_conflict h hnew hchildren hbefore hnodup hread hname hmem
  elsewhere _ _ h hregistry hchain hmachines :=
    walkInclude_isolated he (h.includesAlike) hregistry hchain hmachines levels

/-- An include that forwards one argument, replaces another and sets a variable, in a scope with a
machine and a remapping. -/
theorem include_isolated_drive :
    let w : World := ⟨⟨fun _ => none, fun _ => none⟩, MemoryFiles.toFiles [], true, "noetic"⟩
    let args : Dict ArgBinding := .ofPairs [("speed", ⟨some "1", .value, none⟩),
      ("mode", ⟨some "slow", .default, none⟩), ("side", ⟨none, .declared, none⟩)]
    let scope : Scope := { Scope.root with ns := "/robot", args, machine := "arm" }
    let scope' : Scope := { scope with remaps := [("/a", "/b")], machine := "base" }
    let children : List Element := [
      .mk "arg" (.ofPairs [("name", "mode"), ("value", "fast")]) [] none ⟨none, 2, 1⟩,
      .mk "arg" (.ofPairs [("name", "speed"), ("default", "2")]) [] none ⟨none, 3, 1⟩,
      .mk "env" (.ofPairs [("name", "SIDE"), ("value", "left")]) [] none ⟨none, 4, 1⟩]
    let e : Element := .mk "include" (.ofPairs [("file", "/drive.launch"), ("ns", "left"),
      ("pass_all_args", "true")]) children none ⟨none, 1, 1⟩
    let s : WalkState := ⟨.empty, [], []⟩
    e.tag = "include" ∧ e.Isolated w 1 "launch" scope s ∧
      (∃ path top t, (Moment.children "launch" scope [e] s).Leads w (walkFile w 1)
        (.opening path top t)) ∧ scope.AgreesFor w.look e scope' := by
  intro w args scope scope' children e s
  have htexts : scope.SameTexts scope' := ⟨.refl _, rfl⟩
  refine ⟨rfl, include_isolated w 1 "launch" scope rfl s, ?_, ?_⟩
  · have hok : (outcome (WalkT.enterInclude w scope e) s).1.isOk = true := by decide +kernel
    rcases hout : outcome (WalkT.enterInclude w scope e) s with ⟨err | ⟨path, top⟩, t⟩
    · rw [hout] at hok
      cases hok
    · exact ⟨path, top, t, .include rfl hout⟩
  · exact {
      ns := rfl
      directory := rfl
      reads := htexts.readsAlike e
      readsChild := fun child _ => htexts.readsAlike child
      pushed := fun _ _ => rfl
      forwarded := fun _ _ _ => Iff.rfl }

/-- What is forwarded does matter: two scopes that differ in an argument alone. -/
theorem forwarded_matters :
    let source : String := "<launch><param name=\"$(arg name)\" value=\"1\"/></launch>"
    let files : MemoryFiles := [("inner.launch", source.toUTF8.toList)]
    let w : World := ⟨⟨fun _ => none, fun _ => none⟩, files.toFiles, true, "noetic"⟩
    let e : Element := .mk "include"
      (.ofPairs [("file", "inner.launch"), ("pass_all_args", "true")]) [] none ⟨none, 1, 1⟩
    let scope : String → Scope := fun name =>
      { Scope.root with args := .ofPairs [("name", ⟨some name, .value, none⟩)] }
    let names : String → List String := fun name =>
      (Log.params (outcome (walkElement w (walkFile w 1) "launch" (scope name) e)
        (.start .empty (scope name))).2.log).map ParamSpec.name
    (scope "a").AgreesOn w.look e (scope "b") ∧ names "a" = ["/a"] ∧ names "b" = ["/b"] := by
  intro source files w e scope names
  refine ⟨?_, by decide +kernel, by decide +kernel⟩
  exact {
    ns := rfl
    directory := rfl
    reads := Element.readsAlike_of_isPlain (by decide) w.look (scope "a") (scope "b")
    readsChild := fun child hchild => nomatch hchild
    pushed := fun _ _ => rfl }

end LaunchFile
