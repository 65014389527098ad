import LaunchFile.Proofs.Walk.Ending

/-!
# Proofs/Run/AnonNames — made-up names in all scopes of a run

Scopes that come from one root scope share its registry, whatever is resolved through which of them
(`Session`); and from the start of a run to each of its moments, and on to its end, the registry
changes by resolutions alone. So in either case a seed has one name and a name has one seed.
-/

namespace LaunchFile

open Moment (InRun)

/-! ## Sessions -/

namespace ScopeFamily

/-- One root scope with this registry. -/
def rootWith (registry : AnonRegistry) : ScopeFamily :=
  ⟨[⟨Scope.root, 0⟩], [registry]⟩

/-- The family with what has become of the registry of member `index`. -/
def withRegistry (f : ScopeFamily) (index : Nat) (registry : AnonRegistry) : ScopeFamily :=
  { f with registries := f.registries.set (f.member index).registry registry }

/-- What may be done with one root scope and the scopes derived from it, with the resolutions so
far: each a seed and the name that it gave. -/
inductive Session (registry : AnonRegistry) (look : Lookups) :
    ScopeFamily → List (String × String) → Prop
  | root : Session registry look (rootWith registry) []
  | derive {f made} (index : Nat) (scope : Scope) : Session registry look f made →
    Session registry look (f.derive index scope) made
  /-- Some text is resolved, whatever there is in it. -/
  | text {f made} (index : Nat) (text : String) : Session registry look f made →
    Session registry look (f.withRegistry index
      (outcome (Segment.evaluate (f.member index).scope look text) (f.registryOf index)).2) made
  | directive {f made seed name r} (index : Nat) : Session registry look f made →
    outcome (Segment.resolve (f.member index).scope look (.anon seed)) (f.registryOf index) =
      (.ok name, r) →
    Session registry look (f.withRegistry index r) (made ++ [(seed, name)])
  | function {f made seed name r} (index : Nat) : Session registry look f made →
    outcome (Expr.eval (Segment.bindings (f.member index).scope look)
      (.call "anon" [.literal (.str seed)])) (f.registryOf index) = (.ok (.str name), r) →
    Session registry look (f.withRegistry index r) (made ++ [(seed, name)])

variable {registry : AnonRegistry} {look : Lookups} {f : ScopeFamily}
  {made : List (String × String)}

/-- A family with one registry, which all resolutions so far went through. -/
structure IsShared (registry : AnonRegistry) (f : ScopeFamily) (made : List (String × String)) :
    Prop where
  exists_registry : ∃ r, f.registries = [r] ∧ registry.Reaches r ∧
    ∀ entry ∈ made, r.get? entry.1 = some entry.2
  members : ∀ member ∈ f.members, member.registry = 0

theorem IsShared.registry_eq_zero (h : f.IsShared registry made) (index : Nat) :
    (f.member index).registry = 0 := by
  rw [member, List.getD_eq_getElem?_getD]
  cases hget : f.members[index]? with
  | none => rfl
  | some member => exact h.members member (List.mem_of_getElem? hget)

/-- Whatever is resolved through whichever scope, the registry stays the one of all. -/
theorem IsShared.withRegistry (h : f.IsShared registry made) (index : Nat) {r : AnonRegistry}
    {more : List (String × String)} (hreach : (f.registryOf index).Reaches r)
    (hmore : ∀ entry ∈ more, r.get? entry.1 = some entry.2) :
    (f.withRegistry index r).IsShared registry (made ++ more) := by
  obtain ⟨old, hregistries, hold, hmade⟩ := h.exists_registry
  have hindex := h.registry_eq_zero index
  have hregistry : f.registryOf index = old := by
    rw [registryOf, hindex, hregistries]
    rfl
  rw [hregistry] at hreach
  refine ⟨⟨r, ?_, hold.trans hreach, List.forall_mem_append.2 ⟨fun entry hentry => ?_, hmore⟩⟩,
    h.members⟩
  · rw [ScopeFamily.withRegistry, hindex, hregistries]
    rfl
  · exact hreach.get? (hmade entry hentry)

theorem outcome_directive (scope : Scope) (look : Lookups) (seed : String) (r : AnonRegistry) :
    outcome (Segment.resolve scope look (.anon seed)) r =
      (.ok (r.resolve seed).1, (r.resolve seed).2) := by
  rw [Segment.resolve]
  rfl

theorem outcome_function (scope : Scope) (look : Lookups) (seed : String) (r : AnonRegistry) :
    outcome (Expr.eval (Segment.bindings scope look) (.call "anon" [.literal (.str seed)])) r =
      (.ok (.str (r.resolve seed).1), (r.resolve seed).2) := by
  rw [Expr.eval, Expr.evalArgs, Expr.eval, Expr.evalArgs]
  rfl

theorem Session.isShared (h : Session registry look f made) : f.IsShared registry made := by
  have hresolved : ∀ {f made seed name r} (index : Nat), IsShared registry f made →
      ((f.registryOf index).resolve seed).1 = name → ((f.registryOf index).resolve seed).2 = r →
      IsShared registry (f.withRegistry index r) (made ++ [(seed, name)]) := by
    rintro f made seed _ _ index hf rfl rfl
    refine hf.withRegistry index (.resolve (.refl _) seed) fun entry hentry => ?_
    rw [List.mem_singleton.1 hentry]
    exact AnonRegistry.get?_resolve_self ..
  induction h with
  | root => exact ⟨⟨registry, rfl, .refl _, nofun⟩, by simp [rootWith]⟩
  | @derive f made index scope _ ih =>
    refine ⟨ih.exists_registry, List.forall_mem_append.2 ⟨ih.members, ?_⟩⟩
    exact List.forall_mem_singleton.2 (ih.registry_eq_zero index)
  | @text f made index text _ ih =>
    have hreach := (Segment.keeps_evaluate (f.member index).scope look text).state
      (.refl (f.registryOf index))
    exact List.append_nil made ▸ ih.withRegistry index hreach nofun
  | @directive f made seed name r index _ hout ih =>
    rw [outcome_directive] at hout
    cases hout
    exact hresolved index ih rfl rfl
  | @function f made seed name r index _ hout ih =>
    rw [outcome_function] at hout
    cases hout
    exact hresolved index ih rfl rfl

/-- **In one session, names are the same just if their seeds are.** -/
theorem Session.eq_iff (hnames : registry.names = []) (h : Session registry look f made)
    {a b : String × String} (ha : a ∈ made) (hb : b ∈ made) : a.2 = b.2 ↔ a.1 = b.1 := by
  obtain ⟨r, _, hreach, hmade⟩ := h.isShared.exists_registry
  have hinjective := hreach.isInjective (AnonRegistry.isInjective_of_names hnames)
  refine ⟨fun hname => hinjective.eq_of_get? (hmade a ha) (hname ▸ hmade b hb), fun hseed => ?_⟩
  have hget := hmade a ha
  rw [hseed, hmade b hb] at hget
  exact (Option.some.inj hget).symm

end ScopeFamily

/-! ## Runs -/

section

variable (w : World) (file : Option Path) (args : List (String × String)) (source : String)
  (registry : AnonRegistry)

/-- **All that the walk of a tree does to the registry is to resolve seeds.** -/
theorem reaches_interpretTree (scope : Scope) (root : Element) :
    registry.Reaches (outcome (interpretTree w scope root) registry).2 := by
  rw [interpretTree, outcome_interpretWith]
  exact (continues_walked w scope root registry).registry

theorem registry_interpretText {root : Element} (hparse : Element.parse source file = .ok root) :
    (outcome (interpretText w file args source) registry).2 =
      (walked w (topScope file args) root registry).2.registry := by
  rw [interpretText_of_ok hparse, interpretTree, outcome_interpretWith]

/-- So it is with the run of a text. -/
theorem reaches_interpretText :
    registry.Reaches (outcome (interpretText w file args source) registry).2 := by
  cases hparse : Element.parse source file with
  | error err =>
    rw [interpretText_of_error hparse]
    exact .refl registry
  | ok root =>
    rw [interpretText_of_ok hparse]
    exact reaches_interpretTree w registry (topScope file args) root

/-- **Made-up names.** From a registry without names, whatever suffixes it draws: names that are
made up through any scopes derived from one root scope are the same just if their seeds are; of two
resolutions, whatever is resolved between them, the later gives the name of the earlier just if it
has its seed; and the start of a run, all its moments and its end lie on ways of resolutions, so
that a name once recorded stays and no two seeds of the run have one name. -/
theorem interpretText_anonNames (hnames : registry.names = []) :
    (∀ look f made, ScopeFamily.Session registry look f made →
      ∀ a ∈ made, ∀ b ∈ made, a.2 = b.2 ↔ a.1 = b.1) ∧
    (∀ r r' seed other, registry.Reaches r → (r.resolve seed).2.Reaches r' →
      ((r'.resolve other).1 = (r.resolve seed).1 ↔ other = seed)) ∧
    let behind := (outcome (interpretText w file args source) registry).2
    (∀ seed other name, behind.get? seed = some name → behind.get? other = some name →
      seed = other) ∧
    ∀ root levels m, Element.parse source file = .ok root →
      InRun w (topScope file args) root registry levels m →
      registry.Reaches m.state.registry ∧ m.state.registry.Reaches behind ∧
        ∀ seed name, m.state.registry.get? seed = some name → behind.get? seed = some name := by
  have hinjective := AnonRegistry.isInjective_of_names hnames
  refine ⟨fun look f made h a ha b hb => h.eq_iff hnames ha hb,
    fun r r' seed other hr hlater => AnonRegistry.resolve_eq_iff (hr.isInjective hinjective) hlater,
    ?_⟩
  have hreach := reaches_interpretText w file args source registry
  refine ⟨fun seed other name => (hreach.isInjective hinjective).eq_of_get?, ?_⟩
  intro root levels m hparse hm
  rw [registry_interpretText w file args source registry hparse]
  have hend := hm.precedes.1
  exact ⟨hm.continues.registry, hend, fun seed name => hend.get?⟩

/-- Two seeds that are written alike without their dots and dashes, from a generator that draws one
suffix twice, and the first of them again in an expression. -/
theorem interpretText_anonNames_alike :
    let w : World := ⟨⟨fun _ => none, fun _ => none⟩, MemoryFiles.toFiles [], true, "noetic"⟩
    let registry : AnonRegistry := ⟨[], 42, [['f'], ['f']], 0⟩
    let source := "<launch><node name='$(anon a.b)' pkg='p' type='t'/>" ++
      "<group><node name='$(anon a-b)' pkg='p' type='t' args=\"$(eval anon('a.b'))\"/></group>" ++
      "</launch>"
    registry.names = [] ∧ ∃ behind, (outcome (interpretText w none [] source) registry).2 = behind ∧
      behind.names = [("a-b", "a_b_42_0000000000000000"), ("a.b", "a_b_42_f")] ∧
      ∀ seed other name, behind.get? seed = some name → behind.get? other = some name →
        seed = other := by
  intro w registry source
  refine ⟨rfl, _, rfl, by decide +kernel, ?_⟩
  exact (interpretText_anonNames w none [] source registry rfl).2.2.1

end
end LaunchFile
