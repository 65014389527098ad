import LaunchFile.Proofs.Walk.Beside

/-!
# Proofs/Walk/Lockstep — two walks side by side

Two walks of the same files, in scopes that are related by a renaming, do the same at every step:
they add the same effects to their logs, under renamed names, or they fail with the same error, and
they leave the chain of open files as it was (`walkChildren_agree`, `openFile_agree`). The
second walk may have some gates settled, and may skip what the first refuses if that is excused. All
names that the first walk resolves have to go along with the renaming (`Region`).
-/

namespace LaunchFile

section

variable {f : Renaming} {base base' : Log} {chain : List Path} {excused : LaunchError → Prop}
  {w : World} {strict : Bool} {scope scope' : Scope} {e e' : Element} {s s' : WalkState}

/-! ## Leaves

The names of an element go along as far as it is read without an error; what it records is known to
go along only then. So each lemma supposes it of successful steps. -/

namespace WalkT

theorem machine_lockstep (h : scope.Renamed f scope') (he : e.SameReading e') :
    Lockstep excused (WalkState.Beside f base base' chain) (Scope.Renamed f)
      (machine w scope e) (machine { w with strict } scope' e') := by
  unfold machine
  rw [machineSpec_read_eq w strict h.toSameTexts he]
  refine .bind_eq (ofLaunch_lockstep (.refl _)) fun spec _ => ?_
  refine .bind_eq machines_lockstep fun known _ => ?_
  refine .bind_eq (.result _) fun isNew _ => ?_
  have hscope : Scope.Renamed f (if spec.default == .yes then scope.setMachine spec.name else scope)
      (if spec.default == .yes then scope'.setMachine spec.name else scope') := by
    split
    · exact h.setMachine spec.name
    · exact h
  cases isNew with
  | true => exact .bind_eq (emit_lockstep rfl trivial) fun _ _ => .pure hscope
  | false => exact .pure hscope

/-- Settings are recorded under renamed names. -/
theorem params_mapNames {params params' : List ParamSpec}
    (h : ParamSpec.Renamed f params params') :
    params'.map Effect.param = Log.mapNames f.map (params.map .param) := by
  rw [h.eq, Log.mapNames, List.map_map, List.map_map]
  rfl

theorem admitted_of_mem_params {params params' : List ParamSpec}
    (h : ParamSpec.Renamed f params params') :
    ∀ effect ∈ params.map Effect.param, effect.Admitted f := by
  intro effect heffect
  obtain ⟨spec, hspec, rfl⟩ := List.mem_map.1 heffect
  exact h.admits spec hspec

theorem param_agree (h : scope.Renamed f scope') (he : e.SameReading e')
    (hst : WalkState.Beside f base base' chain s s')
    (hnames : ∀ t, outcome (param w scope e) s = (.ok (), t) →
      e.NamesAre f.Keeps w.look scope ["name"]) :
    Outcome.Agree excused (WalkState.Beside f base base' chain) Eq
      (outcome (param w scope e) s) (outcome (param { w with strict } scope' e') s') := by
  refine (ofLaunch_lockstep (readParam_lockstep w strict h he) s s' hst).bind
    fun params params' t t' hout hrenamed ht => ?_
  have hparams := hrenamed (hnames _ (outcome_bind_ok hout _))
  exact emitAll_lockstep (params_mapNames hparams) (admitted_of_mem_params hparams) t t' ht

theorem rosparam_agree (h : scope.Renamed f scope') (he : e.SameReading e')
    (hst : WalkState.Beside f base base' chain s s')
    (hnames : ∀ t, outcome (rosparam w scope e) s = (.ok (), t) →
      e.NamesAre f.Keeps w.look scope ["ns", "param"]) :
    Outcome.Agree excused (WalkState.Beside f base base' chain) Eq
      (outcome (rosparam w scope e) s) (outcome (rosparam { w with strict } scope' e') s') := by
  refine (ofLaunch_lockstep (RosparamCommand.read_lockstep h he) s s' hst).bind
    fun given given' t t' hout hrenamed ht => ?_
  obtain ⟨hcommand, hparams⟩ := hrenamed (hnames _ (outcome_bind_ok hout _))
  refine emitAll_lockstep ?_ ?_ t t' ht
  · rw [params_mapNames hparams, hcommand]
    rfl
  · exact List.forall_mem_cons.2 ⟨trivial, admitted_of_mem_params hparams⟩

/-! ## Going inside -/

theorem enterGroup_agree (h : scope.Renamed f scope') (he : e.SameReading e')
    (hst : WalkState.Beside f base base' chain s s')
    (hnames : ∀ inner t, outcome (enterGroup w scope e) s = (.ok inner, t) →
      e.NamesAre f.Keeps w.look scope ["ns"]) :
    Outcome.Agree excused (WalkState.Beside f base base' chain) (Scope.Renamed f)
      (outcome (enterGroup w scope e) s) (outcome (enterGroup { w with strict } scope' e') s') := by
  refine (ofLaunch_lockstep (readGroup_lockstep h he) s s' hst).bind
    fun entered entered' t t' hout hrenamed ht => ?_
  obtain ⟨hinner, hclear⟩ := hrenamed (hnames _ _ (outcome_bind_ok hout _))
  exact (emitClear_lockstep hclear t t' ht).bind fun _ _ _ _ _ _ hbehind =>
    ⟨hinner.inside e e', hbehind⟩

theorem enterNode_agree (isTest : Bool) (h : scope.Renamed f scope') (he : e.SameReading e')
    (hst : WalkState.Beside f base base' chain s s')
    (hnames : ∀ node t, outcome (enterNode w scope isTest e) s = (.ok node, t) →
      e.NamesAre f.Keeps w.look scope ["ns"]) :
    Outcome.Agree excused (WalkState.Beside f base base' chain) (NodeSpec.Entered.Renamed f)
      (outcome (enterNode w scope isTest e) s)
      (outcome (enterNode { w with strict } scope' isTest e') s') := by
  refine (machines_lockstep s s' hst).bind fun known known' t t' hknown hsame ht => ?_
  subst hsame
  refine (ofLaunch_lockstep (NodeSpec.read_lockstep known isTest h he) t t' ht).bind
    fun node node' u u' hout hrenamed hu => ?_
  have hnode := hrenamed (hnames node _ ((outcome_bind_ok hknown _).trans (outcome_bind_ok hout _)))
  exact (emitClear_lockstep hnode.clear u u' hu).bind fun _ _ _ _ _ _ hbehind => ⟨hnode, hbehind⟩

/-- What is behind the children of a node completes it. -/
theorem finish_mapNames {node node' : NodeSpec.Entered} (hnode : node.Renamed f node')
    {behind behind' : Scope} (h : behind.Renamed f behind') :
    node'.finish behind' = (node.finish behind).mapNames f.map := by
  rw [NodeSpec.Entered.finish, hnode.spec, h.remaps, h.env]
  rfl

theorem node_agree {inside inside' : Scope → WalkM Scope} (isTest : Bool)
    (h : scope.Renamed f scope') (he : e.SameReading e')
    (hst : WalkState.Beside f base base' chain s s')
    (hnames : ∀ node t, outcome (enterNode w scope isTest e) s = (.ok node, t) →
      e.NamesAre f.Keeps w.look scope ["ns"])
    (hinside : ∀ node t inner' t', outcome (enterNode w scope isTest e) s = (.ok node, t) →
      (e.inside node.scope).Renamed f inner' → WalkState.Beside f base base' chain t t' →
      Outcome.Agree excused (WalkState.Beside f base base' chain) (Scope.Renamed f)
        (outcome (inside (e.inside node.scope)) t) (outcome (inside' inner') t')) :
    Outcome.Agree excused (WalkState.Beside f base base' chain) Eq
      (outcome (node w inside scope isTest e) s)
      (outcome (node { w with strict } inside' scope' isTest e') s') := by
  refine (enterNode_agree isTest h he hst hnames).bind fun node node' t t' hout hnode ht => ?_
  refine (hinside node t _ t' hout (hnode.scope.inside e e') ht).bind
    fun behind behind' u u' _ hbehind hu => ?_
  refine emit_lockstep ?_ ?_ u u' hu
  · rw [finish_mapNames hnode hbehind]
    rfl
  · exact ⟨hnode.name.admits, hnode.name_ne_root⟩

/-! ## Includes -/

/-- An include leads to the same file, in scopes that are related. -/
theorem enterInclude_agree
    (hw : w.Excuses strict (fun err => ∃ c ∈ e.children, c.Refused "include" err) excused)
    (h : scope.IncludesAlike f w.look e scope') (he : e.Alike e') (hinclude : e.tag = "include")
    (hst : WalkState.Beside f base base' chain s s')
    (hnames : ∀ opened t, outcome (enterInclude w scope e) s = (.ok opened, t) →
      e.NamesAre f.Keeps w.look scope ["ns"]) :
    Outcome.Agree excused (WalkState.Beside f base base' chain)
      (fun opened opened' => opened'.1 = opened.1 ∧ opened.2.Renamed f opened'.2)
      (outcome (enterInclude w scope e) s)
      (outcome (enterInclude { w with strict } scope' e') s') := by
  refine (ofLaunch_lockstep (readHead_lockstep h he.toSameReading) s s' hst).bind
    fun head head' t t' hhead hrel ht => ?_
  obtain ⟨hpath, hpasses, hall, hrenamed⟩ := hrel
  refine (chain_lockstep t t' ht).bind fun c c' u u' hc hchains hu => ?_
  obtain ⟨rfl, rfl⟩ := hchains
  rw [hpath, hpasses]
  split
  · exact .inr ⟨rfl, hu⟩
  · rename_i hopen
    have hchildren := IncludeInputs.addChildren_lockstep hw (hinclude ▸ he.children)
      h.readsChild (h.start hall)
    refine (ofLaunch_lockstep hchildren u u' hu).bind fun inputs inputs' v v' hinputs hsame hv => ?_
    have hkeeps : e.NamesAre f.Keeps w.look scope ["ns"] :=
      hnames _ _ ((outcome_bind_ok hhead _).trans ((outcome_bind_ok hc _).trans
        ((congrArg (outcome · u) (if_neg hopen)).trans (outcome_bind_ok hinputs _))))
    have hhead := hrenamed hkeeps
    refine (emitClear_lockstep hhead.clear v v' hv).bind fun _ _ x x' _ _ hx => ?_
    exact ⟨⟨rfl, (IncludeInputs.scopeOf_renamed hhead.ns hsame head.path).inside e e'⟩, hx⟩

end WalkT

/-! ## Elements -/

/-- Moments that lead to each other only, and whose names go along with a renaming. -/
structure Region (f : Renaming) (w : World) (enter : EnterFile) (S : Moment → Prop) : Prop where
  closed : ∀ {m m'}, S m → m.Leads w enter m' → S m'
  names : ∀ {m m'}, S m → m.Leads w enter m' → m.NamesAre f.Keeps w

/-- Two ways to walk an included file match at the openings of a region. -/
def EnterFile.Agree (excused : LaunchError → Prop) (f : Renaming) (base base' : Log)
    (chain : List Path) (S : Moment → Prop) (enter enter' : EnterFile) : Prop :=
  ∀ {path inner inner' s s'}, S (.opening path inner s) → inner.Renamed f inner' →
    WalkState.Beside f base base' chain s s' →
    Outcome.Agree excused (WalkState.Beside f base base' chain) Eq (outcome (enter path inner) s)
      (outcome (enter' path inner') s')

/-- The error with which a run refuses the element that it comes to at this moment, or a child of
that element if it is an include. -/
def Moment.Refuses (w : World) : Moment → LaunchError → Prop
  | .children parent scope (e :: _) s, err => e.Refused parent err ∨
      ∃ s', e.ActiveAs w parent scope .include s s' ∧ ∃ c ∈ e.children, c.Refused "include" err
  | _, _ => False

/-- An error with which an element is refused at one of these moments. -/
def Moment.RefusedIn (w : World) (S : Moment → Prop) (err : LaunchError) : Prop :=
  ∃ m, S m ∧ m.Refuses w err

variable {enter enter' : EnterFile} {S : Moment → Prop} {parent : String} {rest : List Element}

/-- What is inside of an element is walked the same on both sides, at the moments of a region. -/
def InsideAgree (excused : LaunchError → Prop) (f : Renaming) (base base' : Log) (chain : List Path)
    (S : Moment → Prop) (e : Element) (inside inside' : Scope → WalkM Scope) : Prop :=
  ∀ {inner inner' t t'}, S (.children e.tag inner e.children t) → inner.Renamed f inner' →
    WalkState.Beside f base base' chain t t' →
    Outcome.Agree excused (WalkState.Beside f base base' chain) (Scope.Renamed f)
      (outcome (inside inner) t) (outcome (inside' inner') t')

section

variable {s₀ : WalkState} {inside inside' : Scope → WalkM Scope}

/-- A node that takes part is recorded the same on both sides. -/
theorem nodeInside_agree (hS : Region f w enter S) (hm : S (.children parent scope (e :: rest) s₀))
    (isTest : Bool) (hpart : e.ActiveAs w parent scope (.ofNode isTest) s₀ s)
    (h : scope.Renamed f scope') (he : e.Alike e')
    (hinside : InsideAgree excused f base base' chain S e inside inside')
    (hst : WalkState.Beside f base base' chain s s') :
    Outcome.Agree excused (WalkState.Beside f base base' chain) Eq
      (outcome (WalkT.node w inside scope isTest e) s)
      (outcome (WalkT.node { w with strict } inside' scope' isTest e') s') := by
  have hleads : ∀ node t, outcome (WalkT.enterNode w scope isTest e) s = (.ok node, t) →
      (Moment.children parent scope (e :: rest) s₀).Leads w enter
        (.children e.tag (e.inside node.scope) e.children t) :=
    fun node t hok => .node isTest hpart hok
  refine WalkT.node_agree isTest h he.toSameReading hst (fun node t hok => ?_) ?_
  · exact Tag.nameAttrs_ofNode isTest ▸ hS.names hm (hleads node t hok) _ s hpart
  · intro node t inner' t' hok hinner ht
    exact hinside (hS.closed hm (hleads node t hok)) hinner ht

/-- A group that takes part is walked the same on both sides. -/
theorem groupInside_agree (hS : Region f w enter S)
    (hm : S (.children parent scope (e :: rest) s₀))
    (hpart : e.ActiveAs w parent scope .group s₀ s)
    (h : scope.Renamed f scope') (he : e.Alike e')
    (hinside : InsideAgree excused f base base' chain S e inside inside')
    (hst : WalkState.Beside f base base' chain s s') :
    Outcome.Agree excused (WalkState.Beside f base base' chain) (Scope.Renamed f)
      (outcome (walkAs w enter inside scope e .group) s)
      (outcome (walkAs { w with strict } enter' inside' scope' e' .group) s') := by
  have hleads : ∀ inner t, outcome (WalkT.enterGroup w scope e) s = (.ok inner, t) →
      (Moment.children parent scope (e :: rest) s₀).Leads w enter
        (.children e.tag inner e.children t) :=
    fun inner t hok => .group hpart hok
  have hnames : ∀ inner t, outcome (WalkT.enterGroup w scope e) s = (.ok inner, t) →
      e.NamesAre f.Keeps w.look scope ["ns"] := fun inner t hok =>
    hS.names hm (hleads inner t hok) .group s hpart
  refine (WalkT.enterGroup_agree h he.toSameReading hst hnames).bind
    fun inner inner' t t' hok hinner ht => ?_
  refine (hinside (hS.closed hm (hleads inner t hok)) hinner ht).bind fun _ _ u u' _ _ hu => ?_
  exact ⟨h, hu⟩

/-- The file of an include that takes part is entered the same on both sides. -/
theorem includedFile_agree (hexact : f.exact) (hS : Region f w enter S)
    (hw : w.Excuses strict (Moment.RefusedIn w S) excused)
    (henter : EnterFile.Agree excused f base base' chain S enter enter')
    (hm : S (.children parent scope (e :: rest) s₀))
    (hpart : e.ActiveAs w parent scope .include s₀ s)
    (h : scope.Renamed f scope') (he : e.Alike e')
    (hst : WalkState.Beside f base base' chain s s') :
    Outcome.Agree excused (WalkState.Beside f base base' chain) (Scope.Renamed f)
      (outcome (walkAs w enter inside scope e .include) s)
      (outcome (walkAs { w with strict } enter' inside' scope' e' .include) s') := by
  have hleads : ∀ opened t, outcome (WalkT.enterInclude w scope e) s = (.ok opened, t) →
      (Moment.children parent scope (e :: rest) s₀).Leads w enter
        (.opening opened.1 opened.2 t) :=
    fun opened t hok => .include hpart hok
  have hnames : ∀ opened t, outcome (WalkT.enterInclude w scope e) s = (.ok opened, t) →
      e.NamesAre f.Keeps w.look scope ["ns"] := fun opened t hok =>
    hS.names hm (hleads opened t hok) .include s hpart
  have htag := Tag.eq_text_of_child? hpart.child?
  have hinputs : w.Excuses strict (fun err => ∃ c ∈ e.children, c.Refused "include" err)
      excused := hw.of_imp fun err herr => ⟨_, hm, .inr ⟨s, hpart, herr⟩⟩
  refine (WalkT.enterInclude_agree hinputs (h.includesAlike hexact e) he htag hst hnames).bind
    fun opened opened' t t' hok hopened ht => ?_
  obtain ⟨path, inner⟩ := opened
  obtain ⟨path', inner'⟩ := opened'
  obtain ⟨rfl, hinner⟩ := hopened
  refine (henter (hS.closed hm (hleads _ t hok)) hinner ht).bind fun _ _ u u' _ _ hu => ?_
  exact ⟨h, hu⟩

end

/-- **An element that takes part does the same on both sides**, if what is inside of it does and so
do the files that it includes. -/
theorem walkAs_agree {tag : Tag} {s₀ : WalkState} (hexact : f.exact) (hS : Region f w enter S)
    (hw : w.Excuses strict (Moment.RefusedIn w S) excused)
    (henter : EnterFile.Agree excused f base base' chain S enter enter')
    (hm : S (.children parent scope (e :: rest) s₀))
    (hpart : e.ActiveAs w parent scope tag s₀ s)
    (h : scope.Renamed f scope') (he : e.Alike e')
    (hinside : InsideAgree excused f base base' chain S e
      (fun inner => walkChildren w enter e.tag inner e.children)
      (fun inner => walkChildren { w with strict } enter' e'.tag inner e'.children))
    (hst : WalkState.Beside f base base' chain s s') :
    Outcome.Agree excused (WalkState.Beside f base base' chain) (Scope.Renamed f)
      (outcome (walkAs w enter (fun inner => walkChildren w enter e.tag inner e.children) scope e
        tag) s)
      (outcome (walkAs { w with strict } enter'
        (fun inner => walkChildren { w with strict } enter' e'.tag inner e'.children) scope' e'
        tag) s') := by
  have hpast : ∀ behind t, outcome (walkAs w enter
      (fun inner => walkChildren w enter e.tag inner e.children) scope e tag) s = (.ok behind, t) →
      e.NamesAre f.Keeps w.look scope tag.nameAttrs := fun behind t hok => by
    have hwalk : outcome (walkElement w enter parent scope e) s₀ = (.ok behind, t) := by
      rw [outcome_walkElement hpart, hok]
      rfl
    exact hS.names hm (.past hwalk) tag s hpart
  cases tag with
  | arg => exact WalkT.ofLaunch_lockstep (readArg_lockstep hexact h he.toSameReading) s s' hst
  | env =>
    refine (WalkT.ofLaunch_lockstep (readEnv_eq (h.readsAlike e) he.toSameReading) s s' hst).bind
      fun entry entry' t t' _ hsame ht => ?_
    subst hsame
    exact ⟨h.setEnv entry.1 entry.2, ht⟩
  | machine => exact WalkT.machine_lockstep h he.toSameReading s s' hst
  | remap =>
    refine (WalkT.ofLaunch_lockstep (readRemap_lockstep h he.toSameReading) s s' hst).imp ?_
    exact fun behind behind' t hok hrenamed => hrenamed (hpast behind t hok)
  | param =>
    refine (WalkT.param_agree h he.toSameReading hst fun t hok =>
      hpast scope t (outcome_bind_ok hok _)).bind fun _ _ t t' _ _ ht => ⟨h, ht⟩
  | rosparam =>
    refine (WalkT.rosparam_agree h he.toSameReading hst fun t hok =>
      hpast scope t (outcome_bind_ok hok _)).bind fun _ _ t t' _ _ ht => ⟨h, ht⟩
  | group => exact groupInside_agree hS hm hpart h he hinside hst
  | node =>
    refine (nodeInside_agree hS hm false hpart h he hinside hst).bind ?_
    exact fun _ _ t t' _ _ ht => ⟨h, ht⟩
  | test =>
    refine (nodeInside_agree hS hm true hpart h he hinside hst).bind ?_
    exact fun _ _ t t' _ _ ht => ⟨h, ht⟩
  | «include» => exact includedFile_agree hexact hS hw henter hm hpart h he hst

mutual

/-- An element walked on two sides. The induction is on the tree; what is below an element is
walked in the same way, and an included file as `enter` and `enter'` do. -/
theorem walkElement_agree (hexact : f.exact) (hS : Region f w enter S)
    (hw : w.Excuses strict (Moment.RefusedIn w S) excused) (hexcused : ExcusedAnywhere excused)
    (henter : EnterFile.Agree excused f base base' chain S enter enter') :
    ∀ (e : Element) (rest : List Element) {parent : String} {scope scope' : Scope} {e' : Element}
      {s s' : WalkState}, S (.children parent scope (e :: rest) s) → scope.Renamed f scope' →
      e.Alike e' → WalkState.Beside f base base' chain s s' →
      Outcome.Agree excused (WalkState.Beside f base base' chain) (Scope.Renamed f)
        (outcome (walkElement w enter parent scope e) s)
        (outcome (walkElement { w with strict } enter' parent scope' e') s')
  | .mk tag attrs children text location, rest, parent, scope, scope', e', s, s', hm, h, he,
    hst => by
    have hactive : e'.isActive w.look scope' = Element.isActive w.look scope _ :=
      (he.isActive _ _).trans (h.isActive _)
    have hself : w.Excuses strict (Element.Refused parent (.mk tag attrs children text location))
        excused := hw.of_imp fun err herr => ⟨_, hm, .inl herr⟩
    rw [walkElement_eq, walkElement_eq, he.location]
    refine Outcome.Agree.locate _ (fun _ => id) ?_
    refine (WalkT.ofLaunch_lockstep (activeTag_lockstep hself he.tag hactive) s s' hst).bind
      fun found found' t t' hpart hsame ht => ?_
    subst hsame
    cases found with
    | none => exact ⟨h, ht⟩
    | some tag =>
      refine (walkAs_agree hexact hS hw henter hm hpart h he (fun hinner hscope hu => ?_) ht).mono
        (hexcused location)
      rw [he.tag]
      exact walkChildren_agree hexact hS hw hexcused henter children hinner hscope he.children hu

/-- **Children walked on two sides.** -/
theorem walkChildren_agree (hexact : f.exact) (hS : Region f w enter S)
    (hw : w.Excuses strict (Moment.RefusedIn w S) excused) (hexcused : ExcusedAnywhere excused)
    (henter : EnterFile.Agree excused f base base' chain S enter enter') :
    ∀ (es : List Element) {parent : String} {scope scope' : Scope} {es' : List Element}
      {s s' : WalkState}, S (.children parent scope es s) → scope.Renamed f scope' →
      Opened parent es es' → WalkState.Beside f base base' chain s s' →
      Outcome.Agree excused (WalkState.Beside f base base' chain) (Scope.Renamed f)
        (outcome (walkChildren w enter parent scope es) s)
        (outcome (walkChildren { w with strict } enter' parent scope' es') s')
  | [], parent, scope, scope', es', s, s', hm, h, hes, hst => by
    rw [hes.eq_nil, walkChildren, walkChildren]
    exact ⟨h, hst⟩
  | e :: rest, parent, scope, scope', es', s, s', hm, h, hes, hst => by
    rw [walkChildren]
    rcases hes.cases_cons with ⟨e', rest', rfl, he, hopened⟩ | ⟨hopened, htag, hoff⟩
    · rw [walkChildren]
      refine (walkElement_agree hexact hS hw hexcused henter e rest hm h he hst).bind
        fun behind behind' t t' hok hbehind ht => ?_
      exact walkChildren_agree hexact hS hw hexcused henter rest (hS.closed hm (.past hok)) hbehind
        hopened ht
    · have hskip : outcome (walkElement w enter parent scope e) s = (.ok scope, s) := by
        rw [walkElement_eq, activeTag_of_off htag (hoff w.look scope)]
        rfl
      rw [outcome_bind_ok hskip]
      exact walkChildren_agree hexact hS hw hexcused henter rest (hS.closed hm (.past hskip)) h
        hopened hst

end

end
end LaunchFile
