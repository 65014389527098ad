import LaunchFile.Proofs.Walk.Scopes

/-!
# Proofs/Walk/Records — what a run records, and at which moments

Effects are added to the log at the moments of the run, each by the element at hand
(`Moment.Emits`). What holds of the empty log and is kept whenever an element of the run adds
effects holds of the log of the run (`log_invariant`); so every effect of the log is due to an
element that the run came to.
-/

namespace LaunchFile

/-! ## Logs -/

namespace Log

variable {log : Log}

/-- A command is in the log if the log records it. -/
theorem mem_commands {command : RosparamCommand} :
    command ∈ log.commands ↔ .rosparam command ∈ log := by
  refine ⟨fun h => ?_, fun h => List.mem_filterMap.2 ⟨_, h, rfl⟩⟩
  obtain ⟨effect, hmem, heffect⟩ := List.mem_filterMap.1 h
  cases effect <;> cases heffect
  exact hmem

/-- A setting is in the log if the log records it. -/
theorem mem_params {spec : ParamSpec} : spec ∈ log.params ↔ .param spec ∈ log := by
  refine ⟨fun h => ?_, fun h => List.mem_filterMap.2 ⟨_, h, rfl⟩⟩
  obtain ⟨effect, hmem, heffect⟩ := List.mem_filterMap.1 h
  cases effect <;> cases heffect
  exact hmem

/-- A node is in the log if the log records it. -/
theorem mem_nodes {spec : NodeSpec} : spec ∈ log.nodes ↔ .node spec ∈ log := by
  refine ⟨fun h => ?_, fun h => List.mem_filterMap.2 ⟨_, h, rfl⟩⟩
  obtain ⟨effect, hmem, heffect⟩ := List.mem_filterMap.1 h
  cases effect <;> cases heffect
  exact hmem

end Log

/-! ## What an element adds -/

namespace Moment

/-- The element at hand asks for this clearing. -/
inductive Clears (w : World) : Moment → RosparamCommand → Prop
  | group {parent scope e rest s s₁ inner command s₂} : e.ActiveAs w parent scope .group s s₁ →
    outcome (WalkT.ofLaunch (readGroup w.look scope e)) s₁ = (.ok (inner, some command), s₂) →
    Clears w (.children parent scope (e :: rest) s) command
  | node {parent scope e rest s s₁ node command s₂} (isTest : Bool) :
    e.ActiveAs w parent scope (.ofNode isTest) s s₁ →
    outcome (WalkT.enterNode w scope isTest e) s₁ = (.ok node, s₂) → node.clear = some command →
    Clears w (.children parent scope (e :: rest) s) command
  | include {parent scope e rest s head command s₁} : e.Includes w parent scope head s s₁ →
    head.clear = some command → Clears w (.children parent scope (e :: rest) s) command

/-- The element at hand is a `<param>` that sets a value under a name. -/
inductive Sets (w : World) : Moment → String → ParamValue → Location → Prop
  | mk {parent scope e rest s s₁ name value s₂} : e.ActiveAs w parent scope .param s s₁ →
    outcome (WalkT.ofLaunch (readSetting w scope e)) s₁ = (.ok (name, value), s₂) →
    Sets w (.children parent scope (e :: rest) s) name value e.location

/-- The element at hand is a `<rosparam>` with this command, and with these settings at once. -/
inductive Commands (w : World) : Moment → RosparamCommand → List ParamSpec → Prop
  | mk {parent scope e rest s s₁ command params s₂} : e.ActiveAs w parent scope .rosparam s s₁ →
    outcome (WalkT.ofLaunch (RosparamCommand.read w.look scope e)) s₁ =
      (.ok (command, params), s₂) →
    Commands w (.children parent scope (e :: rest) s) command params

/-- The element at hand is a `<node>` or `<test>` that is this node once its children are walked,
which leave a state behind. -/
inductive Launches (w : World) (enter : EnterFile) : Moment → NodeSpec → WalkState → Prop
  | mk {parent scope e rest s s₁ node s₂ behind s₃} (isTest : Bool) :
    e.ActiveAs w parent scope (.ofNode isTest) s s₁ →
    outcome (WalkT.enterNode w scope isTest e) s₁ = (.ok node, s₂) →
    outcome (walkChildren w enter e.tag (e.inside node.scope) e.children) s₂ = (.ok behind, s₃) →
    Launches w enter (.children parent scope (e :: rest) s) (node.finish behind) s₃

/-- The element at hand adds these effects to a log. -/
inductive Emits (w : World) (enter : EnterFile) : Moment → Log → Log → Prop
  | clear {m command log} : m.Clears w command → Emits w enter m log [.rosparam command]
  | param {m name value location log} : m.Sets w name value location →
    Emits w enter m log ((ParamSpec.ofValue name value location).map .param)
  | rosparam {m command params log} : m.Commands w command params →
    Emits w enter m log (.rosparam command :: params.map .param)
  | machine {parent scope e rest s s₁ spec s₂} : e.ActiveAs w parent scope .machine s s₁ →
    outcome (WalkT.ofLaunch (MachineSpec.read w scope e)) s₁ = (.ok spec, s₂) →
    MachineSpec.isNew s₂.log.machines spec = .ok true →
    Emits w enter (.children parent scope (e :: rest) s) s₂.log [.machine spec]
  | node {m spec behind} : m.Launches w enter spec behind →
    Emits w enter m behind.log [.node spec]

variable {w : World} {enter : EnterFile} {m : Moment} {log effects : Log}

/-- A recorded command is a clearing, or that of a `<rosparam>`. -/
theorem Emits.clears_or_commands {command : RosparamCommand} (h : m.Emits w enter log effects)
    (hmem : .rosparam command ∈ effects) :
    m.Clears w command ∨ ∃ params, m.Commands w command params := by
  cases h with
  | clear hclear =>
    cases List.mem_singleton.1 hmem
    exact .inl hclear
  | param _ => simp at hmem
  | rosparam hcommand =>
    obtain rfl : command = _ := by simpa using hmem
    exact .inr ⟨_, hcommand⟩
  | machine _ _ _ => simp at hmem
  | node _ => simp at hmem

/-- A recorded setting is that of a `<param>`, or was made at once by a `<rosparam>`. -/
theorem Emits.sets_or_commands {spec : ParamSpec} (h : m.Emits w enter log effects)
    (hmem : .param spec ∈ effects) :
    (∃ name value location, m.Sets w name value location ∧
      spec ∈ ParamSpec.ofValue name value location) ∨
    ∃ command params, m.Commands w command params ∧ spec ∈ params := by
  cases h with
  | clear _ => simp at hmem
  | param hsets => exact .inl ⟨_, _, _, hsets, by simpa using hmem⟩
  | rosparam hcommand => exact .inr ⟨_, _, hcommand, by simpa using hmem⟩
  | machine _ _ _ => simp at hmem
  | node _ => simp at hmem

/-- A recorded node is launched. -/
theorem Emits.launches {spec : NodeSpec} (h : m.Emits w enter log effects)
    (hmem : .node spec ∈ effects) : ∃ behind, m.Launches w enter spec behind := by
  cases h with
  | clear _ => simp at hmem
  | param _ => simp at hmem
  | rosparam _ => simp at hmem
  | machine _ _ _ => simp at hmem
  | node hlaunches =>
    cases List.mem_singleton.1 hmem
    exact ⟨_, hlaunches⟩

end Moment

open Moment (InRun)

section

variable {w : World} {enter : EnterFile} {P : Log → Prop} {S : Moment → Prop} {parent : String}
  {scope : Scope} {e : Element} {rest : List Element} {s₀ s : WalkState} {α β : Type}

/-! ## Steps -/

/-- A step from this state leaves a log with the property behind, also behind an error. -/
def WalkT.Leaves (P : Log → Prop) (x : WalkM α) (s : WalkState) : Prop :=
  P (outcome x s).2.log

namespace WalkT.Leaves

/-- **Steps in sequence leave a log as it should be**, if each of them does from where it begins. -/
theorem bind {x : WalkM α} {f : α → WalkM β} (hx : Leaves P x s)
    (hf : ∀ a t, outcome x s = (.ok a, t) → P t.log → Leaves P (f a) t) : Leaves P (x >>= f) s :=
  outcome_bind_state (P := fun t : WalkState => P t.log) hx hf

/-- What a step is followed by may keep the log. -/
theorem andReturn {x : WalkM α} {f : α → β} (hx : Leaves P x s) :
    Leaves P (x >>= fun a => pure (f a)) s :=
  hx.bind fun _ _ _ ht => ht

/-- A step of the run records nothing. -/
theorem ofLaunch (x : LaunchM α) (hs : P s.log) : Leaves P (WalkT.ofLaunch x) s :=
  hs

theorem result (r : Result α) (hs : P s.log) : Leaves P (liftM r : WalkM α) s := by
  cases r <;> exact hs

/-- A place is no matter of the log. -/
theorem located {x : WalkM α} (location : Location) (hx : Leaves P x s) :
    Leaves P (WalkT.located location x) s := by
  rw [Leaves, WalkT.located, outcome_adapt]
  exact hx

/-- A file that is opened and closed is no matter of the log. -/
theorem within {x : WalkM α} {path : Path} (hx : Leaves P x (s.opened path)) :
    Leaves P (WalkT.within path x) s :=
  hx

/-- What is asked to be cleared is in the log when an element is entered. -/
theorem emitClear {clear : Option RosparamCommand} (hs : P s.log)
    (h : ∀ command, clear = some command → P (s.log ++ [.rosparam command])) :
    Leaves P (WalkT.emitClear clear) s := by
  cases clear with
  | none =>
    have hsame : P (s.log ++ []) := (List.append_nil s.log).symm ▸ hs
    exact hsame
  | some command => exact h command rfl

end WalkT.Leaves

/-! ## Regions -/

/-- A log keeps a property with all effects that the element at hand adds. -/
def Moment.KeepsLog (w : World) (enter : EnterFile) (P : Log → Prop) (m : Moment) : Prop :=
  ∀ log effects, m.Emits w enter log effects → P log → P (log ++ effects)

/-- The settings of a `<param>` are those of one name and value. -/
theorem Moment.exists_sets {params : List ParamSpec} {t : WalkState}
    (hpart : e.ActiveAs w parent scope .param s₀ s)
    (hread : outcome (WalkT.ofLaunch (readParam w scope e)) s = (.ok params, t)) :
    ∃ name value, (Moment.children parent scope (e :: rest) s₀).Sets w name value e.location ∧
      params = ParamSpec.ofValue name value e.location := by
  have hparam := (WalkT.eq_of_ofLaunch hread).1
  rw [readParam] at hparam
  obtain ⟨⟨name, value⟩, r, hsetting, hparams⟩ := outcome_bind_eq_ok hparam
  exact ⟨name, value, .mk hpart (WalkT.outcome_ofLaunch_eq hsetting),
    (Except.ok.inj (congrArg Prod.fst hparams)).symm⟩

/-- Moments that lead to each other only, at which elements keep a property of the log. -/
structure Keeping (w : World) (enter : EnterFile) (P : Log → Prop) (S : Moment → Prop) :
    Prop where
  closed : ∀ {m m'}, S m → m.Leads w enter m' → S m'
  keeps : ∀ {m}, S m → m.KeepsLog w enter P

/-- A way to walk included files keeps a property of the log at the openings of a region. -/
def EnterFile.KeepsLog (P : Log → Prop) (S : Moment → Prop) (enter : EnterFile) : Prop :=
  ∀ {path top s}, S (.opening path top s) → P s.log → WalkT.Leaves P (enter path top) s

/-! ## Elements -/

namespace WalkT

/-- Going into a group records its clearing. -/
theorem enterGroup_leaves
    (hkeeps : (Moment.children parent scope (e :: rest) s₀).KeepsLog w enter P)
    (hpart : e.ActiveAs w parent scope .group s₀ s) (hs : P s.log) :
    Leaves P (enterGroup w scope e) s := by
  refine .bind (.ofLaunch _ hs) fun ⟨inner, clear⟩ t hread ht => ?_
  refine .andReturn (.emitClear ht fun command hclear => ?_)
  exact hkeeps _ _ (.clear (.group hpart (hclear ▸ hread))) ht

/-- Going into a node records its clearing. -/
theorem enterNode_leaves (isTest : Bool)
    (hkeeps : (Moment.children parent scope (e :: rest) s₀).KeepsLog w enter P)
    (hpart : e.ActiveAs w parent scope (.ofNode isTest) s₀ s) (hs : P s.log) :
    Leaves P (enterNode w scope isTest e) s := by
  refine .bind (x := machines) hs fun known t hknown ht => ?_
  refine .bind (.ofLaunch _ ht) fun node u hread hu => ?_
  refine .andReturn (.emitClear hu fun command hclear => ?_)
  have henter : outcome (enterNode w scope isTest e) s =
      (.ok node, (outcome (emitClear node.clear) u).2) :=
    (outcome_bind_ok hknown _).trans (outcome_bind_ok hread _)
  exact hkeeps _ _ (.clear (.node isTest hpart henter hclear)) hu

/-- A node is recorded behind what is inside of it. -/
theorem node_leaves (isTest : Bool)
    (hkeeps : (Moment.children parent scope (e :: rest) s₀).KeepsLog w enter P)
    (hpart : e.ActiveAs w parent scope (.ofNode isTest) s₀ s) (hs : P s.log)
    (hinside : ∀ {node t}, outcome (enterNode w scope isTest e) s = (.ok node, t) → P t.log →
      Leaves P (walkChildren w enter e.tag (e.inside node.scope) e.children) t) :
    Leaves P (node w (fun inner => walkChildren w enter e.tag inner e.children) scope isTest e)
      s := by
  refine .bind (enterNode_leaves isTest hkeeps hpart hs) fun node t henter ht => ?_
  refine .bind (hinside henter ht) fun behind u hwalk hu => ?_
  exact hkeeps _ _ (.node (.mk isTest hpart henter hwalk)) hu

/-- A machine is recorded if it is new. -/
theorem machine_leaves
    (hkeeps : (Moment.children parent scope (e :: rest) s₀).KeepsLog w enter P)
    (hpart : e.ActiveAs w parent scope .machine s₀ s) (hs : P s.log) :
    Leaves P (machine w scope e) s := by
  refine .bind (.ofLaunch _ hs) fun spec t hread ht => ?_
  refine .bind (x := machines) ht fun known u hknown hu => ?_
  cases hknown
  refine .bind (.result _ hu) fun isNew v hnew hv => ?_
  obtain ⟨hnew, rfl⟩ := eq_ok_of_outcome hnew
  cases isNew with
  | false => exact hv
  | true => exact .andReturn (x := emit (.machine spec)) (hkeeps _ _ (.machine hpart hread hnew) hv)

/-- Going into an include records its clearing. -/
theorem enterInclude_leaves
    (hkeeps : (Moment.children parent scope (e :: rest) s₀).KeepsLog w enter P)
    (hpart : e.ActiveAs w parent scope .include s₀ s) (hs : P s.log) :
    Leaves P (enterInclude w scope e) s := by
  refine .bind (.ofLaunch _ hs) fun head t hread ht => ?_
  refine .bind (x := chain) ht fun opened u hchain hu => ?_
  split
  · exact hu
  · refine .bind (.ofLaunch _ hu) fun inputs v _ hv => ?_
    refine .andReturn (.emitClear hv fun command hclear => ?_)
    exact hkeeps _ _ (.clear (.include ⟨s, hpart, hread⟩ hclear)) hv

end WalkT

/-- An element that takes part keeps a property of the log if what it leads to does. -/
theorem walkAs_leaves {tag : Tag} (hS : Keeping w enter P S) (henter : enter.KeepsLog P S)
    (hm : S (.children parent scope (e :: rest) s₀)) (hpart : e.ActiveAs w parent scope tag s₀ s)
    (hinside : ∀ {inner t}, S (.children e.tag inner e.children t) → P t.log →
      WalkT.Leaves P (walkChildren w enter e.tag inner e.children) t)
    (hs : P s.log) :
    WalkT.Leaves P (walkAs w enter (fun inner => walkChildren w enter e.tag inner e.children) scope
      e tag) s := by
  have hkeeps := hS.keeps hm
  have hnode : ∀ isTest, e.ActiveAs w parent scope (.ofNode isTest) s₀ s → WalkT.Leaves P
      (WalkT.node w (fun inner => walkChildren w enter e.tag inner e.children) scope isTest e) s :=
    fun isTest hpart => WalkT.node_leaves isTest hkeeps hpart hs fun henter ht =>
      hinside (hS.closed hm (.node isTest hpart henter)) ht
  cases tag with
  | arg | remap => exact hs
  | env => exact .andReturn (.ofLaunch _ hs)
  | machine => exact WalkT.machine_leaves hkeeps hpart hs
  | param =>
    refine .andReturn (.bind (.ofLaunch _ hs) fun params t hread ht => ?_)
    obtain ⟨name, value, hsets, rfl⟩ := Moment.exists_sets hpart hread
    exact hkeeps _ _ (.param hsets) ht
  | rosparam =>
    refine .andReturn (.bind (.ofLaunch _ hs) fun ⟨command, params⟩ t hread ht => ?_)
    exact hkeeps _ _ (.rosparam (.mk hpart hread)) ht
  | group =>
    refine .bind (WalkT.enterGroup_leaves hkeeps hpart hs) fun inner t henter ht => ?_
    exact .andReturn (hinside (hS.closed hm (.group hpart henter)) ht)
  | node => exact .andReturn (hnode false hpart)
  | test => exact .andReturn (hnode true hpart)
  | «include» =>
    refine .bind (WalkT.enterInclude_leaves hkeeps hpart hs) fun ⟨path, top⟩ t hopen ht => ?_
    exact .andReturn (henter (hS.closed hm (.include hpart hopen)) ht)

mutual

/-- An element keeps a property of the log. The induction is on the tree. -/
theorem walkElement_leaves (hS : Keeping w enter P S) (henter : enter.KeepsLog P S) :
    ∀ (e : Element) (rest : List Element) {parent : String} {scope : Scope} {s : WalkState},
      S (.children parent scope (e :: rest) s) → P s.log →
      WalkT.Leaves P (walkElement w enter parent scope e) s
  | .mk tag attrs children text location, rest, parent, scope, s, hm, hs => by
    rw [walkElement_eq]
    refine .located _ (.bind (.ofLaunch _ hs) fun found t hpart ht => ?_)
    cases found with
    | none => exact ht
    | some tag => exact walkAs_leaves hS henter hm hpart (walkChildren_leaves hS henter children) ht

/-- **A walk leaves a log as it should be**, if every moment of it does. The induction is on the
tree. -/
theorem walkChildren_leaves (hS : Keeping w enter P S) (henter : enter.KeepsLog P S) :
    ∀ (es : List Element) {parent : String} {scope : Scope} {s : WalkState},
      S (.children parent scope es s) → P s.log →
      WalkT.Leaves P (walkChildren w enter parent scope es) s
  | [], parent, scope, s, hm, hs => by
    rw [walkChildren]
    exact hs
  | e :: rest, parent, scope, s, hm, hs => by
    rw [walkChildren]
    refine .bind (walkElement_leaves hS henter e rest hm hs) fun behind t hwalk ht => ?_
    exact walkChildren_leaves hS henter rest (hS.closed hm (.past hwalk)) ht

end

/-! ## Files -/

/-- So does the walk of a whole tree. -/
theorem walkRoot_leaves {root : Element} (hS : Keeping w enter P S) (henter : enter.KeepsLog P S)
    (hroot : ∀ {inner t}, outcome (WalkT.enterRoot w scope root) s = (.ok (some inner), t) →
      S (.children root.tag inner root.children t))
    (hs : P s.log) : WalkT.Leaves P (walkRoot w enter scope root) s := by
  have hentered : WalkT.Leaves P (WalkT.enterRoot w scope root) s := by
    refine .bind (.result _ hs) fun _ t _ ht => .bind (.ofLaunch _ ht) fun active u _ hu => ?_
    cases active <;> exact hu
  refine hentered.bind fun found t hok ht => ?_
  cases found with
  | none => exact ht
  | some inner => exact walkChildren_leaves hS henter root.children (hroot hok) ht

namespace Moment.InRun

variable {root : Element} {registry : AnonRegistry}

/-- A run that walks some children comes to their end. -/
theorem behind {levels : Nat} : ∀ {es : List Element} {parent : String} {scope' behind : Scope}
    {s t : WalkState}, InRun w scope root registry levels (.children parent scope' es s) →
    outcome (walkChildren w (walkFile w levels) parent scope' es) s = (.ok behind, t) →
    InRun w scope root registry levels (.children parent behind [] t)
  | [], _, _, _, _, _, hm, h => by
    rw [walkChildren] at h
    cases h
    exact hm
  | e :: rest, _, _, _, _, _, hm, h => by
    rw [walkChildren] at h
    obtain ⟨_, _, hwalk, h⟩ := outcome_bind_eq_ok h
    exact (hm.within (.past hwalk)).behind h

/-- Included files keep what all elements of a run keep. The induction is on the levels. -/
theorem walkFile_keepsLog (hkeeps : ∀ levels m, InRun w scope root registry levels m →
      m.KeepsLog w (walkFile w levels) P) :
    ∀ levels, EnterFile.KeepsLog P (InRun w scope root registry levels) (walkFile w levels)
  | 0, path, top, s, _, hs => hs
  | levels + 1, path, top, s, hm, hs => by
    refine .bind (.result (readTree w path) hs) fun tree t htree ht => ?_
    obtain ⟨hread, rfl⟩ := eq_ok_of_outcome htree
    refine .andReturn (.within ?_)
    exact walkRoot_leaves ⟨.within, hkeeps levels _⟩ (walkFile_keepsLog hkeeps levels)
      (hm.into hread) ht

/-- **What all elements of a run keep holds of its log** if it holds of the empty one. -/
theorem log_invariant (hkeeps : ∀ levels m, InRun w scope root registry levels m →
      m.KeepsLog w (walkFile w levels) P) (hempty : P []) :
    P (outcome (walkRoot w (walkFile w (w.files.size + 1)) scope root)
      (.start registry scope)).2.log :=
  walkRoot_leaves ⟨.within, hkeeps _ _⟩ (walkFile_keepsLog hkeeps _) (.start) hempty

/-- **All effects of a run are due to elements that it comes to.** -/
theorem exists_emits {effect : Effect}
    (h : effect ∈ (outcome (walkRoot w (walkFile w (w.files.size + 1)) scope root)
      (.start registry scope)).2.log) :
    ∃ levels m log effects, InRun w scope root registry levels m ∧
      m.Emits w (walkFile w levels) log effects ∧ effect ∈ effects := by
  refine log_invariant (P := fun log => effect ∈ log → _) ?_ nofun h
  intro levels m hm log effects hemits hlog hmem
  rcases List.mem_append.1 hmem with hold | hnew
  · exact hlog hold
  · exact ⟨levels, m, log, effects, hm, hemits, hnew⟩

end Moment.InRun

end
end LaunchFile
