import LaunchFile.Proofs.Answers.Read
import LaunchFile.Proofs.Walk.Moment

/-!
# Proofs/Answers/Walk — launch trees that are walked with other answers

A walk with the same answers does the same at every step: it opens the same files, records the same
effects and leaves the same scope behind (`walkElement_mirrors`, `walkNested_mirrors`). So the model
of a tree is the same (`interpretTree_mirrors`), whatever those who answer keep for themselves.
-/

namespace LaunchFile

/-! ## Steps -/

section

variable {σ τ α : Type} {P : σ → τ → Prop} {Q : σ → Prop}

/-- States of two walks that have come as far. Only what those who answer keep may differ. -/
structure WalkState.Paired (P : σ → τ → Prop) (s : WalkState σ) (t : WalkState τ) : Prop where
  registry : P s.registry t.registry
  chain : s.chain = t.chain
  log : s.log = t.log

/-- States are still paired with the same file open in both. -/
theorem WalkState.Paired.opened {s : WalkState σ} {t : WalkState τ} (h : WalkState.Paired P s t)
    (path : Path) : WalkState.Paired P (s.opened path) (t.opened path) :=
  { h with chain := congrArg (· ++ [path]) h.chain }

/-- Steps of two walks mirror each other. What `Q` says of a state is about those who answer. -/
abbrev WalkMirrors (P : σ → τ → Prop) (Q : σ → Prop) (x : WalkT σ α) (y : WalkT τ α) : Prop :=
  Mirrors (WalkState.Paired P) (fun s => Q s.registry) x y

namespace WalkT

/-- A step of the run mirrors another as a step of the walk. -/
theorem ofLaunch_mirrors {x : LaunchT σ α} {y : LaunchT τ α} (h : Mirrors P Q x y) :
    WalkMirrors P Q (ofLaunch x) (ofLaunch y) where
  before s hq := h.before s.registry hq
  agree hst hq := by
    obtain ⟨hresult, hregistry⟩ := h.agree hst.registry hq
    exact ⟨hresult, { hst with registry := hregistry }⟩

/-- The same files are open. -/
theorem chain_mirrors : WalkMirrors P Q chain chain :=
  ⟨fun _ => id, fun hst _ => ⟨congrArg Except.ok hst.chain, hst⟩⟩

/-- The same machines are declared. -/
theorem machines_mirrors : WalkMirrors P Q machines machines :=
  ⟨fun _ => id, fun hst _ => ⟨congrArg (Except.ok ∘ Log.machines) hst.log, hst⟩⟩

/-- Both logs grow by the same effects. -/
theorem emitAll_mirrors (effects : List Effect) :
    WalkMirrors P Q (emitAll effects) (emitAll effects) :=
  ⟨fun _ => id, fun hst _ => ⟨rfl, { hst with log := congrArg (· ++ effects) hst.log }⟩⟩

/-- A file that is opened for both is closed behind both. -/
theorem within_mirrors (path : Path) {x : WalkT σ α} {y : WalkT τ α} (h : WalkMirrors P Q x y) :
    WalkMirrors P Q (within path x) (within path y) where
  before s hq := h.before (s.opened path) hq
  agree hst hq := by
    obtain ⟨hresult, hbehind⟩ := h.agree (hst.opened path) hq
    exact ⟨hresult, { hbehind with chain := congrArg List.dropLast hbehind.chain }⟩

end WalkT
end

/-! ## Elements -/

section

variable {L L' σ τ : Type} [Answers L σ] [Answers L' τ] {P : σ → τ → Prop} {Q : σ → Prop}
  {w : World L} {look : L'} {scope : Scope} {e : Element}

namespace WalkT

/-- The same machine is declared. -/
theorem machine_mirrors (h : Answers.Mirrors P Q w.look look) :
    WalkMirrors P Q (machine w scope e) (machine (w.answeredBy look) scope e) :=
  .bind (ofLaunch_mirrors (MachineSpec.read_mirrors h)) fun _ => .bind machines_mirrors fun _ =>
    .bind (.result _) fun _ => .ite (.bind (emitAll_mirrors _) fun _ => .pure _) (.pure _)

/-- The same parameters are set. -/
theorem param_mirrors (h : Answers.Mirrors P Q w.look look) :
    WalkMirrors P Q (param w scope e) (param (w.answeredBy look) scope e) :=
  .bind (ofLaunch_mirrors (readParam_mirrors h)) fun _ => emitAll_mirrors _

/-- The same command and the same parameters are recorded. -/
theorem rosparam_mirrors (h : Answers.Mirrors P Q w.look look) :
    WalkMirrors P Q (rosparam w scope e) (rosparam (w.answeredBy look) scope e) :=
  .bind (ofLaunch_mirrors (RosparamCommand.read_mirrors h)) fun _ => emitAll_mirrors _

/-- A group is entered alike. -/
theorem enterGroup_mirrors (h : Answers.Mirrors P Q w.look look) :
    WalkMirrors P Q (enterGroup w scope e) (enterGroup (w.answeredBy look) scope e) :=
  .bind (ofLaunch_mirrors (readGroup_mirrors h)) fun _ => .bind (emitAll_mirrors _) fun _ => .pure _

/-- A node is entered alike. -/
theorem enterNode_mirrors (h : Answers.Mirrors P Q w.look look) (isTest : Bool) :
    WalkMirrors P Q (enterNode w scope isTest e)
      (enterNode (w.answeredBy look) scope isTest e) :=
  .bind machines_mirrors fun _ => .bind (ofLaunch_mirrors (NodeSpec.read_mirrors h _)) fun _ =>
    .bind (emitAll_mirrors _) fun _ => .pure _

/-- The same node is recorded if the walks of its children mirror each other. -/
theorem node_mirrors (h : Answers.Mirrors P Q w.look look) {inside : Scope → WalkT σ Scope}
    {inside' : Scope → WalkT τ Scope} (hinside : ∀ inner, WalkMirrors P Q (inside inner)
      (inside' inner)) (isTest : Bool) :
    WalkMirrors P Q (node w inside scope isTest e)
      (node (w.answeredBy look) inside' scope isTest e) :=
  .bind (enterNode_mirrors h isTest) fun _ => .bind (hinside _) fun _ => emitAll_mirrors _

/-- An include enters the same file in the same scope, or is the same cycle. -/
theorem enterInclude_mirrors (h : Answers.Mirrors P Q w.look look) :
    WalkMirrors P Q (enterInclude w scope e) (enterInclude (w.answeredBy look) scope e) :=
  .bind (ofLaunch_mirrors (IncludeHead.read_mirrors h)) fun _ => .bind chain_mirrors fun _ =>
    .ite (.result (.error _)) (.bind (ofLaunch_mirrors (IncludeInputs.addChildren_mirrors h _))
      fun _ => .bind (emitAll_mirrors _) fun _ => .pure _)

end WalkT

open WalkT

variable {enter : EnterFile σ} {enter' : EnterFile τ}

/-- Included files are walked to the same. -/
def EnterFile.Mirrors (P : σ → τ → Prop) (Q : σ → Prop) (enter : EnterFile σ)
    (enter' : EnterFile τ) : Prop :=
  ∀ path scope, WalkMirrors P Q (enter path scope) (enter' path scope)

/-- What an element does, given that its children and the file that it includes are walked to the
same. -/
theorem walkAs_mirrors (h : Answers.Mirrors P Q w.look look) (henter : enter.Mirrors P Q enter')
    {inside : Scope → WalkT σ Scope} {inside' : Scope → WalkT τ Scope}
    (hinside : ∀ inner, WalkMirrors P Q (inside inner) (inside' inner)) (tag : Tag) :
    WalkMirrors P Q (walkAs w enter inside scope e tag)
      (walkAs (w.answeredBy look) enter' inside' scope e tag) := by
  cases tag with
  | arg => exact ofLaunch_mirrors (readArg_mirrors h)
  | remap => exact ofLaunch_mirrors (readRemap_mirrors h)
  | env => exact .bind (ofLaunch_mirrors (readEnv_mirrors h)) fun _ => .pure _
  | machine => exact machine_mirrors h
  | param => exact .bind (param_mirrors h) fun _ => .pure scope
  | rosparam => exact .bind (rosparam_mirrors h) fun _ => .pure scope
  | group => exact .bind (enterGroup_mirrors h) fun _ => .bind (hinside _) fun _ => .pure scope
  | node => exact .bind (node_mirrors h hinside false) fun _ => .pure scope
  | test => exact .bind (node_mirrors h hinside true) fun _ => .pure scope
  | «include» =>
    exact .bind (enterInclude_mirrors h) fun _ => .bind (henter _ _) fun _ => .pure scope

mutual

/-- **An element is walked to the same.** The induction is on the tree. -/
theorem walkElement_mirrors (h : Answers.Mirrors P Q w.look look)
    (henter : enter.Mirrors P Q enter') (parent : String) (scope : Scope) : ∀ e : Element,
    WalkMirrors P Q (walkElement w enter parent scope e)
      (walkElement (w.answeredBy look) enter' parent scope e)
  | .mk tag attrs children text location => by
    rw [walkElement, walkElement]
    refine .adapt _ (.bind (ofLaunch_mirrors (Element.activeTag_mirrors h parent)) fun active => ?_)
    cases active with
    | none => exact .pure scope
    | some t =>
      exact walkAs_mirrors h henter
        (fun inner => walkChildren_mirrors h henter tag inner children) t

/-- Children are walked to the same. -/
theorem walkChildren_mirrors (h : Answers.Mirrors P Q w.look look)
    (henter : enter.Mirrors P Q enter') (parent : String) (scope : Scope) :
    ∀ children : List Element, WalkMirrors P Q (walkChildren w enter parent scope children)
      (walkChildren (w.answeredBy look) enter' parent scope children)
  | [] => by
    rw [walkChildren, walkChildren]
    exact .pure scope
  | e :: rest => by
    rw [walkChildren, walkChildren]
    exact .bind (walkElement_mirrors h henter parent scope e) fun behind =>
      walkChildren_mirrors h henter parent behind rest

end

/-! ## Files -/

/-- A root is entered alike. -/
theorem enterRoot_mirrors (h : Answers.Mirrors P Q w.look look) :
    WalkMirrors P Q (enterRoot w scope e) (enterRoot (w.answeredBy look) scope e) :=
  .bind (.result _) fun _ => .bind (ofLaunch_mirrors (Element.isActive_mirrors h)) fun _ =>
    .ite (.pure _) (.pure none)

/-- A whole tree is walked to the same. -/
theorem walkRoot_mirrors (h : Answers.Mirrors P Q w.look look)
    (henter : enter.Mirrors P Q enter') (scope : Scope) (root : Element) :
    WalkMirrors P Q (walkRoot w enter scope root)
      (walkRoot (w.answeredBy look) enter' scope root) := by
  refine .bind (enterRoot_mirrors h) fun inner => ?_
  cases inner with
  | none => exact .pure scope
  | some inner => exact walkChildren_mirrors h henter root.tag inner root.children

/-- Files are walked to the same. The induction is on the levels that they may nest. -/
theorem walkNested_mirrors (h : Answers.Mirrors P Q w.look look) {last : EnterFile σ}
    {last' : EnterFile τ} (hlast : last.Mirrors P Q last') : ∀ budget : Nat,
    (walkNested w last budget).Mirrors P Q (walkNested (w.answeredBy look) last' budget)
  | 0 => hlast
  | budget + 1 => fun path scope =>
    .bind (.result (readTree w path)) fun root => .bind (within_mirrors path
      (walkRoot_mirrors h (walkNested_mirrors h hlast budget) scope root)) fun _ => .pure ()

/-- A file that is refused is refused for both. -/
theorem refuseFile_mirrors : (refuseFile (σ := σ)).Mirrors P Q (refuseFile (σ := τ)) :=
  fun _ _ => .bind chain_mirrors fun _ => .result (.error _)

/-! ## Runs -/

/-- **The same tree has the same model, whoever answers.** -/
theorem interpretTree_mirrors (h : Answers.Mirrors P Q w.look look) (scope : Scope)
    (root : Element) :
    Mirrors P Q (interpretTree w scope root) (interpretTree (w.answeredBy look) scope root) := by
  have hwalk := walkRoot_mirrors h
    (walkNested_mirrors h refuseFile_mirrors (w.files.size + 1)) scope root
  constructor
  · exact fun s hq => hwalk.before (.start s scope) hq
  · intro s t hst hq
    obtain ⟨hresult, hbehind⟩ :=
      hwalk.agree (s := .start s scope) (t := .start t scope) ⟨hst, rfl, rfl⟩ hq
    let model (result : Result Scope) (log : Log) : Result Model :=
      result.map fun behind => Model.ofLog log behind.args
    rw [interpretTree, interpretTree, outcome_interpretWith, outcome_interpretWith]
    exact ⟨congrArg₂ model hresult hbehind.log, hbehind.registry⟩

end
end LaunchFile
