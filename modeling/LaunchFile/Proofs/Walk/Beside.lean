import LaunchFile.Proofs.Renaming.Include
import LaunchFile.Proofs.Walk.Moment

/-!
# Proofs/Walk/Beside — the states of two walks side by side

Two walks that do the same keep states that are beside each other: the same registry, the same files
open, and logs that grew by the same effects, under renamed names. Every single step of a walk keeps
states beside each other if it is the same step on both sides.
-/

namespace LaunchFile

/-! ## States -/

/-- States of two walks that have added the same effects since they had the logs `base` and `base'`,
with the files of `chain` open. -/
structure WalkState.Beside (f : Renaming) (base base' : Log) (chain : List Path)
    (s s' : WalkState) : Prop where
  registry : s'.registry = s.registry
  chain_left : s.chain = chain
  chain_right : s'.chain = chain
  machines : Log.machines s'.log = Log.machines s.log
  log : ∃ more : Log, s.log = base ++ more ∧ s'.log = base' ++ more.mapNames f.map ∧
    ∀ effect ∈ more, effect.Admitted f

section

variable {f : Renaming} {base base' : Log} {chain : List Path} {excused : LaunchError → Prop}
  {s s' : WalkState}

theorem Log.machines_append (log more : Log) :
    Log.machines (log ++ more) = Log.machines log ++ Log.machines more :=
  List.filterMap_append

/-- The same effects are added on both sides. -/
theorem WalkState.Beside.add (h : WalkState.Beside f base base' chain s s') {effects : List Effect}
    (hadmitted : ∀ effect ∈ effects, effect.Admitted f) :
    WalkState.Beside f base base' chain { s with log := s.log ++ effects }
      { s' with log := s'.log ++ Log.mapNames f.map effects } := by
  obtain ⟨more, hleft, hright, hmore⟩ := h.log
  refine { h with
    machines := ?_
    log := ⟨more ++ effects, ?_, ?_, List.forall_mem_append.2 ⟨hmore, hadmitted⟩⟩ }
  · rw [Log.machines_append, Log.machines_append, Log.machines_mapNames, h.machines]
  · rw [hleft, List.append_assoc]
  · rw [hright, List.append_assoc, Log.mapNames, Log.mapNames, Log.mapNames, List.map_append]

/-! ## Single steps -/

namespace WalkT

variable {α β : Type} {R : α → β → Prop}

/-- Steps of the run stay beside each other as steps of the walk. -/
theorem ofLaunch_lockstep {x : LaunchM α} {y : LaunchM β} (h : Lockstep excused Eq R x y) :
    Lockstep excused (WalkState.Beside f base base' chain) R (ofLaunch x) (ofLaunch y) := by
  intro s s' hst
  have hxy := h s.registry s'.registry hst.registry.symm
  rw [outcome_ofLaunch, outcome_ofLaunch]
  refine hxy.mapState (fun r => { s with registry := r }) (fun r => { s' with registry := r }) ?_
  exact fun _ _ hregistry => { hst with registry := hregistry.symm }

theorem chain_lockstep :
    Lockstep excused (WalkState.Beside f base base' chain) (fun c c' => c = chain ∧ c' = chain)
      WalkT.chain WalkT.chain :=
  fun _ _ hst => ⟨⟨hst.chain_left, hst.chain_right⟩, hst⟩

theorem machines_lockstep :
    Lockstep excused (WalkState.Beside f base base' chain) Eq WalkT.machines WalkT.machines :=
  fun _ _ hst => ⟨hst.machines.symm, hst⟩

theorem emitAll_lockstep {effects effects' : List Effect}
    (heffects : effects' = Log.mapNames f.map effects)
    (hadmitted : ∀ effect ∈ effects, effect.Admitted f) :
    Lockstep excused (WalkState.Beside f base base' chain) Eq (emitAll effects)
      (emitAll effects') := by
  subst heffects
  exact fun _ _ hst => ⟨rfl, hst.add hadmitted⟩

theorem emit_lockstep {effect effect' : Effect} (heffect : effect' = effect.mapNames f.map)
    (hadmitted : effect.Admitted f) :
    Lockstep excused (WalkState.Beside f base base' chain) Eq (emit effect) (emit effect') := by
  subst heffect
  exact emitAll_lockstep rfl fun _ hmem => List.mem_singleton.1 hmem ▸ hadmitted

theorem emitClear_lockstep {clear clear' : Option RosparamCommand}
    (h : RosparamCommand.ClearsRenamed f clear clear') :
    Lockstep excused (WalkState.Beside f base base' chain) Eq (emitClear clear)
      (emitClear clear') := by
  refine emitAll_lockstep ?_ ?_
  · rw [h]
    cases clear <;> rfl
  · cases clear with
    | none => exact fun _ hmem => absurd hmem List.not_mem_nil
    | some command => simp [Effect.Admitted]

/-- A step with a file open, and the file closed again. -/
theorem within_agree {x : WalkM α} {y : WalkM β} {path : Path}
    (hst : WalkState.Beside f base base' chain s s')
    (h : WalkState.Beside f base base' (chain ++ [path]) (s.opened path) (s'.opened path) →
      Outcome.Agree excused (WalkState.Beside f base base' (chain ++ [path])) R
        (outcome x (s.opened path)) (outcome y (s'.opened path))) :
    Outcome.Agree excused (WalkState.Beside f base base' chain) R (outcome (within path x) s)
      (outcome (within path y) s') := by
  have hxy := h { hst with
    chain_left := congrArg (· ++ [path]) hst.chain_left
    chain_right := congrArg (· ++ [path]) hst.chain_right }
  rw [outcome_within, outcome_within]
  refine hxy.mapState WalkState.closed WalkState.closed fun t t' hafter => { hafter with
    chain_left := ?_
    chain_right := ?_ }
  · rw [WalkState.closed, hafter.chain_left, List.dropLast_concat]
  · rw [WalkState.closed, hafter.chain_right, List.dropLast_concat]

end WalkT
end
end LaunchFile
