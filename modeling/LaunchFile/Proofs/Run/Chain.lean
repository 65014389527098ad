import LaunchFile.Proofs.Path
import LaunchFile.Proofs.Run.Gates
import LaunchFile.Proofs.Walk.Ending

/-!
# Proofs/Run/Chain — how deep files nest

The chain of open files is the same at all moments in one file (`Moment.Leads.chain_eq`). From a
normalized path on it holds normalized paths of files, none of them twice (`InRun.isChain`), so that
files nest no deeper than there are files. Levels that suffice for all of them are as good as any
others that do, whatever stands at their end (`interpretWith_walkNested`).
-/

namespace LaunchFile

open Moment (InRun)

section

variable {w : World} {scope : Scope} {e : Element} {s t : WalkState}

/-! ## Openings -/

/-- A file that is opened is not open yet, and its path is normalized. -/
theorem of_enterInclude {path : Path} {inner : Scope}
    (h : outcome (WalkT.enterInclude w scope e) s = (.ok (path, inner), t)) :
    path.IsNormal ∧ path ∉ s.chain ∧ t.chain = s.chain := by
  obtain ⟨head, r, inputs, _, hnew, _, rfl, _, hchain⟩ := WalkT.enterInclude_eq_ok h
  refine ⟨head.isNormal, fun hmem => hnew ?_, hchain⟩
  exact List.any_eq_true.2 ⟨head.path, hmem, Path.sameAs_self _⟩

end

/-- All moments of one file have the same files open. -/
theorem Moment.Leads.chain_eq {w : World} {budget : Nat} {m m' : Moment}
    (h : m.Leads w (walkFile w budget) m') : m'.state.chain = m.state.chain :=
  h.continues.chain

/-- To enter a root leaves the files open that are. -/
theorem chain_of_enterRoot {w : World} {scope : Scope} {root : Element} {inner : Option Scope}
    {s t : WalkState} (h : outcome (WalkT.enterRoot w scope root) s = (.ok inner, t)) :
    t.chain = s.chain :=
  (continues_of_ok keeps_enterRoot (.refl s) h).chain

/-! ## Chains of files -/

/-- Files that may be open together: normalized paths that can be read, none of them twice. -/
structure Files.IsChain (files : Files) (chain : List Path) : Prop where
  nodup : chain.Nodup
  isNormal : ∀ p ∈ chain, p.IsNormal
  readable : ∀ p ∈ chain, ∃ contents, files.bytes p = .ok contents

namespace Files

variable {files : Files}

/-- No more files are open than there are. -/
theorem IsChain.length_le {chain : List Path} (h : files.IsChain chain) :
    chain.length ≤ files.size := by
  refine h.nodup.length_le_of_subset fun p hp => ?_
  obtain ⟨contents, hbytes⟩ := h.readable p hp
  exact files.mem_paths (h.isNormal p hp) hbytes

/-- One file that can be read is a chain. -/
theorem isChain_singleton {path : Path} {contents : List UInt8} (hpath : path.IsNormal)
    (h : files.bytes path = .ok contents) : files.IsChain [path] where
  nodup := List.nodup_singleton _
  isNormal _ hp := List.mem_singleton.1 hp ▸ hpath
  readable _ hp := List.mem_singleton.1 hp ▸ ⟨contents, h⟩

/-- A chain grows by a file that is not in it and can be read. -/
theorem IsChain.concat {chain : List Path} (h : files.IsChain chain) {path : Path}
    {contents : List UInt8} (hnew : path ∉ chain) (hpath : path.IsNormal)
    (hbytes : files.bytes path = .ok contents) : files.IsChain (chain ++ [path]) where
  nodup := List.nodup_append.2 ⟨h.nodup, List.nodup_singleton _, fun _ hp _ hq heq =>
    hnew (List.mem_singleton.1 hq ▸ heq ▸ hp)⟩
  isNormal := List.forall_mem_append.2 ⟨h.isNormal, fun _ hp => List.mem_singleton.1 hp ▸ hpath⟩
  readable := List.forall_mem_append.2
    ⟨h.readable, fun _ hp => List.mem_singleton.1 hp ▸ ⟨contents, hbytes⟩⟩

end Files

/-- A file whose tree is read can be read. -/
theorem exists_bytes_of_readTree {w : World} {path : Path} {tree : Element}
    (h : readTree w path = .ok tree) : ∃ contents, w.files.bytes path = .ok contents := by
  obtain ⟨source, hsource, _⟩ := Except.bind_eq_ok h
  obtain ⟨contents, hbytes, _⟩ := Except.bind_eq_ok (Except.mapError_eq_ok hsource)
  exact ⟨contents, hbytes⟩

/-! ## Moments -/

/-- A file that is about to be opened is not open yet. -/
def Moment.OpensNew : Moment → Prop
  | .children .. => True
  | .opening path _ s => path.IsNormal ∧ path ∉ s.chain

/-- A file that comes to be opened is new. -/
theorem Moment.Leads.opensNew {w : World} {enter : EnterFile} {m m' : Moment}
    (h : m.Leads w enter m') : m'.OpensNew := by
  cases h with
  | past _ => trivial
  | group _ _ => trivial
  | node _ _ _ => trivial
  | «include» _ henter =>
    obtain ⟨hpath, hnew, heq⟩ := of_enterInclude henter
    exact ⟨hpath, heq ▸ hnew⟩

/-- No walk leaves the moments at which files that are opened are new. -/
theorem Region.opensNew (w : World) (enter : EnterFile) :
    Region .same w enter Moment.OpensNew where
  closed _ hleads := hleads.opensNew
  names _ _ := Moment.namesAre_of_forall (fun _ => .inr rfl) w _

section

variable {w : World} {scope : Scope} {root : Element} {registry : AnonRegistry} {levels : Nat}
  {m : Moment}

/-- **At every moment of a run, a file that is opened is new.** -/
theorem Moment.InRun.opensNew (h : InRun w scope root registry levels m) : m.OpensNew := by
  cases h with
  | start _ => trivial
  | within _ hleads => exact hleads.opensNew
  | into _ _ _ => trivial

/-- **At every moment of a run, the files that are open may be open together.** -/
theorem Moment.InRun.isChain (hstart : w.files.IsChain scope.file.toList)
    (h : InRun w scope root registry levels m) : w.files.IsChain m.state.chain := by
  induction h with
  | start hroot => exact (chain_of_enterRoot hroot).symm ▸ hstart
  | within _ hleads ih => exact hleads.chain_eq ▸ ih
  | into hopening htree hroot ih =>
    obtain ⟨hpath, hnew⟩ := hopening.opensNew
    obtain ⟨contents, hbytes⟩ := exists_bytes_of_readTree htree
    have hconcat := Files.IsChain.concat ih hnew hpath hbytes
    exact (chain_of_enterRoot hroot).symm ▸ hconcat

/-- The levels that are left are enough for all files that are not open. -/
theorem Moment.InRun.length_lt (h : InRun w scope root registry levels m) :
    w.files.size < m.state.chain.length + levels := by
  induction h with
  | start _ => omega
  | within _ hleads ih => exact hleads.chain_eq ▸ ih
  | @into _ path _ s _ _ s' _ _ hroot ih =>
    have hchain : s'.chain = s.chain ++ [path] := chain_of_enterRoot hroot
    have hlength : s'.chain.length = s.chain.length + 1 := by
      rw [hchain, List.length_append, List.length_singleton]
    simp only [Moment.state] at ih ⊢
    omega

end

/-! ## Levels -/

/-- **Levels that suffice are as good as any that do.** The induction is on the levels; every file
that is opened leaves one file less that can be. -/
theorem walkNested_agree (w : World) (last last' : EnterFile) {base base' : Log} :
    ∀ (levels levels' : Nat) {chain : List Path}, w.files.IsChain chain →
      w.files.size < chain.length + levels → w.files.size < chain.length + levels' →
      EnterFile.Agree (fun _ => False) .same base base' chain Moment.OpensNew
        (walkNested w last levels) (walkNested w last' levels')
  | 0, _, chain, hchain, hlevels, _ => absurd hlevels (Nat.not_lt.2 hchain.length_le)
  | _, 0, chain, hchain, _, hlevels => absurd hlevels (Nat.not_lt.2 hchain.length_le)
  | levels + 1, levels' + 1, chain, hchain, hlevels, hlevels' => by
    intro ⟨hpath, hnew⟩ h hst
    refine openFile_agree trivial (Region.opensNew w _) (w.excuses_self _) excusedAnywhere_false
      (fun htree => ?_) (fun _ _ => trivial) h hst
    obtain ⟨contents, hbytes⟩ := exists_bytes_of_readTree htree
    exact walkNested_agree w last last' levels levels'
      (hchain.concat (hst.chain_left ▸ hnew) hpath hbytes)
      (by rw [List.length_append, List.length_singleton]; omega)
      (by rw [List.length_append, List.length_singleton]; omega)

/-- Of levels that suffice, neither their number nor what stands at their end is seen in a run. -/
theorem interpretWith_walkNested {w : World} (last last' : EnterFile) {levels levels' : Nat}
    {scope : Scope} (hstart : w.files.IsChain scope.file.toList)
    (hlevels : w.files.size < scope.file.toList.length + levels)
    (hlevels' : w.files.size < scope.file.toList.length + levels') (root : Element) :
    interpretWith w (walkNested w last levels) scope root =
      interpretWith w (walkNested w last' levels') scope root := by
  funext registry
  exact (interpretWith_agree trivial (Region.opensNew w _) (w.excuses_self _) excusedAnywhere_false
    (walkNested_agree w last last' levels levels' hstart hlevels hlevels')
    (.same scope) (.refl root) registry fun _ => trivial).eq_of_same.symm

/-! ## Whole files -/

/-- Steps that agree behind each success of a result agree behind the result. -/
theorem liftM_result_bind_congr {σ α β : Type} {x : Result α}
    {f g : α → ExceptT LaunchError (StateM σ) β} (h : ∀ a, x = .ok a → f a = g a) :
    (liftM x : ExceptT LaunchError (StateM σ) α) >>= f = liftM x >>= g := by
  cases x with
  | error e => rfl
  | ok a => exact h a rfl

/-- The model of a file is that of its tree, with the file open. -/
theorem interpretFile_eq (w : World) (path : Path) (args : List (String × String)) :
    interpretFile w path args = (do
      let root ← readTree w path.normalize
      interpretTree w (topScope (some path.normalize) args) root) := by
  unfold interpretFile interpretText readTree
  rw [LaunchT.liftM_bind, bind_assoc]

/-- A run on a file whose tree can be read is the run on that tree. -/
theorem interpretFile_of_ok {w : World} {path : Path} {args : List (String × String)}
    {root : Element} (hroot : readTree w path.normalize = .ok root) :
    interpretFile w path args =
      interpretTree w (topScope (some path.normalize) args) root := by
  rw [interpretFile_eq, hroot]
  rfl

end LaunchFile
