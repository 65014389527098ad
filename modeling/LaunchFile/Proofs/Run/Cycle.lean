import LaunchFile.Proofs.Run.Chain
import LaunchFile.Proofs.Walk.Failing

/-!
# Proofs/Run/Cycle — includes of files that are open

An include of a file that is open reports the files that are open and then that file
(`walkElement_of_open`). An include of any other file never does: what it reports, if a cycle comes
out of it at all, goes on behind its own file (`walkElement_of_new`). So runs detect cycles exactly
(`InRun.detectsCycles`), and meet no other end of their nesting. A run ends in a cycle just if one
of its moments meets an include of an open file (`MeetsCycle`, `meetsCycle_iff_walked`).
-/

namespace LaunchFile

open Moment (InRun)

section

variable {w : World} {enter : EnterFile} {parent : String} {scope : Scope} {e : Element}
  {head : IncludeHead} {s t : WalkState}

/-- A file is found among normalized paths just if it is one of them. -/
theorem any_sameAs_iff {chain : List Path} {path : Path} (hchain : ∀ p ∈ chain, p.IsNormal)
    (hpath : path.IsNormal) : chain.any (·.sameAs path) = true ↔ path ∈ chain := by
  rw [List.any_eq_true]
  constructor
  · rintro ⟨p, hp, hsame⟩
    exact (Path.sameAs_iff (hchain p hp) hpath).1 hsame ▸ hp
  · exact fun hmem => ⟨path, hmem, Path.sameAs_self path⟩

/-- **An include of a file that is open** reports the files that are open and that file. -/
theorem walkElement_of_open (h : e.Includes w parent scope head s t)
    (hchain : ∀ p ∈ s.chain, p.IsNormal) (hopen : head.path ∈ s.chain) :
    outcome (walkElement w enter parent scope e) s =
      (.error ⟨.includeCycle (s.chain ++ [head.path]), some e.location⟩, t) := by
  have hsame := (any_sameAs_iff hchain head.isNormal).2 hopen
  have heq := h.chain_eq
  obtain ⟨between, hpart, hhead⟩ := h
  have henter : outcome (WalkT.enterInclude w scope e) between =
      (.error (.ofCause (.includeCycle (s.chain ++ [head.path]))), t) := by
    rw [← heq] at hsame ⊢
    refine (outcome_bind_ok hhead _).trans ?_
    refine (outcome_bind_ok (x := WalkT.chain) rfl _).trans ?_
    rw [if_pos hsame]
    rfl
  rw [outcome_walkElement hpart, walkAs, outcome_bind_error henter]
  rfl

theorem keeps_follow {s₀ : WalkState} {chain : List Path}
    (henter : ∀ inner, Keeps (s₀.Continues chain)
      (LaunchError.Extends (chain ++ [head.path])) (enter head.path inner)) :
    Keeps (s₀.Continues chain) (LaunchError.Extends (chain ++ [head.path]))
      (WalkT.follow w enter scope e head) := by
  refine .bind ?_ fun inputs => ?_
  · exact (WalkT.isPlain_ofLaunch (IncludeInputs.isPlain_addChildren w scope _ _)).mono
      fun _ he => he.noCycle.extends _
  · exact .bind (WalkT.keeps_emitAll _) fun _ => .bind (henter _) fun _ => .pure _

/-- **An include of a file that is not open** reports no cycle that ends with that file. -/
theorem walkElement_of_new (h : e.Includes w parent scope head s t)
    (hchain : ∀ p ∈ s.chain, p.IsNormal) (hnew : head.path ∉ s.chain)
    (henter : ∀ inner, Keeps (t.Continues s.chain)
      (LaunchError.Extends (s.chain ++ [head.path])) (enter head.path inner))
    {err : LaunchError} {u : WalkState}
    (hout : outcome (walkElement w enter parent scope e) s = (.error err, u)) :
    err.Extends (s.chain ++ [head.path]) := by
  have hother := mt (any_sameAs_iff hchain head.isNormal).1 hnew
  have heq := h.chain_eq
  have hfollow : Keeps (t.Continues s.chain)
      (LaunchError.Extends (s.chain ++ [head.path])) (WalkT.follow w enter scope e head) :=
    keeps_follow henter
  have hlocated := hfollow.adapt (·.locate e.location) fun _ he => he.locate e.location
  have hstart : t.Continues s.chain t := heq ▸ .refl t
  refine hlocated.of_error hstart (t := u) ?_
  rw [← hout, outcome_adapt, outcome_walkElement_of_new h hother]

/-! ## Runs -/

/-- What an element that is next does to the files that are open: it leaves them as they are, also
behind an error. If it is an include of one of them, it fails and reports them and then that file;
if it is an include of another file, a cycle that comes out of it goes on behind that file. -/
def Moment.DetectsCycles (w : World) (levels : Nat) : Moment → Prop
  | .children parent scope (e :: _) s =>
    let walked := outcome (walkElement w (walkFile w levels) parent scope e) s
    walked.2.chain = s.chain ∧
    ∀ head t, e.Includes w parent scope head s t →
      (head.path ∈ s.chain →
        walked = (.error ⟨.includeCycle (s.chain ++ [head.path]), some e.location⟩, t)) ∧
      (head.path ∉ s.chain → ∀ err u, walked = (.error err, u) →
        err.Extends (s.chain ++ [head.path]))
  | _ => True

/-- Some levels are left at any moment, or the open files would be more than there are. -/
theorem Moment.InRun.exists_level {root : Element} {registry : AnonRegistry} {levels : Nat}
    {m : Moment} (hstart : w.files.IsChain scope.file.toList)
    (h : InRun w scope root registry levels m) : ∃ left, levels = left + 1 := by
  have hlength := h.length_lt
  have hle := (h.isChain hstart).length_le
  exact ⟨levels - 1, by omega⟩

theorem Moment.InRun.detectsCycles {root : Element} {registry : AnonRegistry} {levels : Nat}
    (hstart : w.files.IsChain scope.file.toList) :
    ∀ {m : Moment}, InRun w scope root registry levels m → m.DetectsCycles w levels
  | .children parent scope (e :: rest) s, h => by
    have hchain := h.isChain hstart
    have hwalk : WalkT.KeepsChain s s.chain (walkElement w (walkFile w levels) parent scope e) :=
      keeps_walkElement (keeps_walkFile levels s.chain) parent scope e
    refine ⟨(hwalk.state (.refl s)).chain, ?_⟩
    refine fun head t hincludes => ⟨walkElement_of_open hincludes hchain.isNormal, ?_⟩
    intro hnew err u hout
    obtain ⟨left, rfl⟩ := h.exists_level hstart
    exact walkElement_of_new hincludes hchain.isNormal hnew
      (fun inner => openFile_keeps (keeps_walkFile left (s.chain ++ [head.path]))) hout
  | .children _ _ [] _, _ => trivial
  | .opening .., _ => trivial

/-- At one of its moments a run is to walk an include of a file that is open, whose error is this
one. -/
def MeetsCycle (w : World) (top : Scope) (root : Element) (registry : AnonRegistry)
    (err : LaunchError) : Prop :=
  ∃ levels parent scope e rest s head t,
    InRun w top root registry levels (.children parent scope (e :: rest) s) ∧
    e.Includes w parent scope head s t ∧ head.path ∈ s.chain ∧
    err = ⟨.includeCycle (s.chain ++ [head.path]), some e.location⟩

section

variable {root : Element} {registry : AnonRegistry} {levels : Nat} {path : Path} {m : Moment}
  {err : LaunchError} {cycle : List Path}

/-- **The cycle that a run meets is its error.** -/
theorem MeetsCycle.walked (hstart : w.files.IsChain scope.file.toList)
    (h : MeetsCycle w scope root registry err) :
    (walked w scope root registry).1 = .error err := by
  obtain ⟨levels, parent, inner, e, rest, s, head, t, hm, hincludes, hopen, rfl⟩ := h
  have hwalk : outcome (walkElement w (walkFile w levels) parent inner e) s = _ :=
    walkElement_of_open hincludes (hm.isChain hstart).isNormal hopen
  exact ((passesOn_walkChildren ..).trans hm.passesOn).error _ e.location
    (congrArg Prod.fst hwalk) rfl

/-- A text that fails by itself reports no cycle. -/
theorem noCycle_of_enterText {text : String} {label : Option Path}
    (h : outcome (WalkT.enterText w scope text label) s = (.error err, t)) : err.NoCycle := by
  rcases outcome_bind_eq_error h with hparse | ⟨tree, u, _, h⟩
  · exact (noCycle_parse text label).of_error err (eq_error_of_outcome hparse).1
  · exact (keeps_enterRoot.of_error (.refl u) h).noCycle

/-- A file that is not found is no cycle. -/
theorem noCycle_of_findFile
    (h : outcome (WalkT.findFile w (levels + 1) path scope) s = (.error err, t)) :
    err.NoCycle := by
  rcases outcome_bind_eq_error h with hread | ⟨_, _, _, h⟩
  · have hplain : (w.files.readText path).IsPlain [] := isPlain_readText w.files path
    exact (hplain.of_error err (eq_error_of_outcome hread).1).noCycle
  · cases h

/-- What fails by itself with a cycle is an include of a file that is open. -/
theorem Moment.Fails.meetsCycle (hstart : w.files.IsChain scope.file.toList)
    (hm : InRun w scope root registry levels m)
    (h : m.Fails w levels err) (hcycle : err.cause = .includeCycle cycle) :
    MeetsCycle w scope root registry err := by
  obtain ⟨left, rfl⟩ := hm.exists_level hstart
  cases h with
  | @front _ parent inner e rest s err t hfront =>
    rw [LaunchError.cause_locate] at hcycle
    obtain ⟨head, hincludes, hopen, rfl⟩ := exists_includes_of_front hfront hcycle
    rw [hincludes.chain_eq] at hopen ⊢
    have hchain := (hm.isChain hstart).isNormal
    exact ⟨_, parent, inner, e, rest, s, head, t, hm, hincludes,
      (any_sameAs_iff hchain head.isNormal).1 hopen, rfl⟩
  | unfound _ hfind =>
    rw [LaunchError.cause_locate] at hcycle
    exact absurd hcycle (noCycle_of_findFile hfind cycle)
  | text _ htext => exact absurd hcycle (noCycle_of_enterText htext cycle)

/-- **A run ends in a cycle just if it meets one.** -/
theorem meetsCycle_iff_walked (hstart : w.files.IsChain scope.file.toList) :
    MeetsCycle w scope root registry err ↔
      (walked w scope root registry).1 = .error err ∧ ∃ cycle, err.cause = .includeCycle cycle := by
  constructor
  · intro h
    refine ⟨h.walked hstart, ?_⟩
    obtain ⟨_, _, _, _, _, s, head, _, _, _, _, rfl⟩ := h
    exact ⟨s.chain ++ [head.path], rfl⟩
  · rintro ⟨herror, cycle, hcycle⟩
    rcases enterRoot_or_failsInRun_of_walked herror with ⟨u, hroot⟩ | ⟨levels, m, hm, hfails⟩
    · exact absurd hcycle ((keeps_enterRoot.of_error (.refl _) hroot).noCycle cycle)
    · exact hfails.meetsCycle hstart hm hcycle

end

/-- **Includes of files in memory.** The model of a file does not depend on how many levels files
may nest, nor on what is done with files beyond that, from as many levels as there are files on.
At every moment of its run the open files are files of the table, under normalized paths and none of
them twice, so that they are no more than there are, and cycles among them are detected exactly. The
run ends in a cycle just if one of its moments meets it. -/
theorem interpretFile_includes (look : Lookups) (files : MemoryFiles) (strict : Bool)
    (distro : String) (path : Path) (args : List (String × String)) :
    let w : World := ⟨look, files.toFiles, strict, distro⟩
    let top := topScope (some path.normalize) args
    (∀ last levels, files.length ≤ levels → interpretFile w path args = (do
      let root ← readTree w path.normalize
      interpretWith w (walkNested w last levels) top root)) ∧
    (∀ root registry levels m, readTree w path.normalize = .ok root →
      InRun w top root registry levels m →
      w.files.IsChain m.state.chain ∧ (∀ p ∈ m.state.chain, p.text ∈ Entries.keys files) ∧
        m.state.chain.length ≤ files.length ∧ m.DetectsCycles w levels) ∧
    ∀ root registry err, readTree w path.normalize = .ok root →
      (MeetsCycle w top root registry err ↔
        (outcome (interpretFile w path args) registry).1 = .error err ∧
          ∃ cycle, err.cause = .includeCycle cycle) := by
  intro w top
  have hsize : w.files.size = files.length := files.size_toFiles
  have hstart : ∀ root, readTree w path.normalize = .ok root →
      w.files.IsChain top.file.toList := fun root hroot => by
    obtain ⟨contents, hbytes⟩ := exists_bytes_of_readTree hroot
    exact Files.isChain_singleton path.isNormal_normalize hbytes
  refine ⟨fun last levels hlevels => ?_, fun root registry levels m hroot hm => ?_,
    fun root registry err hroot => ?_⟩
  · rw [interpretFile_eq]
    refine liftM_result_bind_congr fun root hroot => ?_
    exact interpretWith_walkNested refuseFile last (hstart root hroot)
      (Nat.lt_add_left _ (Nat.lt_succ_self _)) (Nat.lt_one_add_iff.2 (hsize ▸ hlevels)) root
  · have hchain := hm.isChain (hstart root hroot)
    refine ⟨hchain, fun p hp => ?_, hsize ▸ hchain.length_le, hm.detectsCycles (hstart root hroot)⟩
    obtain ⟨contents, hbytes⟩ := hchain.readable p hp
    exact MemoryFiles.mem_keys_of_bytes (hchain.isNormal p hp) hbytes
  · rw [interpretFile_of_ok hroot, interpretTree_eq_error]
    exact meetsCycle_iff_walked (hstart root hroot)

end
end LaunchFile
