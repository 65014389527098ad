import LaunchFile.Proofs.Answers.Names
import LaunchFile.Proofs.Answers.Walk
import LaunchFile.Proofs.Memo
import LaunchFile.Proofs.Run.AnonNames
import LaunchFile.Thread

/-!
# Proofs/Run/Caches — what a thread keeps is not seen

Nothing of what a thread keeps is seen by a run (`caches_unseen`): it ends as it would without any
cache, and all that a run on a fresh thread may have of its own are the suffixes of made-up names.
All of it is said of one run that is answered in different ways: from caches, directly, by names
that are given from the start, and with other suffixes ahead.
-/

namespace LaunchFile

/-! ## Caches -/

/-- All that is held is what parser and collaborators say. -/
structure Caches.IsFaithful (look : Lookups) (c : Caches) : Prop where
  parsed : c.parsed.IsFaithful Segment.parse
  lookups : c.lookups.IsFaithful look

/-- The registry of a run with caches is that of the run without, and what is held is faithful. -/
structure Caches.Unseen (look : Lookups) (s : AnonRegistry × Caches) (r : AnonRegistry) : Prop where
  registry : s.1 = r
  faithful : s.2.IsFaithful look

/-- **Caches say what parser and collaborators say**, and go on to do so. -/
theorem CachedLookups.mirrors (look : Lookups) :
    Answers.Mirrors (Caches.Unseen look) (fun _ => True) (CachedLookups.mk look) look where
  parse text := by
    refine ⟨fun _ _ => trivial, fun {s r} h _ => ?_⟩
    obtain ⟨hanswer, hbehind⟩ := h.faithful.parsed.ask Except.isOk text
    exact ⟨hanswer, h.registry, hbehind, h.faithful.lookups⟩
  env name := by
    refine .lift (fun _ _ => trivial) fun {s r} h _ => ?_
    obtain ⟨hanswer, hbehind⟩ := h.faithful.lookups.askEnv name
    exact ⟨hanswer, h.registry, h.faithful.parsed, hbehind⟩
  find package := by
    refine .lift (fun _ _ => trivial) fun {s r} h _ => ?_
    obtain ⟨hanswer, hbehind⟩ := h.faithful.lookups.askPackage package
    exact ⟨hanswer, h.registry, h.faithful.parsed, hbehind⟩
  anon seed := by
    refine .lift (fun _ _ => trivial) fun {s r} h _ => ?_
    obtain ⟨rfl, hfaithful⟩ := h
    exact ⟨rfl, rfl, hfaithful⟩

/-! ## Jobs -/

section

variable {L L' σ τ : Type} [Answers L σ] [Answers L' τ] {P : σ → τ → Prop} {Q : σ → Prop}
  {look : L} {look' : L'}

/-- **A job has the same model, whoever answers.** -/
theorem interpret_mirrors (h : Answers.Mirrors P Q look look') (s : Settings) (job : Job) :
    Mirrors P Q (interpret s look job) (interpret s look' job) := by
  refine .bind (.result _) fun (scope, root) => .bind ?_ fun distro => ?_
  · unfold Settings.distroFor
    cases s.distro with
    | some distro => exact .pure distro
    | none => exact .bind (h.env "ROS_DISTRO") fun _ => .pure _
  · exact interpretTree_mirrors (w := ⟨look, s.files, s.strict, distro⟩) h scope root

end

/-- A run on a text opens it and interprets the tree. -/
theorem interpretText_eq_opened (w : World) (file : Option Path) (args : List (String × String))
    (source : String) :
    interpretText w file args source = (do
      let (scope, root) ← openText file args source
      interpretTree w scope root) := by
  rw [interpretText, openText]
  cases Element.parse source file <;> rfl

/-- A job without caches opens its tree and walks it. -/
theorem Job.plain_eq (w : World) (job : Job) :
    job.plain w = (do
      let (scope, root) ← job.opened w.files
      interpretTree w scope root) := by
  cases job with
  | tree scope _ root => rfl
  | text label args source => exact interpretText_eq_opened w label args source
  | file path args =>
    rw [plain, interpretFile, opened]
    cases w.files.readText path.normalize with
    | error err => rfl
    | ok source => exact interpretText_eq_opened w (some path.normalize) args source

/-- **Answered directly, a job is the run without caches.** -/
theorem interpret_eq_plain (i : Interpreter) (job : Job) :
    interpret i.toSettings i.look job = job.plain i.world := by
  rw [interpret, Job.plain_eq]
  obtain ⟨⟨files, strict, distro⟩, look⟩ := i
  cases distro <;> rfl

/-- All that a job without caches does to the registry is to resolve seeds. -/
theorem Job.reaches_plain (w : World) (job : Job) (registry : AnonRegistry) :
    registry.Reaches (outcome (job.plain w) registry).2 := by
  rw [plain_eq]
  cases job.opened w.files with
  | error err => exact .refl registry
  | ok opened => exact reaches_interpretTree w registry opened.1 opened.2

/-- The result of a job where each seed has the name that it is given. -/
def Job.resultWith (i : Interpreter) (job : Job) (names : String → String) : Result Model :=
  ((interpret i.toSettings (GivenNames.mk i.look names) job).run ()).1

/-! ## Threads -/

namespace Thread

/-- The parser's memo is right. -/
def IsFaithful (t : Thread) : Prop :=
  t.parsed.IsFaithful Segment.parse

/-- A fresh thread remembers nothing, and so nothing wrong. -/
theorem isFaithful_start (supply : AnonRegistry) : (start supply).IsFaithful :=
  Memo.isFaithful_empty _ _

namespace IsFaithful

variable {t : Thread} (h : t.IsFaithful) (i : Interpreter) (job : Job)

include h

/-- **A run on a thread ends as if there were no caches**, and the thread stays as it should be. -/
theorem plain : (t.result i job, t.registry i job) =
      outcome (job.plain i.world) (job.registry t.supply) ∧ (t.next i job).IsFaithful := by
  have hstart : Caches.Unseen i.look (job.registry t.supply, ⟨t.parsed, .start⟩)
      (job.registry t.supply) := ⟨rfl, h, LookupCache.isFaithful_start i.look⟩
  obtain ⟨hresult, hbehind⟩ :=
    (interpret_mirrors (CachedLookups.mirrors i.look) i.toSettings job).agree hstart trivial
  rw [interpret_eq_plain] at hresult hbehind
  exact ⟨Prod.ext hresult hbehind.registry, hbehind.faithful.parsed⟩

/-- The registry that a job leaves is the one that it leaves without caches. -/
theorem registry_eq : t.registry i job =
    (outcome (job.plain i.world) (job.registry t.supply)).2 :=
  congrArg Prod.snd (h.plain i job).1

/-- The result is a matter of the names that the seeds have behind the run. -/
theorem result_eq : t.result i job = job.resultWith i (t.registry i job).nameOf := by
  have hplain := (h.plain i job).1
  have hmirrors := interpret_mirrors (i.look.mirrors_given (t.registry i job).nameOf)
    i.toSettings job
  rw [interpret_eq_plain] at hmirrors
  refine (congrArg Prod.fst hplain).trans (hmirrors.agree (t := ()) trivial ?_).1
  intro seed name hname
  rw [← h.registry_eq] at hname
  rw [AnonRegistry.nameOf, hname]
  rfl

/-- The names behind a run are those before it and names that it made up. -/
theorem isMadeUp : (t.registry i job).IsMadeUp t.supply.process job.names := by
  rw [h.registry_eq]
  exact (job.reaches_plain i.world (job.registry t.supply)).isMadeUp

/-- A run that makes up no name has the same result on all threads. -/
theorem result_congr {t' : Thread} (h' : t'.IsFaithful)
    (hnames : (t.registry i job).names = job.names) : t.result i job = t'.result i job := by
  have hmirrors := interpret_mirrors (i.look.mirrors_unmade job.names) i.toSettings job
  rw [interpret_eq_plain] at hmirrors
  rw [h.registry_eq] at hnames
  calc t.result i job
    _ = (outcome (job.plain i.world) (job.registry t.supply)).1 :=
      congrArg Prod.fst (h.plain i job).1
    _ = (outcome (job.plain i.world) (job.registry t'.supply)).1 :=
      (hmirrors.agree ⟨rfl, rfl⟩ (hnames ▸ Nat.le_refl _)).1
    _ = t'.result i job := (congrArg Prod.fst (h'.plain i job).1).symm

end IsFaithful

/-- **What a thread keeps stays right**, whatever is run on it. -/
theorem IsFaithful.after : ∀ {t : Thread}, t.IsFaithful → ∀ history, (t.after history).IsFaithful
  | _, h, [] => h
  | _, h, (i, job) :: history => (h.plain i job).2.after history

/-- All runs on a thread are of one process. -/
theorem IsFaithful.process_after : ∀ {t : Thread}, t.IsFaithful → ∀ history,
    (t.after history).supply.process = t.supply.process
  | _, _, [] => rfl
  | _, h, (i, job) :: history =>
    ((h.plain i job).2.process_after history).trans (h.isMadeUp i job).process_eq

end Thread

/-- **Caches are never seen.** Texts and look-ups are answered as if there were none; and behind any
runs on the thread, of any interpreters, a run ends as it does without caches, and as it does on a
fresh thread with the same suffixes ahead. With others ahead, the result is still the same one in
the names of its seeds, and made-up names of a seed differ in the suffix alone if the process is the
same; a run that makes up none has the same result. -/
theorem caches_unseen (i : Interpreter) (job : Job) (history : List (Interpreter × Job))
    (supply : AnonRegistry) :
    (∀ texts, ParseCache.start.parseAll texts = texts.map Segment.parse) ∧
    (∀ queries, LookupCache.start.answerAll i.look queries = queries.map i.look.answer) ∧
    let t := (Thread.start supply).after history
    (t.result i job, t.registry i job) = outcome (job.plain i.world) (job.registry t.supply) ∧
    t.result i job = (Thread.start t.supply).result i job ∧
    ∀ other, let fresh := Thread.start other
      t.result i job = job.resultWith i (t.registry i job).nameOf ∧
      fresh.result i job = job.resultWith i (fresh.registry i job).nameOf ∧
      (t.registry i job).IsMadeUp supply.process job.names ∧
      (fresh.registry i job).IsMadeUp other.process job.names ∧
      ((t.registry i job).names = job.names → t.result i job = fresh.result i job) := by
  refine ⟨ParseCache.start_parseAll, (LookupCache.isFaithful_start i.look).answerAll, ?_⟩
  intro t
  have ht : t.IsFaithful := (Thread.isFaithful_start supply).after history
  refine ⟨(ht.plain i job).1, ?_, fun other => ?_⟩
  · have hfresh := ((Thread.isFaithful_start t.supply).plain i job).1
    exact (Prod.mk.inj ((ht.plain i job).1.trans hfresh.symm)).1
  · have hother := Thread.isFaithful_start other
    have hprocess := (Thread.isFaithful_start supply).process_after history
    exact ⟨ht.result_eq i job, hother.result_eq i job, hprocess ▸ ht.isMadeUp i job,
      hother.isMadeUp i job, ht.result_congr i job hother⟩

/-- The third run on a thread, behind one that made up a name and one that failed at a text which
cannot be read, beside a first run with another generator. -/
theorem caches_unseen_third :
    let look : Lookups := ⟨fun name => if name = "X" then some "1" else none, fun _ => none⟩
    let i : Interpreter := ⟨⟨MemoryFiles.toFiles [], true, none⟩, look⟩
    let history : List (Interpreter × Job) :=
      [(i, .text none [] "<launch><node name='$(anon a)' pkg='p' type='t'/></launch>"),
        (i, .text none [] "<launch><arg name='$(arg'/></launch>")]
    let job : Job := .text none [] "<launch><arg name='x' default='$(env X)'/></launch>"
    let t := (Thread.start .empty).after history
    t.supply.next = 1 ∧ t.parsed.entries.length = 3 ∧ (t.registry i job).names = job.names ∧
      t.result i job = (Thread.start ⟨[], 9, [['f']], 7⟩).result i job := by
  intro look i history job t
  have hnames : (t.registry i job).names = job.names := by decide +kernel
  refine ⟨by decide +kernel, by decide +kernel, hnames, ?_⟩
  exact ((caches_unseen i job history .empty).2.2.2.2 _).2.2.2.2 hnames

end LaunchFile
