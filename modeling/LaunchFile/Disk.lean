import LaunchFile.Except
import LaunchFile.Files

/-!
# Disk — a tree of directories

A path is followed step by step from the root or from the working directory. Every step but the last
has to be a directory; a step up leaves the directory that was reached, and from the root leads
nowhere.
-/

namespace LaunchFile

/-- A file with its contents, or a directory with named entries. -/
inductive Entry where
  | file (bytes : List UInt8)
  | directory (entries : List (String × Entry))
  deriving Inhabited

namespace Entry

/-- The entry of a directory that has this name. -/
def child? : Entry → String → Option Entry
  | .file _, _ => none
  | .directory entries, name => Entries.get? entries name

def isDirectory : Entry → Bool
  | .file _ => false
  | .directory _ => true

def isFile (e : Entry) : Bool :=
  !e.isDirectory

/-- The entries of a directory. -/
def entries : Entry → List (String × Entry)
  | .file _ => []
  | .directory entries => entries

/-- Put an entry under a path of names; directories on the way are made where there are none. -/
def put (e : Entry) : List String → Entry → Entry
  | [], new => new
  | name :: names, new =>
    let inner := (e.child? name).getD (.directory [])
    .directory (Entries.insert e.entries name (inner.put names new))

mutual

/-- The names that lead to the files of an entry. -/
def routes : Entry → List (List String)
  | .file _ => [[]]
  | .directory entries => routesIn entries

/-- The ways into some entries. -/
def routesIn : List (String × Entry) → List (List String)
  | [] => []
  | (name, e) :: rest => e.routes.map (name :: ·) ++ routesIn rest

end

/-- A way into an entry is one into those that it is among. -/
theorem mem_routesIn {name : String} {e : Entry} {names : List String} (h : names ∈ e.routes) :
    ∀ {entries : List (String × Entry)}, Entries.get? entries name = some e →
      name :: names ∈ routesIn entries
  | [], hget => by cases hget
  | (key, first) :: rest, hget => by
    rw [Entries.get?] at hget
    rw [routesIn]
    split at hget
    · rename_i heq
      rw [eq_of_beq heq, Option.some.inj hget]
      exact List.mem_append_left _ (List.mem_map_of_mem h)
    · exact List.mem_append_right _ (mem_routesIn h hget)

end Entry

/-- A tree of files, and the directory in which relative paths begin. -/
structure Disk where
  root : Entry
  /-- The names that lead from the root to the working directory. -/
  working : List String
  deriving Inhabited

namespace Disk

/-! ## Following paths -/

/-- The entries passed on the way from the root, the innermost first, each with its name. -/
abbrev Trail := List (String × Entry)

/-- Where a trail has led to. -/
def Trail.current (root : Entry) (t : Trail) : Entry :=
  match t with
  | [] => root
  | (_, e) :: _ => e

/-- No name has more bytes. -/
def maxName : Nat := 255

/-- No path has more bytes. -/
def maxPath : Nat := 4095

/-- A path that can be followed at all, whatever is on the disk. -/
def check (p : Path) : Except FileFault Unit := do
  if p.text.isEmpty then throw .noEntry
  if p.text.toList.contains '\x00' then throw .nulInPath
  if p.text.utf8ByteSize > maxPath then throw .nameTooLong

/-- One step of a path. -/
def step (root : Entry) (t : Trail) (name : String) : Except FileFault Trail :=
  if !(Trail.current root t).isDirectory then .error .notDirectory
  else if name == "" || name == "." then .ok t
  else if name == ".." then .ok (t.drop 1)
  else if name.utf8ByteSize > maxName then .error .nameTooLong
  else match (Trail.current root t).child? name with
    | some e => .ok ((name, e) :: t)
    | none => .error .noEntry

/-- Follow names one after the other. -/
def follow (root : Entry) (t : Trail) (names : List String) : Except FileFault Trail :=
  names.foldlM (step root) t

/-- The names on a path. -/
def names (p : Path) : List String :=
  (Text.splitWhere (· == '/') p.text.toList).map String.ofList

/-- Where a path starts. -/
def origin (d : Disk) (p : Path) : Except FileFault Trail :=
  if p.isAbsolute then .ok [] else follow d.root [] d.working

/-- The way to the entry of a path. -/
def trail (d : Disk) (p : Path) : Except FileFault Trail := do
  check p
  follow d.root (← d.origin p) (names p)

/-- The entry that a path leads to. -/
def entry (d : Disk) (p : Path) : Except FileFault Entry := do
  let t ← d.trail p
  return t.current d.root

/-! ## Reading and writing -/

/-- The contents of the file that a path leads to. -/
def readBytes (d : Disk) (p : Path) : Except FileFault (List UInt8) := do
  match ← d.entry p with
  | .file bytes => return bytes
  | .directory _ => throw .isDirectory

/-- The names that lead to an entry. -/
def Trail.path (t : Trail) : List String :=
  t.reverse.map Prod.fst

/-- Whether a path can name nothing but a directory: it ends with a slash or a dot step. -/
def namesDirectory (p : Path) : Bool :=
  ["", ".", ".."].contains ((names p).getLastD "")

/-- Write a file in a directory that exists. -/
def write (d : Disk) (p : Path) (bytes : List UInt8) : Except FileFault Disk := do
  check p
  let all := ((names p).reverse.dropWhile (· == "")).reverse
  let name := all.getLastD ""
  let t ← follow d.root (← d.origin p) all.dropLast
  let parent := t.current d.root
  if !parent.isDirectory then throw .notDirectory
  if namesDirectory p then throw .isDirectory
  if name.utf8ByteSize > maxName then throw .nameTooLong
  match parent.child? name with
  | some (.directory _) => throw .isDirectory
  | _ => return { d with root := d.root.put (Trail.path t ++ [name]) (.file bytes) }

/-! ## Paths of files

A step of a normalized path that is not the first leads down. So the path of a file is a way down
from where the path starts, or from one directory above that.
-/

/-- A name that leads down. -/
def IsDown (name : String) : Prop :=
  name ≠ "" ∧ name ≠ "." ∧ name ≠ ".."

/-- A step down leads to an entry of the directory. -/
theorem step_of_isDown {root : Entry} {t t' : Trail} {name : String} (hname : IsDown name)
    (h : step root t name = .ok t') : ∃ entries e, Trail.current root t = .directory entries ∧
      Entries.get? entries name = some e ∧ t' = (name, e) :: t := by
  obtain ⟨hempty, hdot, hup⟩ := hname
  simp only [step, beq_eq_false_iff_ne.2 hempty, beq_eq_false_iff_ne.2 hdot,
    beq_eq_false_iff_ne.2 hup] at h
  cases hcurrent : Trail.current root t with
  | file bytes =>
    rw [hcurrent] at h
    cases h
  | directory entries =>
    rw [hcurrent] at h
    simp only [Entry.isDirectory, Entry.child?, Bool.not_true, Bool.or_false,
      Bool.false_eq_true, if_false] at h
    split at h
    · cases h
    · split at h
      · rename_i e hget
        exact ⟨entries, e, rfl, hget, (Except.ok.inj h).symm⟩
      · cases h

/-- A step up goes back by one entry. -/
theorem step_up {root : Entry} {t t' : Trail} (h : step root t ".." = .ok t') : t' = t.drop 1 := by
  rw [step] at h
  split at h
  · cases h
  · exact (Except.ok.inj h).symm

/-- An idle step stays. -/
theorem step_idle {root : Entry} {t t' : Trail} {piece : List Char} (hidle : Path.isIdle piece)
    (h : step root t (String.ofList piece) = .ok t') : t' = t := by
  rw [Path.isIdle, Bool.or_eq_true, beq_iff_eq, beq_iff_eq] at hidle
  rw [step] at h
  split at h
  · cases h
  · rcases hidle with rfl | rfl <;> exact (Except.ok.inj h).symm

/-- The first name is followed first. -/
theorem follow_cons {root : Entry} {t t' : Trail} {name : String} {names : List String}
    (h : follow root t (name :: names) = .ok t') :
    ∃ between, step root t name = .ok between ∧ follow root between names = .ok t' := by
  rw [follow, List.foldlM_cons] at h
  cases hstep : step root t name with
  | error fault =>
    rw [hstep] at h
    cases h
  | ok between =>
    rw [hstep] at h
    exact ⟨between, rfl, h⟩

/-- Pieces that lead nowhere can be left out. -/
theorem follow_steps {root : Entry} {t' : Trail} : ∀ {pieces : List (List Char)} {t : Trail},
    follow root t (pieces.map String.ofList) = .ok t' →
      follow root t ((pieces.filter (! Path.isIdle ·)).map String.ofList) = .ok t'
  | [], _, h => h
  | piece :: rest, t, h => by
    obtain ⟨between, hstep, hrest⟩ := follow_cons h
    rw [List.filter_cons]
    split
    · rw [List.map_cons, follow, List.foldlM_cons, hstep]
      exact follow_steps hrest
    · rename_i hidle
      obtain rfl := step_idle (by simpa using hidle) hstep
      exact follow_steps hrest

/-- **Names that lead down to a file are a route to it.** -/
theorem mem_routes_of_follow {root : Entry} {t' : Trail} (hfile : (Trail.current root t').isFile) :
    ∀ {names : List String} {t : Trail}, (∀ name ∈ names, IsDown name) →
      follow root t names = .ok t' → names ∈ (Trail.current root t).routes
  | [], t, _, h => by
    rw [← (Except.ok.inj h : t = t')] at hfile
    cases hcurrent : Trail.current root t with
    | file _ => exact List.mem_singleton.2 rfl
    | directory _ =>
      rw [hcurrent] at hfile
      cases hfile
  | name :: rest, t, hnames, h => by
    obtain ⟨hname, hrest⟩ := List.forall_mem_cons.1 hnames
    obtain ⟨between, hstep, hbetween⟩ := follow_cons h
    obtain ⟨entries, e, hcurrent, hget, rfl⟩ := step_of_isDown hname hstep
    rw [hcurrent, Entry.routes]
    exact Entry.mem_routesIn (mem_routes_of_follow hfile hrest hbetween) hget

/-- The ways to files from a place: down from there, or down from the directory above. -/
def ways (root : Entry) (t : Trail) : List (List String) :=
  (t.current root).routes ++ (Trail.current root (t.drop 1)).routes.map (".." :: ·)

/-- A step that does not go up goes down. -/
theorem isDown_ofList {step : List Char} (hstep : Path.IsStep step) (hup : Path.isUp step = false) :
    IsDown (String.ofList step) := by
  have hidle := hstep.1
  rw [Path.isIdle, Bool.or_eq_false_iff, beq_eq_false_iff_ne, beq_eq_false_iff_ne] at hidle
  rw [Path.isUp, beq_eq_false_iff_ne] at hup
  have hne : ∀ {cs : List Char}, step ≠ cs → String.ofList step ≠ String.ofList cs :=
    fun hcs heq => hcs (String.ofList_injective heq)
  exact ⟨hne hidle.1, hne hidle.2, hne hup⟩

/-- The steps of a normalized path to a file are one of the ways from where it starts. -/
theorem mem_ways_of_follow {root : Entry} {t t' : Trail} {p : Path} (hp : p.IsNormal)
    (hfile : (Trail.current root t').isFile) (h : follow root t (names p) = .ok t') :
    (Path.stepsOf p.text.toList).map String.ofList ∈ ways root t := by
  have hsteps : follow root t ((Path.stepsOf p.text.toList).map String.ofList) = .ok t' :=
    follow_steps h
  have hstep : ∀ step ∈ Path.stepsOf p.text.toList, Path.IsStep step :=
    fun _ => Path.isStep_of_mem_stepsOf
  have htail : ∀ step ∈ (Path.stepsOf p.text.toList).tail, Path.isUp step = false :=
    fun _ => hp.isUp_of_mem_tail
  generalize Path.stepsOf p.text.toList = steps at hsteps hstep htail ⊢
  cases steps with
  | nil => exact List.mem_append_left _ (mem_routes_of_follow hfile (by simp) hsteps)
  | cons first rest =>
    obtain ⟨hfirst, hrest⟩ := List.forall_mem_cons.1 hstep
    have hdown : ∀ name ∈ rest.map String.ofList, IsDown name := List.forall_mem_map.2
      fun step hmem => isDown_ofList (hrest step hmem) (htail step hmem)
    cases hup : Path.isUp first with
    | false =>
      exact List.mem_append_left _ (mem_routes_of_follow hfile
        (List.forall_mem_cons.2 ⟨isDown_ofList hfirst hup, hdown⟩) hsteps)
    | true =>
      obtain rfl : first = ['.', '.'] := eq_of_beq hup
      obtain ⟨between, hbetween, hfollow⟩ := follow_cons hsteps
      obtain rfl := step_up hbetween
      exact List.mem_append_right _ (List.mem_map_of_mem (mem_routes_of_follow hfile hdown hfollow))

/-- The path with these steps. -/
def pathOf (absolute : Bool) (names : List String) : Path :=
  ⟨String.ofList (Path.written absolute (names.map String.toList))⟩

/-- A normal path is written with its steps. -/
theorem pathOf_steps {p : Path} (hp : p.IsNormal) :
    pathOf p.isAbsolute ((Path.stepsOf p.text.toList).map String.ofList) = p := by
  have hmap : ((Path.stepsOf p.text.toList).map String.ofList).map String.toList =
      Path.stepsOf p.text.toList := by
    rw [List.map_map]
    exact (List.map_congr_left fun _ _ => String.toList_ofList).trans (List.map_id _)
  rw [pathOf, hmap, Path.isAbsolute, ← hp.toList_eq, String.ofList_toList]

/-- The normalized paths of files, seen from the root and from the working directory. -/
def paths (d : Disk) : List Path :=
  (ways d.root []).map (pathOf true) ++
    match follow d.root [] d.working with
    | .ok t => (ways d.root t).map (pathOf false)
    | .error _ => []

/-- **A file that can be read is on one of the paths**, if its path is normal. -/
theorem mem_paths {d : Disk} {p : Path} {contents : List UInt8} (hp : p.IsNormal)
    (h : d.readBytes p = .ok contents) : p ∈ d.paths := by
  obtain ⟨e, hentry, hbytes⟩ := Except.bind_eq_ok h
  obtain ⟨t, htrail, hcurrent⟩ := Except.bind_eq_ok hentry
  obtain ⟨_, _, htrail⟩ := Except.bind_eq_ok htrail
  obtain ⟨start, horigin, hfollow⟩ := Except.bind_eq_ok htrail
  obtain rfl := Except.ok.inj hcurrent
  have hfile : (t.current d.root).isFile := by
    generalize t.current d.root = e at hbytes
    cases e with
    | file _ => rfl
    | directory _ => cases hbytes
  have hway : p ∈ (ways d.root start).map (pathOf p.isAbsolute) :=
    List.mem_map.2 ⟨_, mem_ways_of_follow hp hfile hfollow, pathOf_steps hp⟩
  rw [origin] at horigin
  split at horigin
  · rename_i habsolute
    obtain rfl := Except.ok.inj horigin
    rw [habsolute] at hway
    exact List.mem_append_left _ hway
  · rename_i hrelative
    rw [Bool.not_eq_true] at hrelative
    rw [hrelative] at hway
    refine List.mem_append_right _ ?_
    rw [horigin]
    exact hway

/-- The files of a disk. -/
def files (d : Disk) : Files where
  bytes := d.readBytes
  textFault _ := .notTextOnDisk
  paths := d.paths
  mem_paths := mem_paths

end Disk
end LaunchFile
