import LaunchFile.CommandLine.Answer
import LaunchFile.Package

/-!
# Main — the command line

Reads from the surroundings what the answer depends on, and carries the answer out. Files are read
when an answer has asked for one that is not known yet; the answer is then formed anew.
-/

namespace LaunchFile.CommandLine

/-! ## Reading the surroundings -/

/-- The fault of an operating system error. -/
def faultOf : IO.Error → FileFault
  | .noFileOrDirectory _ _ _ => .noEntry
  | .inappropriateType _ 21 _ => .isDirectory
  | .inappropriateType _ 20 _ => .notDirectory
  | e => .system (toString e)

def readFile (path : Path) : IO (Except FileFault (List UInt8)) := do
  try
    let bytes ← IO.FS.readBinFile path.text
    return .ok bytes.toList
  catch e => return .error (faultOf e)

/-- The variables of the process. -/
def environment : IO (Dict String) := do
  let bytes ← try IO.FS.readBinFile "/proc/self/environ" catch _ => pure ByteArray.empty
  let entries := bytes.toList.splitOn 0
  return Dict.ofPairs (entries.filterMap fun entry => do
    let text ← (Text.Utf8.decode entry).toOption
    let (name, rest) := text.toList.span (· != '=')
    match rest with
    | _ :: value => some (String.ofList name, String.ofList value)
    | [] => none)

/-- The number of the process, which its status begins with. -/
def processNumber : IO Nat := do
  let bytes ← try IO.FS.readBinFile "/proc/self/stat" catch _ => pure ByteArray.empty
  let digits := bytes.toList.takeWhile fun byte => 48 ≤ byte && byte ≤ 57
  return digits.foldl (fun number digit => 10 * number + (digit.toNat - 48)) 0

/-- The directories of a tree and the manifests in them, down to a depth. -/
partial def directory (path : String) (depth : Nat) : IO (Option Entry) := do
  try
    let mut found := []
    for e in ← (← IO.FS.realPath path).readDir do
      let inner := path ++ "/" ++ e.fileName
      if ← e.path.isDir then
        if depth > 0 then
          if let some below ← directory inner (depth - 1) then
            found := (e.fileName, below) :: found
      else if e.fileName == Package.manifest then
        if let .ok bytes ← readFile ⟨inner⟩ then found := (e.fileName, .file bytes) :: found
    return some (.directory found)
  catch _ => return none

/-- The roots of a search path that are there. -/
def packageRoots (searchPath : Option String) : IO (List (Path × Entry)) := do
  let mut found := []
  for path in Package.roots (searchPath.getD "") do
    if let some e ← directory path.text (Package.maxDepth + 1) then found := (path, e) :: found
  return found.reverse

/-! ## Answering -/

/-- Files that are known so far, faults included. -/
abbrev Known := List (Path × Except FileFault (List UInt8))

def Known.bytes (known : Known) (path : Path) : Except FileFault (List UInt8) :=
  match known.find? (·.1 == path) with
  | some entry => entry.2
  | none => .error .unknown

theorem Known.mem_of_bytes {known : Known} {path : Path} {contents : List UInt8}
    (h : known.bytes path = .ok contents) : path ∈ known.map Prod.fst := by
  rw [bytes] at h
  split at h
  · rename_i entry hfind
    have hpath : entry.1 = path := by simpa using List.find?_some hfind
    exact hpath ▸ List.mem_map_of_mem (List.mem_of_find?_eq_some hfind)
  · cases h

def Known.files (known : Known) : Files where
  bytes := known.bytes
  textFault _ := .notTextOnDisk
  paths := known.map Prod.fst
  mem_paths _ := Known.mem_of_bytes

/-- The file that an answer lacks. -/
def lacking? : Answer → Option Path
  | .fail (.unreadableOptions path .unknown) => some path
  | .fail (.launch ⟨.fileNotFound path .unknown, _⟩) => some path
  | _ => none

/-- Files that have to be known before there is an answer. -/
def firstFiles (s : Surroundings) (words : List String) : List Path :=
  match Settings.read words with
  | .ok ⟨.launch package file, _, _, _, _⟩ =>
    ((s.find package).map (Surroundings.candidates · file)).getD []
  | _ => []

partial def settle (s : Known → Surroundings) (registry : AnonRegistry) (words : List String)
    (known : Known) : IO Answer := do
  let found := answer (s known) registry words
  match lacking? found with
  | none => return found
  | some path =>
    let contents ← readFile path
    settle s registry words ((path, contents) :: known)

def report (failure : Failure) : IO UInt32 := do
  IO.eprintln s!"Error: {failure.message}"
  return failure.exitCode

def carryOut (answer : Answer) : IO UInt32 := do
  match answer with
  | .stop .refused => IO.eprint Stop.refused.text
  | .stop reason => IO.print reason.text
  | .fail failure => return ← report failure
  | .print text => IO.print text
  | .write path text =>
    try IO.FS.writeFile path.text text
    catch e => return ← report (.output (faultOf e))
  return answer.exitCode

end LaunchFile.CommandLine

open LaunchFile LaunchFile.CommandLine in
def main (words : List String) : IO UInt32 := do
  let env ← environment
  let roots ← packageRoots (env.get? "ROS_PACKAGE_PATH")
  let surroundings (known : Known) : Surroundings :=
    ⟨env.get?, known.files, Package.find? roots⟩
  let first ← (firstFiles (surroundings []) words).mapM fun path => do
    let contents ← readFile path
    return (path, contents)
  let start ← IO.rand 0 (Nat.pow 2 62)
  carryOut (← settle surroundings ⟨[], ← processNumber, [], start⟩ words first)
