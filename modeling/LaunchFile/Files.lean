import LaunchFile.Dict
import LaunchFile.Error
import LaunchFile.Path.Normal

/-!
# Files — where the contents of files come from

A source of files answers for every path with bytes or a fault. Reading as text decodes the bytes,
and the source says how it reports bytes that are no text. There are finitely many files, and a
source knows under which normalized paths it may have one.
-/

namespace LaunchFile

structure Files where
  bytes : Path → Except FileFault (List UInt8)
  textFault : Text.Utf8.Fault → FileFault
  /-- All normalized paths that can be read, and possibly others. -/
  paths : List Path
  mem_paths : ∀ {path : Path} {contents : List UInt8}, path.IsNormal →
    bytes path = .ok contents → path ∈ paths

namespace Files

/-- No more normalized paths can be read. -/
def size (files : Files) : Nat :=
  files.paths.length

def readBytes (files : Files) (path : Path) : Result (List UInt8) :=
  (files.bytes path).mapError fun fault => .ofCause (.fileNotFound path fault)

def text (files : Files) (path : Path) : Except FileFault String := do
  let bytes ← files.bytes path
  (Text.Utf8.decode bytes).mapError files.textFault

def readText (files : Files) (path : Path) : Result String :=
  (files.text path).mapError fun fault => .ofCause (.fileNotFound path fault)

end Files

/-- Files in memory under normalized paths. -/
abbrev MemoryFiles := Entries (List UInt8)

namespace MemoryFiles

def add (files : MemoryFiles) (path : Path) (contents : List UInt8) : MemoryFiles :=
  Entries.insert files path.normalize.text contents

/-- What is stored for a path. -/
def bytes (files : MemoryFiles) (path : Path) : Except FileFault (List UInt8) :=
  match Entries.get? files path.normalize.text with
  | some contents => .ok contents
  | none => .error .unknown

theorem mem_keys_of_bytes {files : MemoryFiles} {path : Path} {contents : List UInt8}
    (hpath : path.IsNormal) (h : files.bytes path = .ok contents) :
    path.text ∈ Entries.keys files := by
  rw [bytes, hpath] at h
  cases hget : Entries.get? files path.text with
  | none =>
    rw [hget] at h
    cases h
  | some contents => exact Entries.mem_keys_of_get? hget

/-- A file is found under every spelling of its path that normalizes to the same. -/
def toFiles (files : MemoryFiles) : Files where
  bytes := files.bytes
  textFault := .notText
  paths := (Entries.keys files).map Path.mk
  mem_paths hpath h := List.mem_map_of_mem (mem_keys_of_bytes hpath h)

theorem size_toFiles (files : MemoryFiles) : files.toFiles.size = files.length := by
  simp [Files.size, toFiles, Entries.keys]

end MemoryFiles
end LaunchFile
