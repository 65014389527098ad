import LaunchFile.Path

/-!
# Location — where an element stands

Lines and columns count from one, columns in characters. A document without a file is shown as a
string.
-/

namespace LaunchFile

structure Location where
  file : Option Path
  line : Nat
  column : Nat
  deriving DecidableEq, Repr, Inhabited

def Location.text (l : Location) : String :=
  match l.file with
  | some file => s!"{file.text}:{l.line}:{l.column}"
  | none => s!"<string>:{l.line}:{l.column}"

end LaunchFile
