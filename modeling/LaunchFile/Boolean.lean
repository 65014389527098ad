import LaunchFile.Error

/-!
# Boolean — the booleans of attributes

`true` and `1`, `false` and `0`, in any ASCII case and with blanks around; nothing else.
-/

namespace LaunchFile

def readBoolean? (value : String) : Option Bool :=
  match Text.lowerAscii (Text.trim value) with
  | "true" => some true
  | "1" => some true
  | "false" => some false
  | "0" => some false
  | _ => none

/-- The boolean that the named attribute has as its value. -/
def readBoolean (attr value : String) : Result Bool :=
  match readBoolean? value with
  | some b => .ok b
  | none => Result.fail (.malformedBoolean attr value)

end LaunchFile
