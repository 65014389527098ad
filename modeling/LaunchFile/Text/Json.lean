import LaunchFile.Text.Blank

/-!
# Text/Json — data as indented JSON text

Members keep their order. An empty array or object stays on one line; otherwise each item has a line
of its own, two blanks deeper. Only quotes, backslashes and control characters are escaped.
-/

namespace LaunchFile

/-- Data to be written; numbers come as their text. -/
inductive JsonTree where
  | null
  | bool (b : Bool)
  | number (text : String)
  | str (s : String)
  | array (items : List JsonTree)
  | object (members : List (String × JsonTree))
  deriving Inhabited

namespace JsonTree

/-! ## Strings -/

def hexDigits (n : Nat) : List Char :=
  let digits := Nat.toDigits 16 n
  List.replicate (4 - digits.length) '0' ++ digits

def escapeChar (c : Char) : List Char :=
  match c with
  | '"' => ['\\', '"']
  | '\\' => ['\\', '\\']
  | '\x08' => ['\\', 'b']
  | '\x0c' => ['\\', 'f']
  | '\n' => ['\\', 'n']
  | '\r' => ['\\', 'r']
  | '\t' => ['\\', 't']
  | c => if c.toNat < 0x20 then '\\' :: 'u' :: hexDigits c.toNat else [c]

def quotedString (s : String) : List Char :=
  '"' :: s.toList.flatMap escapeChar ++ ['"']

/-! ## Layout -/

/-- The break before an item that lies `depth` levels deep. -/
def newline (depth : Nat) : List Char :=
  '\n' :: List.replicate (2 * depth) ' '

mutual

/-- The text of data that lies `depth` levels deep. -/
def chars (depth : Nat) : JsonTree → List Char
  | .null => "null".toList
  | .bool true => "true".toList
  | .bool false => "false".toList
  | .number text => text.toList
  | .str s => quotedString s
  | .array [] => ['[', ']']
  | .array (item :: rest) =>
    '[' :: newline (depth + 1) ++ chars (depth + 1) item ++ moreItems (depth + 1) rest ++
      newline depth ++ [']']
  | .object [] => ['\x7b', '\x7d']
  | .object ((name, value) :: rest) =>
    '\x7b' :: newline (depth + 1) ++ quotedString name ++ ':' :: ' ' :: chars (depth + 1) value ++
      moreMembers (depth + 1) rest ++ newline depth ++ ['\x7d']

def moreItems (depth : Nat) : List JsonTree → List Char
  | [] => []
  | item :: rest => ',' :: newline depth ++ chars depth item ++ moreItems depth rest

def moreMembers (depth : Nat) : List (String × JsonTree) → List Char
  | [] => []
  | (name, value) :: rest =>
    ',' :: newline depth ++ quotedString name ++ ':' :: ' ' :: chars depth value ++
      moreMembers depth rest

end

def text (data : JsonTree) : String :=
  String.ofList (chars 0 data)

end JsonTree
end LaunchFile
