/-!
# Text/Utf8 — reading bytes as text, and where that first fails

Well-formed sequences are those of the Unicode standard: no overlong form, no surrogate, nothing
above U+10FFFF. A fault names the byte at which the first bad sequence starts and how many bytes of
it are certainly wrong; a sequence that the end of the input cuts off has no such length.
-/

namespace LaunchFile.Text.Utf8

/-- The first bad sequence: where it starts, and its length unless the input ends inside it. -/
structure Fault where
  index : Nat
  length : Option Nat
  deriving DecidableEq, Repr

def Fault.message (f : Fault) : String :=
  match f.length with
  | some n => s!"invalid utf-8 sequence of {n} bytes from index {f.index}"
  | none => s!"incomplete utf-8 byte sequence from index {f.index}"

/-- The number of bytes a sequence has by its first byte; zero when no sequence starts so. -/
def width (a : UInt8) : Nat :=
  if a < 0x80 then 1
  else if 0xC2 ≤ a && a ≤ 0xDF then 2
  else if 0xE0 ≤ a && a ≤ 0xEF then 3
  else if 0xF0 ≤ a && a ≤ 0xF4 then 4
  else 0

def isContinuation (b : UInt8) : Bool :=
  0x80 ≤ b && b ≤ 0xBF

/-- Whether `b` may follow the first byte `a` of a longer sequence; this is the place where
overlong forms, surrogates and too large values are refused. -/
def secondFits (a b : UInt8) : Bool :=
  if a == 0xE0 then 0xA0 ≤ b && b ≤ 0xBF
  else if a == 0xED then 0x80 ≤ b && b ≤ 0x9F
  else if a == 0xF0 then 0x90 ≤ b && b ≤ 0xBF
  else if a == 0xF4 then 0x80 ≤ b && b ≤ 0x8F
  else isContinuation b

/-- The six payload bits of a continuation byte, appended to what came before. -/
def push (acc : Nat) (b : UInt8) : Nat :=
  acc * 64 + (b.toNat - 0x80)

/-- Decode from byte number `index` on; `acc` holds the characters read, last one first. -/
def decodeFrom (index : Nat) (acc : List Char) : List UInt8 → Except Fault (List Char)
  | [] => .ok acc.reverse
  | a :: rest =>
    match width a, rest with
    | 1, rest => decodeFrom (index + 1) (Char.ofNat a.toNat :: acc) rest
    | 2, [] => .error ⟨index, none⟩
    | 2, b :: rest =>
      if isContinuation b then
        decodeFrom (index + 2) (Char.ofNat (push (a.toNat - 0xC0) b) :: acc) rest
      else .error ⟨index, some 1⟩
    | 3, [] => .error ⟨index, none⟩
    | 3, [b] => .error ⟨index, if secondFits a b then none else some 1⟩
    | 3, b :: c :: rest =>
      if !secondFits a b then .error ⟨index, some 1⟩
      else if !isContinuation c then .error ⟨index, some 2⟩
      else decodeFrom (index + 3) (Char.ofNat (push (push (a.toNat - 0xE0) b) c) :: acc) rest
    | 4, [] => .error ⟨index, none⟩
    | 4, [b] => .error ⟨index, if secondFits a b then none else some 1⟩
    | 4, [b, c] =>
      .error ⟨index, if !secondFits a b then some 1 else if isContinuation c then none else some 2⟩
    | 4, b :: c :: d :: rest =>
      if !secondFits a b then .error ⟨index, some 1⟩
      else if !isContinuation c then .error ⟨index, some 2⟩
      else if !isContinuation d then .error ⟨index, some 3⟩
      else
        decodeFrom (index + 4)
          (Char.ofNat (push (push (push (a.toNat - 0xF0) b) c) d) :: acc) rest
    | _, _ => .error ⟨index, some 1⟩

/-- The text that the bytes spell. -/
def decode (bytes : List UInt8) : Except Fault String :=
  (decodeFrom 0 [] bytes).map String.ofList

/-- The number of bytes that characters take. -/
def byteLength (cs : List Char) : Nat :=
  cs.foldl (fun n c => n + c.utf8Size) 0

/-- The bytes that spell the text. -/
def encode (s : String) : List UInt8 :=
  s.toUTF8.toList

end LaunchFile.Text.Utf8
