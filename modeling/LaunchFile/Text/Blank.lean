/-!
# Text/Blank — white space, trimming and words

A character is blank when it has the Unicode property `White_Space`. Trimming drops blanks from
the two ends of a text; the words of a text are its longest runs without a blank.
-/

namespace LaunchFile.Text

/-- The 25 characters of the Unicode property `White_Space`. -/
def isBlank (c : Char) : Bool :=
  (9 ≤ c.toNat && c.toNat ≤ 13) || c == ' ' || c.toNat == 0x85 || c.toNat == 0xA0 ||
  c.toNat == 0x1680 || (0x2000 ≤ c.toNat && c.toNat ≤ 0x200A) || c.toNat == 0x2028 ||
  c.toNat == 0x2029 || c.toNat == 0x202F || c.toNat == 0x205F || c.toNat == 0x3000

/-! ## Trimming -/

def trimStartChars (cs : List Char) : List Char :=
  cs.dropWhile isBlank

def trimEndChars (cs : List Char) : List Char :=
  (cs.reverse.dropWhile isBlank).reverse

def trimChars (cs : List Char) : List Char :=
  trimEndChars (trimStartChars cs)

/-- The text without the blanks at its two ends. -/
def trim (s : String) : String :=
  String.ofList (trimChars s.toList)

/-! ## Pieces and words -/

/-- The pieces between the characters that satisfy `p`; there is always at least one. -/
def splitWhere (p : Char → Bool) : List Char → List (List Char)
  | [] => [[]]
  | c :: cs =>
    if p c then [] :: splitWhere p cs
    else match splitWhere p cs with
      | [] => [[c]]
      | piece :: pieces => (c :: piece) :: pieces

/-- Cutting is the library's `splitOnP`, whose laws hold of it. -/
theorem splitWhere_eq_splitOnP (p : Char → Bool) (cs : List Char) :
    splitWhere p cs = cs.splitOnP p := by
  induction cs with
  | nil => rfl
  | cons c cs ih =>
    rw [splitWhere, List.splitOnP_cons_eq_if_modifyHead, ih]
    cases h : cs.splitOnP p with
    | nil => exact absurd h (List.splitOnP_ne_nil p cs)
    | cons piece pieces => rfl

/-- The pieces of a split text are parts of it that hold nothing at which it was split; the first of
them is where the text begins. -/
theorem splitOnP_pieces (p : Char → Bool) : ∀ cs : List Char, ∃ first rest,
    cs.splitOnP p = first :: rest ∧ first <+: cs ∧
      ∀ piece ∈ first :: rest, (∀ c ∈ piece, p c = false) ∧ piece <:+: cs
  | [] => ⟨[], [], by simp, List.nil_prefix, by simp⟩
  | c :: cs => by
    obtain ⟨first, rest, hsplit, hfirst, hpieces⟩ := splitOnP_pieces p cs
    rw [List.splitOnP_cons_eq_if_modifyHead, hsplit]
    have hlonger : ∀ piece, piece <:+: cs → piece <:+: c :: cs := fun piece hpiece =>
      hpiece.trans (List.suffix_cons c cs).isInfix
    cases hc : p c with
    | true =>
      refine ⟨[], first :: rest, rfl, List.nil_prefix, List.forall_mem_cons.2 ⟨by simp, ?_⟩⟩
      exact fun piece hmem => (hpieces piece hmem).imp_right (hlonger piece)
    | false =>
      obtain ⟨⟨hplain, -⟩, hrest⟩ := List.forall_mem_cons.1 hpieces
      have hprefix : c :: first <+: c :: cs := List.cons_prefix_cons.2 ⟨rfl, hfirst⟩
      refine ⟨c :: first, rest, rfl, hprefix, List.forall_mem_cons.2 ⟨⟨?_, hprefix.isInfix⟩, ?_⟩⟩
      · exact List.forall_mem_cons.2 ⟨hc, hplain⟩
      · exact fun piece hmem => (hrest piece hmem).imp_right (hlonger piece)

/-- No piece of a split text holds what it was split at. -/
theorem notMem_of_mem_splitOnP {separator : Char} {cs piece : List Char}
    (h : piece ∈ cs.splitOnP (· == separator)) : separator ∉ piece := by
  obtain ⟨first, rest, hsplit, -, hpieces⟩ := splitOnP_pieces (· == separator) cs
  intro hmem
  simpa using (hpieces piece (hsplit ▸ h)).1 separator hmem

/-- The longest runs without a blank, in order. -/
def words (cs : List Char) : List (List Char) :=
  (splitWhere isBlank cs).filter (! ·.isEmpty)

/-! ## Comparison without regard to ASCII case -/

/-- ASCII capitals become small letters; every other character stays. -/
def lowerAscii (s : String) : String :=
  String.ofList (s.toList.map Char.toLower)

end LaunchFile.Text
