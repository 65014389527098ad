import LaunchFile.Proofs.Expr.Number

/-!
# Proofs/Expr/Variable — the names that an expression may hold

A variable is an identifier that is neither a keyword nor a boolean nor a constant. By itself it is
an expression, with the value of the argument of that name (`evaluate_variable`). No character of an
identifier is blank, of any script (`isBlank_of_isIdentRest`).
-/

namespace LaunchFile

namespace Text

/-! ## Blanks and letters -/

/-- Whether an odd number of the changes has been passed. -/
def oddPassed (codePoint : Nat) : List Nat → Bool
  | [] => false
  | change :: changes =>
    bif Nat.ble change codePoint then !oddPassed codePoint changes
    else oddPassed codePoint changes

theorem inRuns_eq_oddPassed (changes : Array Nat) (codePoint : Nat) :
    inRuns changes codePoint = oddPassed codePoint changes.toList := by
  have hfold (rest : List Nat) (inside : Bool) : rest.foldl
      (fun inside change => if change ≤ codePoint then !inside else inside) inside =
        (inside ^^ oddPassed codePoint rest) := by
    induction rest generalizing inside with
    | nil => exact (Bool.xor_false inside).symm
    | cons change rest ih =>
      rw [List.foldl_cons, ih, oddPassed]
      by_cases hle : change ≤ codePoint
      · rw [if_pos hle, Nat.ble_eq_true_of_le hle, cond_true, Bool.not_xor, Bool.xor_not]
      · rw [if_neg hle, Bool.eq_false_iff.2 (mt Nat.le_of_ble_eq_true hle), cond_false]
  rw [inRuns, ← Array.foldl_toList, hfold, Bool.false_xor]

/-- The code points of the blanks. -/
def blankCodes : List Nat :=
  [9, 10, 11, 12, 13, 0x20, 0x85, 0xA0, 0x1680, 0x2000, 0x2001, 0x2002, 0x2003, 0x2004, 0x2005,
    0x2006, 0x2007, 0x2008, 0x2009, 0x200A, 0x2028, 0x2029, 0x202F, 0x205F, 0x3000]

theorem mem_blankCodes {c : Char} (h : isBlank c = true) : c.toNat ∈ blankCodes := by
  by_cases hspace : c = ' '
  · subst hspace
    decide
  · simp only [isBlank, beq_false_of_ne hspace, Bool.or_eq_true, Bool.and_eq_true,
      decide_eq_true_eq, beq_iff_eq, Bool.false_eq_true, or_false] at h
    simp only [blankCodes, List.mem_cons, List.not_mem_nil, or_false]
    omega

/-- **No blank of any script is a letter or a digit.** -/
theorem isAlphanumeric_of_isBlank {c : Char} (h : isBlank c = true) : isAlphanumeric c = false := by
  have hascii : ∀ n ∈ blankCodes, n < 0x80 → (Char.ofNat n).isAlphanum = false := by decide
  have hother : (blankCodes.all fun n => Nat.blt n 0x80 ||
      !(oddPassed n alphabeticRuns.toList || oddPassed n numericRuns.toList)) = true := by
    decide +kernel
  have hmem := mem_blankCodes h
  unfold isAlphanumeric
  split
  · rename_i hlow
    rw [← Char.ofNat_toNat c]
    exact hascii c.toNat hmem hlow
  · rename_i hhigh
    have hruns := List.all_eq_true.1 hother c.toNat hmem
    rw [inRuns_eq_oddPassed, inRuns_eq_oddPassed]
    have hblt : Nat.blt c.toNat 0x80 = false := by
      rw [Bool.eq_false_iff]
      exact fun h => hhigh (Nat.le_of_ble_eq_true h)
    simpa [hblt] using hruns

end Text

namespace Expr

/-! ## Identifiers -/

theorem isIdentRest_of_isIdentStart {c : Char} (h : isIdentStart c = true) :
    isIdentRest c = true := by
  rw [isIdentStart, Bool.or_eq_true] at h
  rw [isIdentRest, Bool.or_eq_true]
  refine h.imp_left fun h => ?_
  unfold Text.isAlphabetic at h
  unfold Text.isAlphanumeric
  split
  · rename_i hlow
    rw [if_pos hlow] at h
    rw [Char.isAlphanum, h, Bool.true_or]
  · rename_i hhigh
    rw [if_neg hhigh] at h
    rw [h, Bool.true_or]

theorem isBlank_of_isIdentRest {c : Char} (h : isIdentRest c = true) : Text.isBlank c = false := by
  rw [Bool.eq_false_iff]
  intro hblank
  rw [isIdentRest, Text.isAlphanumeric_of_isBlank hblank, Bool.false_or] at h
  rw [eq_of_beq h] at hblank
  exact absurd hblank (by decide)

/-- A letter or an underscore, and letters, digits and underscores behind it. -/
def IsIdentifier (name : String) : Prop :=
  ∃ c cs, name.toList = c :: cs ∧ isIdentStart c = true ∧ ∀ d ∈ cs, isIdentRest d = true

/-- A name that an expression may hold for an argument. -/
structure IsVariable (name : String) : Prop where
  isIdentifier : IsIdentifier name
  isName : IsName name
  ne_constant : name ≠ "pi" ∧ name ≠ "e"
  single : Text.occurs ['_', '_'] name.toList = false

variable {name : String}

theorem IsIdentifier.isIdentRest_of_mem (h : IsIdentifier name) {c : Char}
    (hc : c ∈ name.toList) : isIdentRest c = true := by
  obtain ⟨first, rest, heq, hfirst, hrest⟩ := h
  rw [heq] at hc
  rcases List.mem_cons.1 hc with rfl | hc
  · exact isIdentRest_of_isIdentStart hfirst
  · exact hrest c hc

/-- An identifier is one word. -/
theorem IsIdentifier.isWord (h : IsIdentifier name) : Text.IsWord name.toList := by
  refine ⟨?_, fun c hc => isBlank_of_isIdentRest (h.isIdentRest_of_mem hc)⟩
  obtain ⟨first, rest, heq, -⟩ := h
  exact heq ▸ List.cons_ne_nil _ _

/-- None of the characters that mean something elsewhere is in an identifier. -/
theorem IsIdentifier.notMem (h : IsIdentifier name) {c : Char} (hc : isIdentRest c = false) :
    c ∉ name.toList := fun hmem => by
  rw [h.isIdentRest_of_mem hmem] at hc
  cases hc

/-- What begins an identifier begins no other token. -/
theorem scanToken_ident {c : Char} (hc : isIdentStart c = true) (cs : List Char) :
    scanToken c cs = .ok (.ident (String.ofList (c :: cs.takeWhile isIdentRest)),
      (c :: cs.takeWhile isIdentRest).length) := by
  have hother : ∀ d ∈ '\'' :: '"' :: '.' :: (operatorChars ++ Decimal.decimalDigits),
      isIdentStart d = false := List.all_iff_forall_prop.1 (by decide)
  have hnotMem : c ∉ '\'' :: '"' :: '.' :: (operatorChars ++ Decimal.decimalDigits) := by
    intro hmem
    rw [hother c hmem] at hc
    cases hc
  simp only [List.mem_cons, List.mem_append, not_or] at hnotMem
  obtain ⟨hsingle, hdouble, hpoint, hoperator, hdigit⟩ := hnotMem
  have hquote : ¬(c == '\'' || c == '"') = true := by simp [hsingle, hdouble]
  have hnumber : ¬(c.isDigit || (c == '.' && cs.head?.any Char.isDigit)) = true := by
    simp [hpoint, mt Decimal.mem_decimalDigits hdigit]
  rw [scanToken, operator?_eq_none hoperator]
  simp only [if_neg hquote, if_neg hnumber, if_pos hc]

theorem IsIdentifier.tokenizes (h : IsIdentifier name) :
    Tokenizes name.toList [.ident name, .stop] := by
  obtain ⟨c, cs, heq, hc, hcs⟩ := h
  have htaken : cs.takeWhile isIdentRest = cs := List.takeWhile_eq_self_iff.2 hcs
  have hscan := scanToken_ident hc cs
  rw [htaken, ← heq, String.ofList_toList] at hscan
  have hblank := isBlank_of_isIdentRest (isIdentRest_of_isIdentStart hc)
  rw [heq] at hscan ⊢
  refine tokenizes_token hblank hscan ?_
  rw [List.length_cons, Nat.add_sub_cancel, List.drop_length]
  exact tokenizes_blank (by simp)

theorem IsVariable.parse_eq (h : IsVariable name) : parse name = .ok (.name name) := by
  obtain ⟨tokens, htokens, hkinds⟩ := h.isIdentifier.tokenizes 0
  have hparse : parseTokens tokens = .ok (.name name) :=
    parseTokens_of_parses ((parses_name h.isName).of_rank_le (by decide)) hkinds
  rw [parse, if_neg (by simp [h.single]), tokenize, htokens]
  exact hparse

/-- **A variable is an expression** with the value of the argument that it names. -/
theorem evaluate_variable (h : IsVariable name) {σ : Type} {b : Bindings σ} {text : String}
    (hbound : b.arg name = .ok (some text)) (s : σ) :
    outcome (evaluate b name) s = (.ok (Value.ofText text), s) := by
  have hlookup : lookupName b name = .ok (Value.ofText text) := by
    rw [lookupName, if_neg (by simp [h.ne_constant.1]), if_neg (by simp [h.ne_constant.2]), hbound]
  rw [evaluate, h.parse_eq]
  show outcome (eval b (.name name)) s = _
  rw [eval, hlookup]
  rfl

end Expr
end LaunchFile
