import LaunchFile.Proofs.Expr.Written

/-!
# Proofs/Expr/Spelling — what stands in a source for a token

`Spells k u` says that the characters `u` stand for a token of kind `k`: digits for a whole number,
digits with a point or a power of ten for a float, a body between two quotes for a string, an
identifier, an operator. What the lexer takes for a token is spelled so (`begins_of_scanToken`), and
what is spelled so is read as that token when a blank follows (`Spells.isLexeme`), so that the same
characters never stand for two kinds (`Spells.kind_eq`).
-/

namespace LaunchFile.Expr

open Decimal

/-- The characters stand for a token of this kind. -/
inductive Spells : TokenKind → List Char → Prop where
  | int {n : Int64} {digits : List Char} (hne : digits ≠ []) (hdigits : IsDigits digits)
    (hread : readInt64? digits = some n) : Spells (.int n) digits
  | float {x : Float} {whole fraction power : List Char} (h : IsNumeral whole fraction power)
    (hparts : ¬(fraction = [] ∧ power = []))
    (hread : readFloat? (whole ++ fraction ++ power) = some x) :
    Spells (.float x) (whole ++ fraction ++ power)
  | str {quote : Char} (hquote : quote ∈ ['\'', '"']) {body value : List Char}
    (h : Unescapes quote body value) :
    Spells (.str (String.ofList value)) (quote :: body ++ [quote])
  | ident {name : String} (h : IsIdentifier name) : Spells (.ident name) name.toList
  | symbol {k : TokenKind} {u : List Char} (h : k.symbol? = some u) : Spells k u

variable {k k' : TokenKind} {u cs rest whole fraction power : List Char} {c : Char} {length : Nat}

/-! ## What is spelled is read -/

/-- The letter of the power does not matter to the value. -/
theorem readFloat?_plainPower (h : IsNumeral whole fraction power) :
    readFloat? (whole ++ fraction ++ plainPower power) =
      readFloat? (whole ++ fraction ++ power) := by
  have hplain : IsNumeral whole fraction (plainPower power) :=
    ⟨h.isDigits, h.isFraction, isPower_plainPower h.isPower, h.some_digit⟩
  have hsign : ([] : List Char) ∈ signs := by decide
  have hread := h.readFloat? hsign
  have hreadPlain := hplain.readFloat? hsign
  rw [h.readScientific?, List.nil_append] at hread
  rw [hplain.readScientific?, readExponent?_plainPower h.isPower, List.nil_append] at hreadPlain
  rw [hread, hreadPlain]

/-- **What is spelled is one lexeme** in front of a blank. -/
theorem Spells.isLexeme (h : Spells k u) : IsLexeme k u := by
  cases h with
  | int hne hdigits hread =>
    have hnumeral := isNumeral_digits hne hdigits
    obtain ⟨c, cs, heq, hblank, hscan⟩ := scanToken_numeral hnumeral
    rw [List.append_nil, List.append_nil] at heq
    refine ⟨c, cs, heq, hblank, fun behind hbehind => ?_⟩
    rw [hscan, scanNumber_append hnumeral hbehind, if_pos ⟨rfl, rfl⟩, hread]
  | float hnumeral hparts hread =>
    obtain ⟨c, cs, heq, hblank, hscan⟩ := scanToken_numeral hnumeral
    refine ⟨c, cs, heq, hblank, fun behind hbehind => ?_⟩
    rw [hscan, scanNumber_append hnumeral hbehind, if_neg hparts, readFloat?_plainPower hnumeral,
      hread]
  | str hquote h => exact isLexeme_str hquote h
  | ident h => exact isLexeme_ident h
  | symbol h => exact isLexeme_symbol h

theorem Spells.ne_nil (h : Spells k u) : u ≠ [] := by
  obtain ⟨c, cs, rfl, -⟩ := h.isLexeme
  exact List.cons_ne_nil c cs

/-- **The same characters never stand for two kinds.** -/
theorem Spells.kind_eq (h : Spells k u) (h' : Spells k' u) : k = k' := by
  obtain ⟨c, cs, rfl, -, hscan⟩ := h.isLexeme
  obtain ⟨c', cs', heq, -, hscan'⟩ := h'.isLexeme
  cases heq
  have hsame := (hscan [] nofun).symm.trans (hscan' [] nofun)
  cases hsame
  rfl

theorem Spells.ne_stop (h : Spells k u) : k ≠ .stop := by
  rintro rfl
  cases h with
  | symbol h => cases h

/-! ## What is read is spelled -/

/-- A text begins with so many characters that stand for a token of this kind. -/
def Begins (k : TokenKind) (length : Nat) (cs : List Char) : Prop :=
  ∃ u rest, cs = u ++ rest ∧ u.length = length ∧ Spells k u

theorem begins_of_operator? (h : operator? c cs.head? = some (k, length)) :
    Begins k length (c :: cs) := by
  have one (hsymbol : k.symbol? = some [c]) (hlength : length = 1) : Begins k length (c :: cs) :=
    ⟨[c], cs, rfl, hlength.symm, .symbol hsymbol⟩
  have two {next : Char} (hnext : (cs.head? == some next) = true)
      (hsymbol : k.symbol? = some [c, next]) (hlength : length = 2) :
      Begins k length (c :: cs) := by
    obtain ⟨rest, rfl⟩ := List.head?_eq_some_iff.1 (eq_of_beq hnext)
    exact ⟨[c, next], rest, rfl, hlength.symm, .symbol hsymbol⟩
  unfold operator? at h
  split at h <;> (try split at h) <;> cases h <;> first
    | exact one rfl rfl
    | exact two ‹_› rfl rfl

theorem unescapes_of_scanString? {quote : Char} {value : List Char}
    (h : scanString? quote cs = some (value, length)) :
    ∃ body rest, cs = body ++ quote :: rest ∧ length = body.length + 1 ∧
      Unescapes quote body value := by
  fun_induction scanString? quote cs generalizing value length with
  | case1 => cases h
  | case2 => cases h
  | case3 c cs ih =>
    obtain ⟨⟨value, length⟩, hrest, heq⟩ := Option.map_eq_some_iff.1 h
    obtain ⟨body, rest, rfl, rfl, hbody⟩ := ih hrest
    cases heq
    exact ⟨'\\' :: c :: body, rest, rfl, rfl, .escape c hbody⟩
  | case4 c cs hlast hescape hquote =>
    cases h
    exact ⟨[], cs, by rw [eq_of_beq hquote]; rfl, rfl, .nil⟩
  | case5 c cs hlast hescape hquote ih =>
    obtain ⟨⟨value, length⟩, hrest, heq⟩ := Option.map_eq_some_iff.1 h
    obtain ⟨body, rest, rfl, rfl, hbody⟩ := ih hrest
    cases heq
    refine ⟨c :: body, rest, rfl, rfl, .plain ?_ hbody⟩
    have hbackslash : c ≠ '\\' := by
      rintro rfl
      obtain ⟨d, ds, hds⟩ := List.exists_cons_of_ne_nil (List.append_ne_nil_of_right_ne_nil body
        (List.cons_ne_nil quote rest))
      exact hescape d ds rfl hds
    rw [List.mem_pair, not_or]
    exact ⟨hbackslash, by simpa using hquote⟩

theorem exists_fraction_of_scan (cs : List Char) :
    ∃ fraction rest, cs = fraction ++ rest ∧ IsFraction fraction ∧ scanFraction cs = fraction := by
  unfold scanFraction
  split
  · rename_i cs
    refine ⟨_, cs.dropWhile Char.isDigit, ?_, .point fun c => List.mem_takeWhile_imp, rfl⟩
    rw [List.cons_append, List.takeWhile_append_dropWhile]
  · exact ⟨[], cs, rfl, .none, rfl⟩

theorem exponentSign_split (cs : List Char) :
    cs = (exponentSign cs).1 ++ (exponentSign cs).2 ∧ (exponentSign cs).1 ∈ signs := by
  unfold exponentSign
  split <;> exact ⟨rfl, by simp [signs]⟩

/-- The exponent is the power that stands at the front, with a small letter. -/
theorem exists_power_of_scan (cs : List Char) :
    ∃ power rest, cs = power ++ rest ∧ IsPower power ∧ scanExponent cs = plainPower power := by
  unfold scanExponent
  split
  · exact ⟨[], [], rfl, .none, rfl⟩
  · rename_i c cs
    split
    · rename_i hletter
      obtain ⟨hsplit, hsign⟩ := exponentSign_split cs
      simp only
      split
      · exact ⟨[], c :: cs, rfl, .none, rfl⟩
      · rename_i hdigits
        have hpower : IsPower (c :: ((exponentSign cs).1 ++
            (exponentSign cs).2.takeWhile Char.isDigit)) :=
          .letter (by simpa using hletter) hsign (by simpa using hdigits)
            fun d => List.mem_takeWhile_imp
        refine ⟨_, (exponentSign cs).2.dropWhile Char.isDigit, ?_, hpower, rfl⟩
        rw [List.cons_append, List.append_assoc, List.takeWhile_append_dropWhile, ← hsplit]
    · exact ⟨[], c :: cs, rfl, .none, rfl⟩

/-- Where a number starts there is a digit before the power of ten. -/
theorem some_digit_of_start
    (hstart : (c.isDigit || (c == '.' && cs.head?.any Char.isDigit)) = true)
    (hsplit : c :: cs = whole ++ rest) (hrest : NoDigit rest) :
    whole ≠ [] ∨ (scanFraction rest).tail ≠ [] := by
  refine or_iff_not_imp_left.2 fun hempty => ?_
  obtain rfl : whole = [] := not_not.1 hempty
  obtain rfl : c :: cs = rest := hsplit
  have hpoint : (c == '.' && cs.head?.any Char.isDigit) = true := by
    rwa [hrest c rfl, Bool.false_or] at hstart
  obtain ⟨hc, hnext⟩ := Bool.and_eq_true _ _ ▸ hpoint
  obtain rfl := eq_of_beq hc
  obtain ⟨d, hd, hdigit⟩ := (Option.any_eq_true _ _).1 hnext
  obtain ⟨ds, rfl⟩ := List.head?_eq_some_iff.1 hd
  rw [scanFraction, List.tail_cons, List.takeWhile_cons_of_pos hdigit]
  exact List.cons_ne_nil _ _

/-- **What the scanner takes for a number spells it.** -/
theorem begins_of_scanNumber
    (hstart : (c.isDigit || (c == '.' && cs.head?.any Char.isDigit)) = true)
    (h : scanNumber (c :: cs) = .ok (k, length)) : Begins k length (c :: cs) := by
  obtain ⟨whole, rest, hsplit, hwhole, hrest, -⟩ := span_isDigit (c :: cs)
  have hdigit := some_digit_of_start hstart hsplit hrest
  obtain ⟨fraction, behind, rfl, hfraction, hpoint⟩ := exists_fraction_of_scan rest
  obtain ⟨power, last, rfl, hpower, hletter⟩ := exists_power_of_scan behind
  rw [hpoint] at hdigit
  have hnumeral : IsNumeral whole fraction power := ⟨hwhole, hfraction, hpower, hdigit⟩
  rw [hsplit, scanNumber_parts hwhole hrest hpoint hletter,
    readFloat?_plainPower hnumeral] at h
  refine ⟨whole ++ fraction ++ power, last, by rw [hsplit]; simp, ?_⟩
  split at h
  · rename_i hparts
    obtain ⟨rfl, rfl⟩ := hparts
    split at h <;> cases h
    rename_i n hread
    rw [List.append_nil, List.append_nil]
    exact ⟨rfl, .int (hdigit.resolve_right (· rfl)) hwhole hread⟩
  · rename_i hparts
    split at h <;> cases h
    rename_i x hread
    exact ⟨rfl, .float hnumeral hparts hread⟩

/-- **What the lexer takes for a token spells it.** -/
theorem begins_of_scanToken (h : scanToken c cs = .ok (k, length)) :
    Begins k length (c :: cs) := by
  unfold scanToken at h
  split at h
  · rename_i found hoperator
    cases h
    exact begins_of_operator? hoperator
  split at h
  · rename_i hquote
    split at h <;> cases h
    rename_i value length hvalue
    obtain ⟨body, rest, rfl, rfl, hbody⟩ := unescapes_of_scanString? hvalue
    have hmem : c ∈ ['\'', '"'] := by simpa using hquote
    exact ⟨c :: body ++ [c], rest, by simp, by simp, .str hmem hbody⟩
  split at h
  · rename_i hstart
    exact begins_of_scanNumber hstart h
  split at h
  · rename_i hstart
    cases h
    have hname : IsIdentifier (String.ofList (c :: cs.takeWhile isIdentRest)) :=
      ⟨c, _, String.toList_ofList, hstart, fun d => List.mem_takeWhile_imp⟩
    have hspells := Spells.ident hname
    rw [String.toList_ofList] at hspells
    exact ⟨_, cs.dropWhile isIdentRest, by simp, rfl, hspells⟩
  · cases h

end LaunchFile.Expr
