import LaunchFile.Expr.Eval
import LaunchFile.Proofs.Decimal
import LaunchFile.Proofs.Expr.Complete
import LaunchFile.Proofs.Lockstep
import LaunchFile.Proofs.Text.Words

/-!
# Proofs/Expr/Number — a number as an expression

A text that is typed as a number is an expression of the same value (`evaluate_number`): the scanner
of numbers takes what the readers of whole numbers and of decimals accept without its sign, and the
sign becomes an operator. A row of digits beyond the words is typed as a float and refused as an
expression (`evaluate_oversized`).
-/

namespace LaunchFile.Expr

open Decimal

/-! ## Numerals in front of blanks -/

/-- Nothing but a blank stands at the start of the text. -/
def BlankAhead (cs : List Char) : Prop :=
  ∀ c ∈ cs.head?, Text.isBlank c = true

variable {whole fraction power behind digits u : List Char}

/-- A character that is no blank is not the first one. -/
theorem BlankAhead.notMem (h : BlankAhead behind) {c : Char} (hc : Text.isBlank c = false) :
    c ∉ behind.head? := fun hmem => by
  rw [h c hmem] at hc
  cases hc

/-- No digit is a blank. -/
theorem isBlank_of_isDigit {c : Char} (hc : c.isDigit = true) : Text.isBlank c = false := by
  have hall : ∀ c ∈ decimalDigits, Text.isBlank c = false :=
    List.all_iff_forall_prop.1 (by decide)
  exact hall c (mem_decimalDigits hc)

theorem BlankAhead.noDigit (h : BlankAhead behind) : NoDigit behind := fun c hc => by
  by_contra hdigit
  exact h.notMem (isBlank_of_isDigit (by simpa using hdigit)) hc

/-- The power of ten as the scanner writes it down. -/
def plainPower : List Char → List Char
  | [] => []
  | _ :: cs => 'e' :: cs

/-- A sign of an exponent is read off what follows it. -/
theorem exponentSign_append {sign : List Char} (hsign : sign ∈ signs) (hne : digits ≠ [])
    (hdigits : IsDigits digits) (cs : List Char) :
    exponentSign (sign ++ (digits ++ cs)) = (sign, digits ++ cs) := by
  obtain ⟨d, ds, rfl⟩ := List.exists_cons_of_ne_nil hne
  obtain ⟨hplus, hminus⟩ := ne_sign_of_isDigit (hdigits d List.mem_cons_self)
  rcases mem_signs.1 hsign with rfl | rfl | rfl
  · simp [exponentSign, hplus, hminus]
  · rfl
  · rfl

/-- An exponent is scanned up to the blanks behind it. -/
theorem scanExponent_append (hpower : IsPower power) (h : BlankAhead behind) :
    scanExponent (power ++ behind) = plainPower power := by
  cases hpower with
  | none =>
    cases behind with
    | nil => rfl
    | cons c cs =>
      have hc := h c rfl
      have hletter : ¬(c == 'e' || c == 'E') = true := by
        rintro hletter
        rcases Bool.or_eq_true _ _ ▸ hletter with heq | heq <;>
          rw [eq_of_beq heq] at hc <;> exact absurd hc (by decide)
      rw [List.nil_append, scanExponent, if_neg hletter]
      rfl
  | @letter c sign digits hletter hsign hne hdigits =>
    have hc : (c == 'e' || c == 'E') = true := by simpa using hletter
    rw [List.cons_append, List.append_assoc, scanExponent, if_pos hc,
      exponentSign_append hsign hne hdigits]
    simp [takeWhile_digits hdigits h.noDigit, hne, plainPower]

/-- A fraction is scanned up to the exponent behind it. -/
theorem scanFraction_append (hfraction : IsFraction fraction) (hpower : IsPower power)
    (h : BlankAhead behind) : scanFraction (fraction ++ (power ++ behind)) = fraction := by
  have hnoDigit : NoDigit (power ++ behind) := hpower.noDigit.append h.noDigit
  cases hfraction with
  | point hplaces => rw [List.cons_append, scanFraction, takeWhile_digits hplaces hnoDigit]
  | none =>
    cases hpower with
    | none =>
      cases behind with
      | nil => rfl
      | cons c cs =>
        have hc : c ≠ '.' := fun heq => absurd (heq ▸ h c rfl) (by decide)
        simp [scanFraction, hc]
    | letter hletter =>
      simp only [List.mem_cons, List.not_mem_nil, or_false] at hletter
      rcases hletter with rfl | rfl <;> rfl

/-- A plain power is written in as many characters. -/
theorem length_plainPower : (plainPower power).length = power.length := by
  cases power <;> rfl

theorem isPower_plainPower (h : IsPower power) : IsPower (plainPower power) := by
  cases h with
  | none => exact .none
  | letter _ hsign hne hdigits => exact .letter (by decide) hsign hne hdigits

/-- A plain power has the same exponent. -/
theorem readExponent?_plainPower (h : IsPower power) :
    readExponent? (plainPower power) = readExponent? power := by
  cases h with
  | none => rfl
  | letter hletter =>
    simp only [List.mem_cons, List.not_mem_nil, or_false] at hletter
    rcases hletter with rfl | rfl <;> rfl

/-- What the scanner makes of the parts that it finds. -/
theorem scanNumber_parts (hdigits : IsDigits whole)
    (hrest : NoDigit (fraction ++ (power ++ behind)))
    (hfraction : scanFraction (fraction ++ (power ++ behind)) = fraction)
    (hpower : scanExponent (power ++ behind) = plainPower power) :
    scanNumber (whole ++ (fraction ++ (power ++ behind))) =
      if fraction = [] ∧ power = [] then
        match readInt64? whole with
        | some n => .ok (.int n, whole.length)
        | none => .error (.integerOutOfRange (String.ofList whole))
      else
        match readFloat? (whole ++ fraction ++ plainPower power) with
        | some x => .ok (.float x, (whole ++ fraction ++ power).length)
        | none =>
          .error (.invalidNumber (String.ofList (whole ++ fraction ++ plainPower power))) := by
  have hbehind : (whole ++ (fraction ++ (power ++ behind))).drop
      (whole.length + fraction.length) = power ++ behind := by
    rw [← List.append_assoc, ← List.length_append, List.drop_left]
  have hlength : (whole ++ fraction ++ plainPower power).length =
      (whole ++ fraction ++ power).length := by
    rw [List.length_append, length_plainPower, ← List.length_append]
  have hempty : (fraction.isEmpty && (plainPower power).isEmpty) = true ↔
      fraction = [] ∧ power = [] := by
    rw [Bool.and_eq_true, List.isEmpty_iff, List.isEmpty_iff]
    cases power <;> simp [plainPower]
  rw [scanNumber]
  simp only [takeWhile_digits hdigits hrest, List.drop_left, hfraction, hbehind, hpower, hlength,
    hempty]
  split
  · rename_i hparts
    cases hread : readInt64? whole <;> simp [hparts.1, hparts.2, plainPower, hread]
  · rfl

/-- What the scanner makes of a numeral, up to the blank behind it. -/
theorem scanNumber_append (hnumeral : IsNumeral whole fraction power) (h : BlankAhead behind) :
    scanNumber (whole ++ fraction ++ power ++ behind) =
      if fraction = [] ∧ power = [] then
        match readInt64? whole with
        | some n => .ok (.int n, whole.length)
        | none => .error (.integerOutOfRange (String.ofList whole))
      else
        match readFloat? (whole ++ fraction ++ plainPower power) with
        | some x => .ok (.float x, (whole ++ fraction ++ power).length)
        | none =>
          .error (.invalidNumber (String.ofList (whole ++ fraction ++ plainPower power))) := by
  have hrest : NoDigit (fraction ++ (power ++ behind)) :=
    hnumeral.isFraction.noDigit.append (hnumeral.isPower.noDigit.append h.noDigit)
  have hsplit : whole ++ fraction ++ power ++ behind =
      whole ++ (fraction ++ (power ++ behind)) := by
    simp
  rw [hsplit]
  exact scanNumber_parts hnumeral.isDigits hrest
    (scanFraction_append hnumeral.isFraction hnumeral.isPower h)
    (scanExponent_append hnumeral.isPower h)

/-! ## Literals -/

/-- The text is one lexeme, up to a blank or the end, and a literal of this value. -/
structure IsLiteral (u : List Char) (k : TokenKind) (v : Value) : Prop where
  scans : ∃ c cs, u = c :: cs ∧ Text.isBlank c = false ∧
    ∀ behind, BlankAhead behind → scanToken c (cs ++ behind) = .ok (k, u.length)
  parses : ∀ depth, Parses depth .atom [k] (.literal v)
  plain : '_' ∉ u

/-- The characters with which operators begin. -/
def operatorChars : List Char :=
  "+-*/%=!<>(),".toList

/-- No character of a numeral begins an operator. -/
theorem operator?_eq_none {c : Char} (hc : c ∉ operatorChars) (next : Option Char) :
    operator? c next = none := by
  unfold operator?
  split <;> first
    | rfl
    | exact absurd (by decide) hc

/-- A token that begins as a numeral does is a number. -/
theorem scanToken_numeral (hnumeral : IsNumeral whole fraction power) :
    ∃ c cs, whole ++ fraction ++ power = c :: cs ∧ Text.isBlank c = false ∧
      ∀ behind, scanToken c (cs ++ behind) =
        scanNumber (whole ++ fraction ++ power ++ behind) := by
  obtain ⟨c, cs, heq, hc⟩ := hnumeral.head
  have hmem := mem_of_numeral_head hc
  have hall : ∀ c ∈ '.' :: decimalDigits, Text.isBlank c = false ∧
      (c == '\'' || c == '"') = false ∧ c ∉ operatorChars :=
    List.all_iff_forall_prop.1 (by decide)
  obtain ⟨hblank, hquote, hoperator⟩ := hall c hmem
  refine ⟨c, cs, heq, hblank, fun behind => ?_⟩
  have hstart : (c.isDigit || (c == '.' && (cs ++ behind).head?.any Char.isDigit)) = true := by
    rcases hc with hdigit | ⟨rfl, d, hd, hdigit⟩
    · rw [hdigit, Bool.true_or]
    · cases cs <;> cases hd
      simp [hdigit]
  rw [scanToken, operator?_eq_none hoperator, heq]
  simp only [hquote, Bool.false_eq_true, if_false, hstart, if_true, List.cons_append]

/-- Numerals have no underscores. -/
theorem underscore_notMem_numeral (hnumeral : IsNumeral whole fraction power) :
    '_' ∉ whole ++ fraction ++ power := fun hmem =>
  absurd (hnumeral.mem_numeralChars hmem) (by decide)

theorem isNumeral_digits (hne : digits ≠ []) (h : IsDigits digits) : IsNumeral digits [] [] :=
  ⟨h, .none, .none, .inl hne⟩

/-- Digits that fit a word are an integer. -/
theorem isLiteral_digits {n : Nat} {w : Int64} (hn : readDigits? digits = some n)
    (hw : toInt64? n = some w) : IsLiteral digits (.int w) (.int w) := by
  obtain ⟨hne, hdigits, -⟩ := readDigits?_eq_some_iff.1 hn
  have hnumeral := isNumeral_digits hne hdigits
  obtain ⟨c, cs, heq, hblank, hscan⟩ := scanToken_numeral hnumeral
  have hread : readInt64? digits = some w := by
    rw [readInt64?, readInt?_of_isDigits hne hdigits, hn]
    exact hw
  rw [List.append_nil, List.append_nil] at heq
  refine ⟨⟨c, cs, heq, hblank, fun behind h => ?_⟩, fun _ => parses_int w, ?_⟩
  · rw [hscan, scanNumber_append hnumeral h, if_pos ⟨rfl, rfl⟩, hread]
  · simpa using underscore_notMem_numeral hnumeral

/-- A numeral with a fraction or an exponent is a float. -/
theorem isLiteral_numeral (hnumeral : IsNumeral whole fraction power)
    (hparts : ¬(fraction = [] ∧ power = [])) {e : Int} (he : readExponent? power = some e) :
    IsLiteral (whole ++ fraction ++ power)
      (.float (numeralValue false whole fraction e).toFloat)
      (.float (numeralValue false whole fraction e).toFloat) := by
  obtain ⟨c, cs, heq, hblank, hscan⟩ := scanToken_numeral hnumeral
  have hplain : IsNumeral whole fraction (plainPower power) :=
    ⟨hnumeral.isDigits, hnumeral.isFraction, isPower_plainPower hnumeral.isPower,
      hnumeral.some_digit⟩
  have hread : readFloat? (whole ++ fraction ++ plainPower power) =
      some (numeralValue false whole fraction e).toFloat := by
    rw [← List.nil_append (whole ++ fraction ++ plainPower power),
      hplain.readFloat? (by decide), hplain.readScientific?,
      readExponent?_plainPower hnumeral.isPower, he]
    rfl
  refine ⟨⟨c, cs, heq, hblank, fun behind h => ?_⟩, fun _ => parses_float _,
    underscore_notMem_numeral hnumeral⟩
  rw [hscan, scanNumber_append hnumeral h, if_neg hparts, hread]

/-! ## Signs and blanks -/

/-- The text is a row of tokens of these kinds, at any offset. -/
def Tokenizes (cs : List Char) (ks : List TokenKind) : Prop :=
  ∀ offset, ∃ tokens, tokenizeFrom offset cs = .ok tokens ∧ kinds tokens = ks

variable {cs : List Char} {k : TokenKind} {ks : List TokenKind} {v : Value}

/-- Blanks in front only change offsets. -/
theorem tokenizeFrom_blanks {before : List Char} (h : ∀ c ∈ before, Text.isBlank c = true)
    (cs : List Char) (offset : Nat) :
    ∃ offset', tokenizeFrom offset (before ++ cs) = tokenizeFrom offset' cs := by
  induction before generalizing offset with
  | nil => exact ⟨offset, rfl⟩
  | cons c before ih =>
    obtain ⟨hc, hbefore⟩ := List.forall_mem_cons.1 h
    obtain ⟨offset', heq⟩ := ih hbefore (offset + c.utf8Size)
    exact ⟨offset', by rw [List.cons_append, tokenizeFrom, if_pos hc, heq]⟩

/-- What is tokenized alone is tokenized behind blanks. -/
theorem Tokenizes.blanks (h : Tokenizes cs ks) {before : List Char}
    (hbefore : ∀ c ∈ before, Text.isBlank c = true) : Tokenizes (before ++ cs) ks := by
  intro offset
  obtain ⟨offset', heq⟩ := tokenizeFrom_blanks hbefore cs offset
  obtain ⟨tokens, htokens, hkinds⟩ := h offset'
  exact ⟨tokens, heq.trans htokens, hkinds⟩

/-- Blanks alone are no token but the end. -/
theorem tokenizes_blank (h : ∀ c ∈ behind, Text.isBlank c = true) : Tokenizes behind [.stop] :=
  fun offset => by
    obtain ⟨offset', heq⟩ := tokenizeFrom_blanks h [] offset
    rw [List.append_nil] at heq
    exact ⟨_, heq.trans (by rw [tokenizeFrom]), rfl⟩

/-- A scanned token stands before the tokens of the rest. -/
theorem tokenizes_token {c : Char} (hc : Text.isBlank c = false) {length : Nat}
    (hscan : scanToken c cs = .ok (k, length)) (h : Tokenizes (cs.drop (length - 1)) ks) :
    Tokenizes (c :: cs) (k :: ks) := fun offset => by
  obtain ⟨tokens, htokens, hkinds⟩ :=
    h (offset + Text.Utf8.byteLength (c :: cs.take (length - 1)))
  refine ⟨⟨k, offset⟩ :: tokens, ?_, by rw [kinds, List.map_cons, ← kinds, hkinds]⟩
  rw [tokenizeFrom, if_neg (by simp [hc]), hscan]
  simp only [htokens]

theorem blankAhead_of_forall (h : ∀ c ∈ behind, Text.isBlank c = true) : BlankAhead behind :=
  fun c hc => h c (List.mem_of_mem_head? hc)

/-- A literal with blanks behind it is one token. -/
theorem IsLiteral.tokenizes (hu : IsLiteral u k v) (h : ∀ c ∈ behind, Text.isBlank c = true) :
    Tokenizes (u ++ behind) [k, .stop] := by
  obtain ⟨c, cs, rfl, hc, hscan⟩ := hu.scans
  have hrest : Tokenizes ((cs ++ behind).drop ((c :: cs).length - 1)) [.stop] := by
    rw [List.length_cons, Nat.add_sub_cancel, List.drop_left]
    exact tokenizes_blank h
  exact tokenizes_token hc (hscan behind (blankAhead_of_forall h)) hrest

/-- The operator that a sign is. -/
def signOp (c : Char) : UnaryOp :=
  if c = '-' then .neg else .pos

/-- The tree of a literal with its sign. -/
def signTree : List Char → Tree → Tree
  | [], t => t
  | c :: _, t => .unary (signOp c) t

/-- The token of a sign, if there is one. -/
def signTokens (sign : List Char) : List TokenKind :=
  sign.map fun c => (signOp c).token

/-- The value of a literal with its sign. -/
def applySign : List Char → Value → Except EvalError Value
  | [], v => .ok v
  | c :: _, v => applyUnary (signOp c) v

theorem tokenizes_sign {sign : List Char} (hsign : sign ∈ signs) (h : Tokenizes cs ks) :
    Tokenizes (sign ++ cs) (signTokens sign ++ ks) := by
  rcases mem_signs.1 hsign with rfl | rfl | rfl
  · exact h
  · exact tokenizes_token (by decide) (rfl : scanToken '+' cs = .ok (.plus, 1)) h
  · exact tokenizes_token (by decide) (rfl : scanToken '-' cs = .ok (.minus, 1)) h

/-- A sign before an atom is an expression. -/
theorem parses_signTree {sign : List Char} (hsign : sign ∈ signs) {t : Tree}
    (h : ∀ depth, Parses depth .atom [k] t) (depth : Nat) :
    Parses (depth + 1) .expression (signTokens sign ++ [k]) (signTree sign t) := by
  have hunary : Parses depth .unary [k] t := (h depth).of_rank_le (by decide)
  have hsigned (op : UnaryOp) (hop : op.IsSign) :
      Parses (depth + 1) .expression [op.token, k] (.unary op t) :=
    (parses_sign hop (hunary.below .unary)).of_rank_le (by decide)
  rcases mem_signs.1 hsign with rfl | rfl | rfl
  · exact (h _).of_rank_le (by decide)
  · exact hsigned .pos nofun
  · exact hsigned .neg nofun

/-! ## Whole texts -/

/-- A signed literal has the signed value and asks for nothing. -/
theorem outcome_signTree {σ : Type} (b : Bindings σ) (s : σ) (sign : List Char) (v : Value) :
    outcome (eval b (signTree sign (.literal v))) s = (applySign sign v, s) := by
  cases sign with
  | nil => rfl
  | cons c sign => rfl

/-- Signs and blanks bring no underscore into a text. -/
theorem occurs_underscores {text : String} {sign : List Char} (hsign : sign ∈ signs)
    (htext : Text.trimChars text.toList = sign ++ u) (hu : '_' ∉ u) :
    Text.occurs ['_', '_'] text.toList = false := by
  rw [Bool.eq_false_iff, Ne, Text.occurs_iff_infix]
  intro hpart
  rcases Text.isBlank_or_mem_trimChars (hpart.subset List.mem_cons_self) with hblank | hmem
  · exact absurd hblank (by decide)
  · rw [htext, List.mem_append] at hmem
    exact hmem.elim (fun hmem => absurd (mem_numeralChars_of_sign hsign hmem) (by decide)) hu

/-- A sign and a literal with blanks around them. -/
theorem outcome_evaluate {text : String} {sign u : List Char} (hsign : sign ∈ signs)
    (hu : IsLiteral u k v) (htext : Text.trimChars text.toList = sign ++ u) {σ : Type}
    (b : Bindings σ) (s : σ) : outcome (evaluate b text) s = (applySign sign v, s) := by
  obtain ⟨before, behind, heq, hbefore, hbehind⟩ := Text.exists_trimChars text.toList
  have hplain := occurs_underscores hsign htext hu.plain
  obtain ⟨offset, hblanks⟩ := tokenizeFrom_blanks hbefore (sign ++ (u ++ behind)) 0
  obtain ⟨tokens, htokens, hkinds⟩ := tokenizes_sign hsign (hu.tokenizes hbehind) offset
  have hlex : tokenize text = .ok tokens := by
    rw [tokenize, heq, htext, List.append_assoc, hblanks, htokens]
  have hparse : parseTokens tokens = .ok (signTree sign (.literal v)) := by
    refine parseTokens_of_parses (parses_signTree hsign hu.parses _) ?_
    rw [hkinds, List.append_assoc]
    rfl
  have hsource : parse text = .ok (signTree sign (.literal v)) := by
    rw [parse, if_neg (by simp [hplain]), hlex]
    exact hparse
  rw [evaluate, hsource]
  exact outcome_signTree b s sign v

/-! ## Typed texts -/

/-- A whole number or a float. -/
inductive Value.IsNumber : Value → Prop where
  | int (n : Int64) : IsNumber (.int n)
  | float (x : Float) : IsNumber (.float x)

/-- A whole number whose digits stand for more than the largest word, blanks around it apart. -/
def IsOversized (text : String) : Prop :=
  ∃ n, readInt? (Text.trimChars text.toList) = some n ∧ Int64.maxValue.toInt < n.natAbs

/-- No sign, and a plus, change no number. -/
theorem applySign_of_isNumber {sign : List Char} (hsign : sign ∈ signs) (h : sign ≠ ['-'])
    (hv : v.IsNumber) : applySign sign v = .ok v := by
  rcases mem_signs.1 hsign with rfl | rfl | rfl
  · rfl
  · cases hv <;> rfl
  · exact absurd rfl h

/-- What the words for infinity and for no number are made of is not typed as a number. -/
theorem exists_scientific {negative : Bool} {x : Float} (h : readMagnitude? negative u = some x)
    (hinf : ¬ "inf".toList <:+: u.map Char.toLower)
    (hnan : ¬ "nan".toList <:+: u.map Char.toLower) :
    ∃ s, readScientific? negative u = some s ∧ s.toFloat = x := by
  have hword (word : String) (hne : u.map Char.toLower ≠ word.toList) :
      ¬(String.ofList (u.map Char.toLower) == word) = true := fun hbeq =>
    hne (by rw [← eq_of_beq hbeq, String.toList_ofList])
  have hnotInf := hword "inf" fun heq => hinf (heq ▸ List.infix_refl _)
  have hnotInfinity := hword "infinity" fun heq => hinf (heq ▸ by decide)
  have hnotNan := hword "nan" fun heq => hnan (heq ▸ List.infix_refl _)
  rw [readMagnitude?] at h
  simp only [hnotInf, hnotInfinity, hnotNan, Bool.or_self, Bool.false_eq_true, if_false] at h
  exact Option.map_eq_some_iff.1 h

/-- **What is typed as a whole number** is a sign and a literal, when it is not oversized. -/
theorem exists_literal_of_readInt64? {text : String} {n : Int64}
    (h : readInt64? (Text.trimChars text.toList) = some n) (hsize : ¬IsOversized text) :
    ∃ sign ∈ signs, ∃ u k v, IsLiteral u k v ∧ Text.trimChars text.toList = sign ++ u ∧
      applySign sign v = .ok (.int n) := by
  obtain ⟨m, hm, hn⟩ := Option.bind_eq_some_iff.1 h
  obtain ⟨sign, hsign, digits, value, heq, hdigits, rfl⟩ := readInt?_eq_some_iff.1 hm
  have hmax : (value : Int) ≤ Int64.maxValue.toInt := by
    by_contra hlarge
    exact hsize ⟨_, hm, by split <;> omega⟩
  rw [Int64.toInt_maxValue] at hmax
  obtain ⟨w, hw⟩ := (toInt64?_cases value).resolve_right (by omega)
  refine ⟨sign, hsign, digits, .int w, .int w,
    isLiteral_digits hdigits (toInt64?_eq_some_iff.2 hw), heq, ?_⟩
  by_cases hminus : sign = ['-']
  · subst hminus
    rw [if_pos rfl, ← hw] at hn
    show orOverflow (toInt64? (-w.toInt)) = _
    rw [hn]
    rfl
  · rw [if_neg hminus, ← hw, toInt64?_toInt] at hn
    cases hn
    exact applySign_of_isNumber hsign hminus (.int n)

/-- **What is typed as a float** is a sign and a literal, when it is not oversized. -/
theorem exists_literal_of_readFloat? {text : String} {x : Float}
    (hint : readInt64? (Text.trimChars text.toList) = none)
    (h : readFloat? (Text.trimChars text.toList) = some x)
    (hinf : Value.mentions "inf" (Text.trim text) = false)
    (hnan : Value.mentions "nan" (Text.trim text) = false) (hsize : ¬IsOversized text) :
    ∃ sign ∈ signs, ∃ u k v, IsLiteral u k v ∧ Text.trimChars text.toList = sign ++ u ∧
      applySign sign v = .ok (.float x) := by
  obtain ⟨sign, hsign, u, heq, hu⟩ := exists_sign_of_readFloat? h
  have hmentions {word : String} (hword : Value.mentions word (Text.trim text) = false) :
      ¬ word.toList <:+: u.map Char.toLower := fun hpart => by
    have hwhole : word.toList <:+: (Text.trimChars text.toList).map Char.toLower := by
      rw [heq, List.map_append]
      exact hpart.trans (List.suffix_append _ _).isInfix
    rw [Value.mentions, Text.trim, String.toList_ofList, Text.occurs_iff_infix.2 hwhole] at hword
    cases hword
  obtain ⟨s, hs, rfl⟩ := exists_scientific hu (hmentions hinf) (hmentions hnan)
  obtain ⟨whole, fraction, power, rfl, hnumeral⟩ := exists_numeral hs
  have hvalue := hs
  rw [hnumeral.readScientific?] at hvalue
  obtain ⟨e, he, rfl⟩ := Option.map_eq_some_iff.1 hvalue
  by_cases hparts : fraction = [] ∧ power = []
  · obtain ⟨rfl, rfl⟩ := hparts
    obtain ⟨n, hn⟩ : ∃ n, readDigits? whole = some n := ⟨_, readDigits?_eq_some_iff.2
      ⟨hnumeral.some_digit.resolve_right (· rfl), hnumeral.isDigits, rfl⟩⟩
    rw [List.append_nil, List.append_nil] at heq
    have hread := readInt?_eq_some_iff.2 ⟨sign, hsign, whole, n, heq, hn, rfl⟩
    rw [readInt64?, hread, Option.bind_some] at hint
    have hbeyond := (toInt64?_cases _).resolve_left (not_exists.2 (toInt64?_eq_none_iff.1 hint))
    refine absurd ⟨_, hread, ?_⟩ hsize
    rw [Int64.toInt_maxValue]
    split at hbeyond <;> omega
  · refine ⟨sign, hsign, _, _, _, isLiteral_numeral hnumeral hparts he, heq, ?_⟩
    by_cases hminus : sign = ['-']
    · subst hminus
      rfl
    · rw [decide_eq_false hminus]
      exact applySign_of_isNumber hsign hminus (.float _)

/-- **What is typed as a number** is a sign and a literal, when it is not oversized. -/
theorem exists_literal {text : String} (h : (Value.ofText text).IsNumber)
    (hsize : ¬IsOversized text) :
    ∃ sign ∈ signs, ∃ u k v, IsLiteral u k v ∧ Text.trimChars text.toList = sign ++ u ∧
      applySign sign v = .ok (Value.ofText text) := by
  have htrim : (Text.trim text).toList = Text.trimChars text.toList := String.toList_ofList
  rw [Value.ofText, htrim] at h ⊢
  cases hint : readInt64? (Text.trimChars text.toList) with
  | some n =>
    rw [hint] at h
    exact exists_literal_of_readInt64? hint hsize
  | none =>
    rw [hint] at h
    simp only at h ⊢
    split at h
    · rename_i x hfloat
      obtain ⟨hread, hwords⟩ := Option.filter_eq_some_iff.1 hfloat
      simp only [Bool.and_eq_true, Bool.not_eq_true'] at hwords
      exact exists_literal_of_readFloat? hint hread hwords.1 hwords.2 hsize
    · split at h <;> cases h

/-- **A number is an expression of itself.** -/
theorem evaluate_number {text : String} (h : (Value.ofText text).IsNumber)
    (hsize : ¬IsOversized text) {σ : Type} (b : Bindings σ) (s : σ) :
    outcome (evaluate b text) s = (.ok (Value.ofText text), s) := by
  obtain ⟨sign, hsign, u, k, v, hu, heq, hv⟩ := exists_literal h hsize
  rw [outcome_evaluate hsign hu heq, hv]

/-! ## Beyond the words -/

/-- At any offset the text has a fault of this kind. -/
def Refuses (cs : List Char) (fault : SyntaxFault) : Prop :=
  ∀ offset, ∃ place, tokenizeFrom offset cs = .error (.invalid place fault)

/-- A row that is refused is refused behind a sign. -/
theorem refuses_sign {sign : List Char} (hsign : sign ∈ signs) {fault : SyntaxFault}
    (h : Refuses cs fault) : Refuses (sign ++ cs) fault := by
  have hone {c : Char} {kind : TokenKind} (hc : Text.isBlank c = false)
      (hscan : scanToken c cs = .ok (kind, 1)) : Refuses (c :: cs) fault := fun offset => by
    obtain ⟨place, heq⟩ := h (offset + Text.Utf8.byteLength [c])
    refine ⟨place, ?_⟩
    rw [tokenizeFrom, if_neg (by simp [hc]), hscan]
    simp only [Nat.sub_self, List.take_zero, List.drop_zero, heq]
  rcases mem_signs.1 hsign with rfl | rfl | rfl
  · exact h
  · exact hone (by decide) rfl
  · exact hone (by decide) rfl

/-- **Digits above the largest word are out of range.** -/
theorem refuses_digits {n : Nat} (hn : readDigits? digits = some n)
    (hlarge : Int64.maxValue.toInt < n) (h : ∀ c ∈ behind, Text.isBlank c = true) :
    Refuses (digits ++ behind) (.integerOutOfRange (String.ofList digits)) := by
  obtain ⟨hne, hdigits, -⟩ := readDigits?_eq_some_iff.1 hn
  have hnumeral := isNumeral_digits hne hdigits
  obtain ⟨c, cs, heq, hblank, hscan⟩ := scanToken_numeral hnumeral
  rw [Int64.toInt_maxValue] at hlarge
  have hread : readInt64? digits = none := by
    rw [readInt64?, readInt?_of_isDigits hne hdigits, hn]
    exact toInt64?_of_lt (.inr (by show (2 : Int) ^ 63 ≤ n; omega))
  have hfault : scanToken c (cs ++ behind) =
      .error (.integerOutOfRange (String.ofList digits)) := by
    rw [hscan, scanNumber_append hnumeral (blankAhead_of_forall h), if_pos ⟨rfl, rfl⟩, hread]
  rw [List.append_nil, List.append_nil] at heq
  intro offset
  refine ⟨offset, ?_⟩
  rw [heq, List.cons_append, tokenizeFrom, if_neg (by simp [hblank]), ← heq, hfault]

/-- No word stands in what only holds characters of numerals. -/
theorem mentions_eq_false {s word : String} (h : ∀ c ∈ s.toList, c ∈ numeralChars)
    (hword : ∃ c ∈ word.toList, c ∉ numeralChars.map Char.toLower) :
    Value.mentions word s = false := by
  obtain ⟨c, hc, hnot⟩ := hword
  rw [Value.mentions, Bool.eq_false_iff, Ne, Text.occurs_iff_infix]
  intro hpart
  obtain ⟨d, hd, rfl⟩ := List.mem_map.1 (hpart.subset hc)
  exact hnot (List.mem_map_of_mem (h d hd))

/-- Digits beyond the words are typed as a number. -/
theorem isNumber_of_isOversized {text : String} (h : IsOversized text) :
    (Value.ofText text).IsNumber := by
  obtain ⟨m, hm, -⟩ := h
  obtain ⟨sign, hsign, digits, n, heq, hn, -⟩ := readInt?_eq_some_iff.1 hm
  obtain ⟨hne, hdigits, -⟩ := readDigits?_eq_some_iff.1 hn
  have hnumeral := isNumeral_digits hne hdigits
  have htrim : (Text.trim text).toList = Text.trimChars text.toList := String.toList_ofList
  have hread : readFloat? (Text.trimChars text.toList) =
      some (numeralValue (sign = ['-']) digits [] 0).toFloat := by
    have hwhole := hnumeral.readFloat? hsign
    rw [hnumeral.readScientific?, List.append_nil, List.append_nil, ← heq] at hwhole
    exact hwhole
  have hchars : ∀ c ∈ (Text.trim text).toList, c ∈ numeralChars := fun c hc => by
    rw [htrim, heq, List.mem_append] at hc
    exact hc.elim (mem_numeralChars_of_sign hsign) fun hc =>
      hnumeral.mem_numeralChars (by simpa using hc)
  have hinf : Value.mentions "inf" (Text.trim text) = false :=
    mentions_eq_false hchars ⟨'n', by decide, by decide⟩
  have hnan : Value.mentions "nan" (Text.trim text) = false :=
    mentions_eq_false hchars ⟨'n', by decide, by decide⟩
  rw [Value.ofText, htrim]
  cases readInt64? (Text.trimChars text.toList) with
  | some w => exact .int w
  | none =>
    simp only [hread, hinf, hnan]
    exact .float _

/-- **Digits beyond the words are no expression**, though they are typed as a number. -/
theorem evaluate_oversized {text : String} (h : IsOversized text) {σ : Type} (b : Bindings σ)
    (s : σ) : ∃ place digits,
      outcome (evaluate b text) s = (.error (.invalid place (.integerOutOfRange digits)), s) := by
  obtain ⟨m, hm, hlarge⟩ := h
  obtain ⟨sign, hsign, digits, n, htext, hn, rfl⟩ := readInt?_eq_some_iff.1 hm
  have hlarge : Int64.maxValue.toInt < n := by split at hlarge <;> omega
  obtain ⟨before, behind, heq, hbefore, hbehind⟩ := Text.exists_trimChars text.toList
  obtain ⟨hne, hdigits, -⟩ := readDigits?_eq_some_iff.1 hn
  have hplain := occurs_underscores hsign htext (by
    simpa using underscore_notMem_numeral (isNumeral_digits hne hdigits))
  obtain ⟨offset, hblanks⟩ := tokenizeFrom_blanks hbefore (sign ++ (digits ++ behind)) 0
  obtain ⟨place, hplace⟩ := refuses_sign hsign (refuses_digits hn hlarge hbehind) offset
  have hlex : tokenize text = .error (.invalid place (.integerOutOfRange (.ofList digits))) := by
    rw [tokenize, heq, htext, List.append_assoc, hblanks, hplace]
  refine ⟨place, String.ofList digits, ?_⟩
  rw [evaluate, parse, if_neg (by simp [hplain]), hlex]
  rfl

end LaunchFile.Expr
