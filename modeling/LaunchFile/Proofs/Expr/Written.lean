import LaunchFile.Proofs.Decimal.Layout
import LaunchFile.Proofs.Expr.Variable

/-!
# Proofs/Expr/Written — tokens that are written down with spaces between them are read back

A form of a token (`Writes`) is one lexeme in front of a blank (`Writes.isLexeme`): a longer
operator would need a second character, a numeral a point or an exponent, and inside a string a
backslash stands before all that could end it. So a row of forms is read as the row of their kinds
(`tokenize_intercalate`).
-/

namespace LaunchFile.Expr

/-! ## Forms -/

/-- How operators, parentheses and commas are written. -/
def TokenKind.symbol? : TokenKind → Option (List Char)
  | .plus => some ['+']
  | .minus => some ['-']
  | .star => some ['*']
  | .doubleStar => some ['*', '*']
  | .slash => some ['/']
  | .doubleSlash => some ['/', '/']
  | .percent => some ['%']
  | .eqEq => some ['=', '=']
  | .notEq => some ['!', '=']
  | .lt => some ['<']
  | .le => some ['<', '=']
  | .gt => some ['>']
  | .ge => some ['>', '=']
  | .leftParen => some ['(']
  | .rightParen => some [')']
  | .comma => some [',']
  | .int _ | .float _ | .str _ | .ident _ | .stop => none

/-- A string in front of its closing quote: a backslash stands before every backslash and before
every quote of this kind. -/
def escaped (quote : Char) (cs : List Char) : List Char :=
  cs.flatMap fun c => if c = '\\' ∨ c = quote then ['\\', c] else [c]

/-- A token of this kind may be written so. -/
inductive Writes : TokenKind → String → Prop where
  | int {n : Int64} (hn : 0 ≤ n.toInt) : Writes (.int n) (Decimal.ofInt64 n)
  | str {quote : Char} (hquote : quote ∈ ['\'', '"']) (s : String) :
    Writes (.str s) (String.ofList (quote :: escaped quote s.toList ++ [quote]))
  | ident {name : String} (h : IsIdentifier name) : Writes (.ident name) name
  | symbol {k : TokenKind} {cs : List Char} (h : k.symbol? = some cs) : Writes k (String.ofList cs)

variable {k : TokenKind} {ks : List TokenKind} {u cs behind : List Char} {form : String}
  {forms : List String} {quote : Char}

/-! ## Lexemes -/

/-- The text is one token of this kind, up to a blank or the end. -/
def IsLexeme (k : TokenKind) (u : List Char) : Prop :=
  ∃ c cs, u = c :: cs ∧ Text.isBlank c = false ∧
    ∀ behind, BlankAhead behind → scanToken c (cs ++ behind) = .ok (k, u.length)

theorem IsLexeme.tokenizes (hu : IsLexeme k u) (hbehind : BlankAhead behind)
    (h : Tokenizes behind ks) : Tokenizes (u ++ behind) (k :: ks) := by
  obtain ⟨c, cs, rfl, hc, hscan⟩ := hu
  have hrest : Tokenizes ((cs ++ behind).drop ((c :: cs).length - 1)) ks := by
    rwa [List.length_cons, Nat.add_sub_cancel, List.drop_left]
  exact tokenizes_token hc (hscan behind hbehind) hrest

theorem isLexeme_int {n : Int64} (hn : 0 ≤ n.toInt) :
    IsLexeme (.int n) (Decimal.ofInt64 n).toList := by
  have hword : Decimal.toInt64? n.toInt.natAbs = some n := by
    rw [Int.natAbs_of_nonneg hn, Decimal.toInt64?_toInt]
  rw [Decimal.ofInt64, Decimal.toList_toString, if_pos hn]
  exact (isLiteral_digits (Decimal.readDigits?_toDigits _) hword).scans

theorem isLexeme_ident {name : String} (h : IsIdentifier name) :
    IsLexeme (.ident name) name.toList := by
  obtain ⟨c, cs, heq, hc, hcs⟩ := h
  refine ⟨c, cs, heq, isBlank_of_isIdentRest (isIdentRest_of_isIdentStart hc),
    fun behind hbehind => ?_⟩
  have hends : behind.takeWhile isIdentRest = [] := by
    cases behind with
    | nil => rfl
    | cons d ds =>
      refine List.takeWhile_cons_of_neg fun hd => ?_
      exact hbehind.notMem (isBlank_of_isIdentRest hd) rfl
  have htaken : (cs ++ behind).takeWhile isIdentRest = cs := by
    rw [List.takeWhile_append_of_pos hcs, hends, List.append_nil]
  rw [scanToken_ident hc, htaken, ← heq, String.ofList_toList]

/-- What could make a longer operator of a symbol is not blank. -/
theorem isLexeme_symbol (h : k.symbol? = some u) : IsLexeme k u := by
  have hahead {behind : List Char} (hbehind : BlankAhead behind) {c : Char}
      (hc : Text.isBlank c = false) : (behind.head? == some c) = false :=
    beq_false_of_ne fun heq => hbehind.notMem hc heq
  cases k <;> cases h
  all_goals
    refine ⟨_, _, rfl, by decide, fun behind hbehind => ?_⟩
    have hstar := hahead hbehind (c := '*') (by decide)
    have hslash := hahead hbehind (c := '/') (by decide)
    have hequals := hahead hbehind (c := '=') (by decide)
    simp [scanToken, operator?, hstar, hslash, hequals]

/-! ## Strings -/

/-- What a character stands for behind a backslash. -/
def unescaped (c : Char) : Char :=
  if c == 'n' then '\n' else if c == 't' then '\t' else c

/-- What may stand between quotes of one kind, and the text that it means. -/
inductive Unescapes (quote : Char) : List Char → List Char → Prop where
  | nil : Unescapes quote [] []
  | escape (c : Char) {body value : List Char} (h : Unescapes quote body value) :
    Unescapes quote ('\\' :: c :: body) (unescaped c :: value)
  | plain {c : Char} (hc : c ∉ ['\\', quote]) {body value : List Char}
    (h : Unescapes quote body value) : Unescapes quote (c :: body) (c :: value)

/-- **A body in front of its quote is read as what it means.** -/
theorem Unescapes.scanString? {body value : List Char} (h : Unescapes quote body value)
    (hquote : quote ∈ ['\'', '"']) (behind : List Char) :
    Expr.scanString? quote (body ++ quote :: behind) = some (value, body.length + 1) := by
  have hother : quote ≠ '\\' := by
    rintro rfl
    exact absurd hquote (by decide)
  induction h with
  | nil => simp [Expr.scanString?, hother]
  | escape c _ ih => simp [Expr.scanString?, ih, unescaped]
  | plain hc _ ih =>
    rw [List.mem_pair, not_or] at hc
    simp [Expr.scanString?, ih, hc.1, hc.2]

theorem escaped_cons (quote c : Char) (cs : List Char) :
    escaped quote (c :: cs) =
      (if c = '\\' ∨ c = quote then ['\\', c] else [c]) ++ escaped quote cs :=
  List.flatMap_cons

/-- **What is escaped means what it was.** -/
theorem unescapes_escaped (hquote : quote ∈ ['\'', '"']) (cs : List Char) :
    Unescapes quote (escaped quote cs) cs := by
  have hother : quote ≠ 'n' ∧ quote ≠ 't' := by
    constructor <;> rintro rfl <;> exact absurd hquote (by decide)
  induction cs with
  | nil => exact .nil
  | cons c cs ih =>
    rw [escaped_cons]
    split
    · rename_i hc
      have hself : unescaped c = c := by
        rcases hc with rfl | rfl
        · rfl
        · simp [unescaped, hother]
      have hescape := Unescapes.escape c ih
      rwa [hself] at hescape
    · rename_i hc
      exact .plain (by simpa using hc) ih

theorem isLexeme_str (hquote : quote ∈ ['\'', '"']) {body value : List Char}
    (h : Unescapes quote body value) :
    IsLexeme (.str (String.ofList value)) (quote :: body ++ [quote]) := by
  have hstart : Text.isBlank quote = false ∧ quote ∉ operatorChars ∧
      (quote == '\'' || quote == '"') = true := by
    rcases List.mem_pair.1 hquote with rfl | rfl <;> decide
  obtain ⟨hblank, hoperator, hopens⟩ := hstart
  refine ⟨quote, body ++ [quote], rfl, hblank, fun behind _ => ?_⟩
  have hscan := h.scanString? hquote behind
  rw [scanToken, operator?_eq_none hoperator, List.append_assoc, List.singleton_append]
  simp [hopens, hscan]

theorem Writes.isLexeme (h : Writes k form) : IsLexeme k form.toList := by
  cases h with
  | int hn => exact isLexeme_int hn
  | str hquote s =>
    have hstr := isLexeme_str hquote (unescapes_escaped hquote s.toList)
    rw [String.toList_ofList]
    rwa [String.ofList_toList] at hstr
  | ident h => exact isLexeme_ident h
  | symbol h =>
    rw [String.toList_ofList]
    exact isLexeme_symbol h

/-! ## Rows -/

theorem tokenizes_forms (h : List.Forall₂ Writes ks forms) :
    Tokenizes ([' '].intercalate (forms.map String.toList)) (ks ++ [.stop]) := by
  induction h with
  | nil => exact tokenizes_blank (by simp)
  | @cons k form ks forms hform hforms ih =>
    cases hforms with
    | nil =>
      have hend : Tokenizes [] [.stop] := tokenizes_blank (by simp)
      simpa using hform.isLexeme.tokenizes (blankAhead_of_forall (by simp)) hend
    | @cons _ next _ others _ _ =>
      have hspace : BlankAhead (' ' :: [' '].intercalate ((next :: others).map String.toList)) :=
        fun c hc => by
          obtain rfl : ' ' = c := Option.some.inj hc
          decide
      have hblank : ∀ c ∈ [' '], Text.isBlank c = true := List.forall_mem_singleton.2 (by decide)
      have hrow := hform.isLexeme.tokenizes hspace (ih.blanks hblank)
      rw [List.map_cons, List.map_cons, List.intercalate_cons_cons, List.append_assoc]
      exact hrow

/-- **A row of tokens, written with single spaces between them, is read back.** -/
theorem tokenize_intercalate {ks : List TokenKind} {forms : List String}
    (h : List.Forall₂ Writes ks forms) :
    (tokenize (" ".intercalate forms)).map kinds = .ok (ks ++ [.stop]) := by
  obtain ⟨tokens, htokens, hkinds⟩ := tokenizes_forms h 0
  have hsource : (" ".intercalate forms).toList = [' '].intercalate (forms.map String.toList) :=
    String.toList_intercalate
  rw [tokenize, hsource, htokens, ← hkinds]
  rfl

/-- The largest number, the shorter and the longer operators side by side, and a string with the
quotes, a backslash and a parenthesis in it. -/
theorem tokenize_intercalate_of_escapes :
    (tokenize (" ".intercalate ["9223372036854775807", "*", "**", "'it\\'s \"\\\\n\" )'", "<",
      "<=", "e_1", ","])).map kinds =
        .ok [.int 9223372036854775807, .star, .doubleStar, .str "it's \"\\n\" )", .lt, .le,
          .ident "e_1", .comma, .stop] := by
  have hint : Writes (.int 9223372036854775807) "9223372036854775807" := by
    have h : Writes _ (Decimal.ofInt64 9223372036854775807) := .int (by decide)
    have hform : Decimal.ofInt64 9223372036854775807 = "9223372036854775807" := by cbv
    rwa [hform] at h
  have hstr : Writes (.str "it's \"\\n\" )") "'it\\'s \"\\\\n\" )'" :=
    @Writes.str '\'' (by decide) "it's \"\\n\" )"
  have hident : IsIdentifier "e_1" :=
    ⟨'e', ['_', '1'], rfl, by decide, by simp [isIdentRest, Text.isAlphanumeric]⟩
  exact tokenize_intercalate <| .cons hint <| .cons (.symbol rfl) <| .cons (.symbol rfl) <|
    .cons hstr <| .cons (.symbol rfl) <| .cons (.symbol rfl) <| .cons (.ident hident) <|
    .cons (.symbol rfl) .nil

end LaunchFile.Expr
