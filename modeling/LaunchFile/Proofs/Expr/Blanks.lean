import LaunchFile.Proofs.Expr.Places
import LaunchFile.Proofs.Expr.Variable

/-!
# Proofs/Expr/Blanks — blanks at the ends of a source

Blanks in front of a source only move its tokens, and blanks behind it are part of none of them: no
lexeme goes on with a blank (`scanToken_of_append`), and inside a string a blank does not stand in
for the closing quote. So an accepted source without its blanks has the same tree (`parse_trim`).
-/

namespace LaunchFile.Expr

/-! ## Lexemes in front of blanks -/

variable {cs behind : List Char} {c quote : Char}

theorem takeWhile_append_of_blankAhead {p : Char → Bool}
    (hp : ∀ c, p c = true → Text.isBlank c = false) (h : BlankAhead behind) (cs : List Char) :
    (cs ++ behind).takeWhile p = cs.takeWhile p := by
  have hnone : behind.takeWhile p = [] := by
    cases behind with
    | nil => rfl
    | cons d ds => exact List.takeWhile_cons_of_neg fun hd => h.notMem (hp d hd) rfl
  rw [List.takeWhile_append, hnone, List.append_nil]
  split
  · rename_i hall
    exact ((List.takeWhile_prefix p).eq_of_length hall).symm
  · rfl

theorem takeWhile_isDigit_append (h : BlankAhead behind) (cs : List Char) :
    (cs ++ behind).takeWhile Char.isDigit = cs.takeWhile Char.isDigit :=
  takeWhile_append_of_blankAhead (fun _ => isBlank_of_isDigit) h cs

theorem scanFraction_append_blanks (h : BlankAhead behind) (cs : List Char) :
    scanFraction (cs ++ behind) = scanFraction cs := by
  cases cs with
  | nil => exact scanFraction_append .none .none h
  | cons c cs =>
    by_cases hc : c = '.'
    · subst hc
      rw [List.cons_append, scanFraction, scanFraction, takeWhile_isDigit_append h]
    · simp [scanFraction, hc]

theorem exponentSign_append_blanks (h : BlankAhead behind) (cs : List Char) :
    exponentSign (cs ++ behind) = ((exponentSign cs).1, (exponentSign cs).2 ++ behind) := by
  cases cs with
  | nil =>
    have hplus : '+' ∉ behind.head? := h.notMem (by decide)
    have hminus : '-' ∉ behind.head? := h.notMem (by decide)
    cases behind with
    | nil => rfl
    | cons d ds => simp_all [exponentSign]
  | cons c cs =>
    by_cases hplus : c = '+'
    · subst hplus
      rfl
    · by_cases hminus : c = '-'
      · subst hminus
        rfl
      · simp [exponentSign, hplus, hminus]

theorem scanExponent_append_blanks (h : BlankAhead behind) (cs : List Char) :
    scanExponent (cs ++ behind) = scanExponent cs := by
  cases cs with
  | nil => exact scanExponent_append .none h
  | cons c cs =>
    rw [List.cons_append, scanExponent, scanExponent, exponentSign_append_blanks h]
    simp only [takeWhile_isDigit_append h]

theorem BeginsPlain.length_le {length : Nat} (h : BeginsPlain cs length) : length ≤ cs.length := by
  obtain ⟨lexeme, rest, rfl, rfl, -⟩ := h
  simp

theorem scanNumber_append_blanks (h : BlankAhead behind) (cs : List Char) :
    scanNumber (cs ++ behind) = scanNumber cs := by
  have hwhole := beginsPlain_digits cs
  have hboth := hwhole.append (beginsPlain_scanFraction _)
  rw [scanNumber, scanNumber]
  simp only [takeWhile_isDigit_append h, List.drop_append_of_le_length hwhole.length_le,
    scanFraction_append_blanks h, List.drop_append_of_le_length hboth.length_le,
    scanExponent_append_blanks h]

/-- Nothing that opens a quote is closed by blanks. -/
theorem scanString?_blanks (hquote : Text.isBlank quote = false)
    (h : ∀ c ∈ behind, Text.isBlank c = true) : scanString? quote behind = none := by
  fun_induction scanString? quote behind with
  | case1 => rfl
  | case2 => rfl
  | case3 c cs =>
    have hslash := h '\\' List.mem_cons_self
    exact absurd hslash (by decide)
  | case4 c cs _ _ hc =>
    have hblank := h c List.mem_cons_self
    rw [eq_of_beq hc, hquote] at hblank
    cases hblank
  | case5 c cs _ _ _ ih => rw [ih fun d hd => h d (List.mem_cons_of_mem c hd), Option.map_none]

theorem scanString?_cons (hc : c ≠ '\\') (cs : List Char) : scanString? quote (c :: cs) =
    if c == quote then some ([], 1)
    else (scanString? quote cs).map fun (value, length) => (c :: value, length + 1) := by
  rw [scanString?]
  · exact fun heq => absurd heq hc
  · exact fun _ _ heq => absurd heq hc

/-- A string that ends in front of blanks ends without them. -/
theorem scanString?_of_append (hquote : Text.isBlank quote = false)
    (h : ∀ c ∈ behind, Text.isBlank c = true) {value : List Char} {length : Nat}
    (hscan : scanString? quote (cs ++ behind) = some (value, length)) :
    scanString? quote cs = some (value, length) ∧ length ≤ cs.length := by
  fun_induction scanString? quote cs generalizing value length with
  | case1 =>
    rw [List.nil_append, scanString?_blanks hquote h] at hscan
    cases hscan
  | case2 =>
    cases behind with
    | nil => cases hscan
    | cons d ds =>
      have hnone := scanString?_blanks hquote fun c hc => h c (List.mem_cons_of_mem d hc)
      rw [List.singleton_append, scanString?, hnone] at hscan
      cases hscan
  | case3 c cs ih =>
    rw [List.cons_append, List.cons_append, scanString?] at hscan
    obtain ⟨⟨others, shorter⟩, hrest, heq⟩ := Option.map_eq_some_iff.1 hscan
    obtain ⟨hsame, hle⟩ := ih hrest
    cases heq
    exact ⟨by rw [hsame]; rfl, by simpa using hle⟩
  | case4 c cs hlast hpair hc =>
    have hplain : c ≠ '\\' := by cases cs <;> simp_all
    rw [List.cons_append, scanString?_cons hplain, if_pos hc] at hscan
    cases hscan
    exact ⟨rfl, by simp⟩
  | case5 c cs hlast hpair hc ih =>
    have hplain : c ≠ '\\' := by cases cs <;> simp_all
    rw [List.cons_append, scanString?_cons hplain, if_neg hc] at hscan
    obtain ⟨⟨others, shorter⟩, hrest, heq⟩ := Option.map_eq_some_iff.1 hscan
    obtain ⟨hsame, hle⟩ := ih hrest
    cases heq
    exact ⟨by rw [hsame]; rfl, by simpa using hle⟩

/-! ## Blanks at the ends of a source -/

theorem operator?_head?_append (h : BlankAhead behind) (c : Char) (cs : List Char) :
    operator? c (cs ++ behind).head? = operator? c cs.head? := by
  cases cs with
  | cons d ds => rfl
  | nil =>
    have hahead {c : Char} (hc : Text.isBlank c = false) : (behind.head? == some c) = false :=
      beq_false_of_ne fun heq => h.notMem hc heq
    have hstar := hahead (c := '*') (by decide)
    have hslash := hahead (c := '/') (by decide)
    have hequals := hahead (c := '=') (by decide)
    unfold operator?
    split <;> simp [hstar, hslash, hequals]

theorem length_le_of_operator? {k : TokenKind} {length : Nat}
    (h : operator? c cs.head? = some (k, length)) : length ≤ cs.length + 1 := by
  have hcons {d : Char} (hd : (cs.head? == some d) = true) : 2 ≤ cs.length + 1 := by
    obtain ⟨ds, rfl⟩ := List.head?_eq_some_iff.1 (eq_of_beq hd)
    simp
  unfold operator? at h
  split at h <;> (try split at h) <;> cases h
  all_goals first
    | exact Nat.le_add_left 1 _
    | exact hcons ‹_›

theorem any_isDigit_head?_append (h : BlankAhead behind) (cs : List Char) :
    (cs ++ behind).head?.any Char.isDigit = cs.head?.any Char.isDigit := by
  cases cs with
  | cons d ds => rfl
  | nil =>
    rw [List.nil_append, List.head?_nil, Option.any_none, Option.any_eq_false]
    exact fun d hd => by simp [h.noDigit d hd]

/-- **A token in front of blanks is the token without them.** -/
theorem scanToken_of_append (h : ∀ c ∈ behind, Text.isBlank c = true) {k : TokenKind}
    {length : Nat} (hscan : scanToken c (cs ++ behind) = .ok (k, length)) :
    scanToken c cs = .ok (k, length) ∧ length ≤ cs.length + 1 := by
  have hahead := blankAhead_of_forall h
  rw [scanToken, operator?_head?_append hahead] at hscan
  rw [scanToken]
  cases hoperator : operator? c cs.head? with
  | some found =>
    rw [hoperator] at hscan
    cases hscan
    exact ⟨rfl, length_le_of_operator? hoperator⟩
  | none =>
    rw [hoperator] at hscan
    simp only [any_isDigit_head?_append hahead] at hscan ⊢
    split_ifs at hscan ⊢ with hquote hnumber hident
    · have hblank : Text.isBlank c = false := by
        rcases Bool.or_eq_true _ _ ▸ hquote with heq | heq <;> rw [eq_of_beq heq] <;> decide
      split at hscan <;> cases hscan
      rename_i value length hvalue
      obtain ⟨hsame, hle⟩ := scanString?_of_append hblank h hvalue
      simp [hsame, hle]
    · rw [← List.cons_append, scanNumber_append_blanks hahead] at hscan
      exact ⟨hscan, (scanNumber_eq_ok hscan).2.1.length_le⟩
    · rw [takeWhile_append_of_blankAhead (fun _ => isBlank_of_isIdentRest) hahead] at hscan
      cases hscan
      have hle := (List.takeWhile_prefix isIdentRest (l := cs)).length_le
      simp [hle]

theorem exists_of_tokenizeFrom_cons (hc : Text.isBlank c = false) {offset : Nat}
    {tokens : List Token} (h : tokenizeFrom offset (c :: cs) = .ok tokens) :
    ∃ k length offset' rest, scanToken c cs = .ok (k, length) ∧
      tokenizeFrom offset' (cs.drop (length - 1)) = .ok rest ∧ kinds tokens = k :: kinds rest := by
  rw [tokenizeFrom, if_neg (ne_true_of_eq_false hc)] at h
  cases hscan : scanToken c cs with
  | error fault =>
    simp only [hscan] at h
    cases h
  | ok found =>
    simp only [hscan] at h
    split at h <;> cases h
    rename_i rest hrest
    exact ⟨found.1, found.2, _, rest, rfl, hrest, rfl⟩

/-- The tokens of a text with blanks behind it are its own, wherever it stands. -/
theorem tokenizes_of_append (h : ∀ c ∈ behind, Text.isBlank c = true) :
    ∀ (cs : List Char) {offset : Nat} {tokens : List Token},
      tokenizeFrom offset (cs ++ behind) = .ok tokens → Tokenizes cs (kinds tokens)
  | [], offset, tokens, hrun => by
    obtain ⟨_, htokens, hkinds⟩ := tokenizes_blank h offset
    cases htokens.symm.trans hrun
    exact hkinds ▸ tokenizes_blank nofun
  | c :: cs, offset, tokens, hrun => by
    cases hc : Text.isBlank c with
    | true =>
      rw [List.cons_append, tokenizeFrom, if_pos hc] at hrun
      have hfirst : ∀ d ∈ [c], Text.isBlank d = true := List.forall_mem_singleton.2 hc
      exact (tokenizes_of_append h cs hrun).blanks hfirst
    | false =>
      rw [List.cons_append] at hrun
      obtain ⟨k, length, _, rest, hscan, hrest, hkinds⟩ := exists_of_tokenizeFrom_cons hc hrun
      obtain ⟨hsame, hle⟩ := scanToken_of_append h hscan
      rw [List.drop_append_of_le_length (by omega)] at hrest
      rw [hkinds]
      exact tokenizes_token hc hsame (tokenizes_of_append h (cs.drop (length - 1)) hrest)
termination_by cs => cs.length

/-- **Blanks at its ends make no difference** to an accepted source. -/
theorem parse_trim {source : String} {tree : Tree} (h : parse source = .ok tree) :
    parse (Text.trim source) = .ok tree := by
  obtain ⟨tokens, hlex, hparse⟩ := exists_tokens_of_parse h
  obtain ⟨before, behind, heq, hbefore, hbehind⟩ := Text.exists_trimChars source.toList
  obtain ⟨offset, hmoved⟩ := tokenizeFrom_blanks hbefore (Text.trimChars source.toList ++ behind) 0
  rw [tokenize, heq, hmoved] at hlex
  obtain ⟨trimmed, htrimmed, hkinds⟩ := tokenizes_of_append hbehind _ hlex 0
  have hsingle : Text.occurs ['_', '_'] source.toList = false := by
    by_contra hdouble
    rw [parse, if_pos (by simpa using hdouble)] at h
    cases h
  have htrim := Text.occurs_eq_false_of_infix hsingle (Text.trimChars_infix source.toList)
  rw [parse, tokenize, Text.trim, String.toList_ofList, if_neg (ne_true_of_eq_false htrim),
    htrimmed]
  exact parseTokens_congr hkinds hparse

end LaunchFile.Expr
