import Mathlib.Data.List.TakeWhile
import LaunchFile.Proofs.Expr.Sound

/-!
# Proofs/Expr/Lexer — where tokens stand in a source

`Scans` says what a text may begin with when the lexer finds a token there, and `Lexed` that a text
consists of such beginnings and blanks between them. Quotes and parentheses stand only where the
tokens have them: every other lexeme is plain (`scans_of_scanToken`).
-/

namespace LaunchFile.Expr

/-! ## Turns of the lexer -/

/-- The tokens that are found in so many turns, each of which takes a blank or a token. -/
def tokenizeTurns : Nat → Nat → List Char → Except EvalError (List Token)
  | 0, offset, _ => .ok [⟨.stop, offset⟩]
  | _ + 1, offset, [] => .ok [⟨.stop, offset⟩]
  | turns + 1, offset, c :: cs =>
    if Text.isBlank c then tokenizeTurns turns (offset + c.utf8Size) cs
    else match scanToken c cs with
      | .error fault => .error (.invalid offset fault)
      | .ok (kind, length) =>
        let taken := c :: cs.take (length - 1)
        match tokenizeTurns turns (offset + Text.Utf8.byteLength taken) (cs.drop (length - 1)) with
        | .error e => .error e
        | .ok tokens => .ok (⟨kind, offset⟩ :: tokens)

/-- **Enough turns find all tokens**: no turn takes less than a character. -/
theorem tokenizeFrom_eq_turns : ∀ {turns : Nat} (offset : Nat) {cs : List Char},
    cs.length ≤ turns → tokenizeFrom offset cs = tokenizeTurns turns offset cs
  | 0, offset, [], _ => by rw [tokenizeFrom, tokenizeTurns]
  | _ + 1, offset, [], _ => by rw [tokenizeFrom, tokenizeTurns]
  | turns + 1, offset, c :: cs, hturns => by
    have hrest : cs.length ≤ turns := Nat.le_of_succ_le_succ hturns
    have hdrop (n : Nat) : (cs.drop n).length ≤ turns :=
      Nat.le_trans (List.length_drop.trans_le (Nat.sub_le ..)) hrest
    rw [tokenizeFrom, tokenizeTurns]
    split
    · exact tokenizeFrom_eq_turns _ hrest
    · cases scanToken c cs with
      | error fault => rfl
      | ok found =>
        obtain ⟨kind, length⟩ := found
        let behind (later : Except EvalError (List Token)) : Except EvalError (List Token) :=
          match later with
          | .error e => .error e
          | .ok tokens => .ok (⟨kind, offset⟩ :: tokens)
        exact congrArg behind (tokenizeFrom_eq_turns _ (hdrop (length - 1)))

/-- **A turn for every character is enough.** -/
theorem tokenize_eq_turns (source : String) :
    tokenize source = tokenizeTurns source.toList.length 0 source.toList :=
  tokenizeFrom_eq_turns 0 (Nat.le_refl _)

/-! ## Plain characters -/

/-- Quotes and parentheses. -/
def marks : List Char :=
  ['\'', '"', '(', ')']

/-- A character that is no mark of an expression. -/
def IsPlain (c : Char) : Prop :=
  c ∉ marks

instance (c : Char) : Decidable (IsPlain c) :=
  inferInstanceAs (Decidable (c ∉ _))

/-- Characters of a kind without marks are plain. -/
theorem isPlain_of {p : Char → Bool} (hp : marks.any p = false) {c : Char}
    (hc : p c = true) : IsPlain c := fun hmem =>
  List.any_eq_false.1 hp c hmem hc

/-! ## Numbers -/

/-- A lexeme of so many characters, all of them plain, begins the text. -/
def BeginsPlain (cs : List Char) (length : Nat) : Prop :=
  ∃ lexeme rest, cs = lexeme ++ rest ∧ lexeme.length = length ∧ ∀ c ∈ lexeme, IsPlain c

theorem beginsPlain_takeWhile {p : Char → Bool} (hp : marks.any p = false)
    (cs : List Char) : BeginsPlain cs (cs.takeWhile p).length :=
  ⟨_, _, List.takeWhile_append_dropWhile.symm, rfl, fun _ hc =>
    isPlain_of hp (List.mem_takeWhile_imp hc)⟩

/-- Digits are plain. -/
theorem beginsPlain_digits (cs : List Char) :
    BeginsPlain cs (cs.takeWhile Char.isDigit).length :=
  beginsPlain_takeWhile (by decide) cs

/-- Plain characters may be taken one part after another. -/
theorem BeginsPlain.append {cs : List Char} {first second : Nat} (h : BeginsPlain cs first)
    (hrest : BeginsPlain (cs.drop first) second) : BeginsPlain cs (first + second) := by
  obtain ⟨front, rest, rfl, rfl, hfront⟩ := h
  rw [List.drop_left] at hrest
  obtain ⟨back, behind, rfl, rfl, hback⟩ := hrest
  exact ⟨front ++ back, behind, by simp, by simp, fun c hc =>
    (List.mem_append.1 hc).elim (hfront c) (hback c)⟩

theorem BeginsPlain.cons {c : Char} (hc : IsPlain c) {cs : List Char} {length : Nat}
    (h : BeginsPlain cs length) : BeginsPlain (c :: cs) (length + 1) := by
  obtain ⟨lexeme, rest, rfl, rfl, hlexeme⟩ := h
  exact ⟨c :: lexeme, rest, rfl, rfl, List.forall_mem_cons.2 ⟨hc, hlexeme⟩⟩

theorem beginsPlain_zero (cs : List Char) : BeginsPlain cs 0 :=
  ⟨[], cs, rfl, rfl, nofun⟩

/-- A fraction is plain. -/
theorem beginsPlain_scanFraction (cs : List Char) : BeginsPlain cs (scanFraction cs).length := by
  unfold scanFraction
  split
  · exact (beginsPlain_digits _).cons (by decide)
  · exact beginsPlain_zero cs

/-- The sign of an exponent is plain, and cut off the front. -/
theorem beginsPlain_exponentSign (cs : List Char) :
    BeginsPlain cs (exponentSign cs).1.length ∧
      cs.drop (exponentSign cs).1.length = (exponentSign cs).2 := by
  unfold exponentSign
  split
  · exact ⟨(beginsPlain_zero _).cons (by decide), rfl⟩
  · exact ⟨(beginsPlain_zero _).cons (by decide), rfl⟩
  · exact ⟨beginsPlain_zero _, rfl⟩

/-- An exponent is plain. -/
theorem beginsPlain_scanExponent (cs : List Char) : BeginsPlain cs (scanExponent cs).length := by
  unfold scanExponent
  split
  · exact beginsPlain_zero _
  · rename_i c cs
    split
    · rename_i hc
      obtain ⟨hsign, hrest⟩ := beginsPlain_exponentSign cs
      simp only
      split
      · exact beginsPlain_zero _
      · have hplain : IsPlain c := by
          rcases Bool.or_eq_true _ _ ▸ hc with hc | hc <;> rw [eq_of_beq hc] <;> decide
        have hdigits := beginsPlain_digits (exponentSign cs).2
        rw [← hrest] at hdigits
        have hexponent := (hsign.append hdigits).cons hplain
        rw [hrest] at hexponent
        simpa using hexponent
    · exact beginsPlain_zero _

/-- A number is a plain lexeme. -/
theorem scanNumber_eq_ok {cs : List Char} {k : TokenKind} {length : Nat}
    (h : scanNumber cs = .ok (k, length)) : k.IsInner ∧ BeginsPlain cs length ∧
      (length = 0 → cs.takeWhile Char.isDigit = [] ∧ scanFraction cs = []) := by
  have hwhole := (beginsPlain_digits cs).append (beginsPlain_scanFraction _)
  have htext := hwhole.append (beginsPlain_scanExponent _)
  rw [← List.length_append, ← List.length_append] at htext
  have hempty : ∀ {fraction exponent : List Char},
      fraction = scanFraction (cs.drop (cs.takeWhile Char.isDigit).length) →
      (cs.takeWhile Char.isDigit ++ fraction ++ exponent).length = 0 →
      cs.takeWhile Char.isDigit = [] ∧ scanFraction cs = [] := by
    rintro fraction exponent rfl hlength
    have hnil := List.eq_nil_of_length_eq_zero hlength
    rw [List.append_eq_nil_iff, List.append_eq_nil_iff] at hnil
    obtain ⟨⟨hdigits, hfraction⟩, -⟩ := hnil
    rw [hdigits] at hfraction
    exact ⟨hdigits, hfraction⟩
  unfold scanNumber at h
  simp only at h
  split at h
  · split at h <;> cases h
    exact ⟨⟨nofun, rfl, rfl⟩, by simpa using htext, hempty rfl⟩
  · split at h <;> cases h
    exact ⟨⟨nofun, rfl, rfl⟩, by simpa using htext, hempty rfl⟩

/-! ## Tokens -/

/-- What a text begins with, the token for it and what stands behind it. -/
inductive Scans : List Char → TokenKind → List Char → Prop where
  | opening (rest : List Char) : Scans ('(' :: rest) .leftParen rest
  | closing (rest : List Char) : Scans (')' :: rest) .rightParen rest
  | string {quote : Char} {cs value : List Char} {length : Nat} (hquote : quote ∈ ['\'', '"'])
    (h : scanString? quote cs = some (value, length)) :
    Scans (quote :: cs) (.str (String.ofList value)) (cs.drop length)
  | plain {lexeme : List Char} {k : TokenKind} (hlexeme : ∀ c ∈ lexeme, IsPlain c) (hk : k.IsInner)
    (rest : List Char) : Scans (lexeme ++ rest) k rest

/-- A scanned token is no end. -/
theorem Scans.ne_stop {cs rest : List Char} {k : TokenKind} (h : Scans cs k rest) : k ≠ .stop := by
  cases h with
  | plain _ hk => exact hk.ne_stop
  | _ => nofun

/-- A token of plain characters is scanned. -/
theorem BeginsPlain.scans {c : Char} {cs : List Char} {k : TokenKind} (hk : k.IsInner)
    {length : Nat} (h : BeginsPlain (c :: cs) (length + 1)) :
    Scans (c :: cs) k (cs.drop length) := by
  obtain ⟨lexeme, rest, heq, hlength, hlexeme⟩ := h
  have hdrop : cs.drop length = rest := by
    rw [← List.drop_succ_cons (a := c), heq, ← hlength, List.drop_left]
  rw [hdrop, heq]
  exact .plain hlexeme hk rest

/-- An operator is scanned. -/
theorem scans_of_operator? {c : Char} {cs : List Char} {k : TokenKind} {length : Nat}
    (h : operator? c cs.head? = some (k, length)) : Scans (c :: cs) k (cs.drop (length - 1)) := by
  have one {kind : TokenKind} (hc : IsPlain c) (hk : kind.IsInner) :
      Scans (c :: cs) kind (cs.drop (1 - 1)) :=
    ((beginsPlain_zero cs).cons hc).scans hk
  have two {kind : TokenKind} {next : Char} (hhead : (cs.head? == some next) = true)
      (hc : IsPlain c) (hnext : IsPlain next) (hk : kind.IsInner) :
      Scans (c :: cs) kind (cs.drop (2 - 1)) := by
    obtain ⟨tail, rfl⟩ := List.head?_eq_some_iff.1 (eq_of_beq hhead)
    exact (((beginsPlain_zero tail).cons hnext).cons hc).scans hk
  unfold operator? at h
  split at h <;> (try split at h) <;> cases h
  all_goals first
    | exact .opening cs
    | exact .closing cs
    | exact one (by decide) ⟨nofun, rfl, rfl⟩
    | exact two ‹_› (by decide) (by decide) ⟨nofun, rfl, rfl⟩

/-- **A token stands where the lexer finds one.** -/
theorem scans_of_scanToken {c : Char} {cs : List Char} {k : TokenKind} {length : Nat}
    (h : scanToken c cs = .ok (k, length)) : Scans (c :: cs) k (cs.drop (length - 1)) := by
  unfold scanToken at h
  split at h
  · rename_i found hoperator
    cases h
    exact scans_of_operator? hoperator
  split at h
  · rename_i hquote
    split at h <;> cases h
    rename_i value length hvalue
    exact .string (by simpa using hquote) hvalue
  split at h
  · rename_i hstart
    obtain ⟨hk, hbegins, hempty⟩ := scanNumber_eq_ok h
    cases length with
    | zero =>
      obtain ⟨hdigits, hfraction⟩ := hempty rfl
      rcases Bool.or_eq_true _ _ ▸ hstart with hdigit | hpoint
      · rw [List.takeWhile_cons_of_pos hdigit] at hdigits
        cases hdigits
      · obtain rfl : c = '.' := eq_of_beq (Bool.and_eq_true _ _ ▸ hpoint).1
        cases hfraction
    | succ length => exact hbegins.scans hk
  split at h
  · rename_i hstart
    cases h
    have hplain : IsPlain c := isPlain_of (by decide) hstart
    exact ((beginsPlain_takeWhile (by decide) cs).cons hplain).scans (.ident _)
  · cases h

/-! ## Whole sources -/

/-- A text of tokens and blanks, with the kinds of the tokens. -/
inductive Lexed : List Char → List TokenKind → Prop where
  | stop : Lexed [] [.stop]
  | blank {c : Char} {cs : List Char} {ks : List TokenKind} (hc : Text.isBlank c = true)
    (hrest : Lexed cs ks) : Lexed (c :: cs) ks
  | token {c : Char} {cs rest : List Char} {k : TokenKind} {ks : List TokenKind}
    (hc : Text.isBlank c = false) (hscan : Scans (c :: cs) k rest) (hrest : Lexed rest ks) :
    Lexed (c :: cs) (k :: ks)

/-- **What is tokenized was scanned token by token.** The induction follows the tokenizer. -/
theorem lexed_of_tokenizeFrom {offset : Nat} {cs : List Char} {tokens : List Token}
    (h : tokenizeFrom offset cs = .ok tokens) : Lexed cs (kinds tokens) := by
  fun_induction tokenizeFrom offset cs generalizing tokens with
  | case1 =>
    cases h
    exact .stop
  | case2 offset c cs hblank ih => exact .blank hblank (ih h)
  | case3 => cases h
  | case4 => cases h
  | case5 offset c cs hblank k length hscan taken rest hrest =>
    rename_i ih
    cases h
    exact .token (by simpa using hblank) (scans_of_scanToken hscan) (ih hrest)

/-- The kinds of a source end with the end of the source, which stands nowhere else. -/
theorem Lexed.ends {cs : List Char} {ks : List TokenKind} (h : Lexed cs ks) :
    ∃ row, ks = row ++ [.stop] ∧ TokenKind.stop ∉ row := by
  induction h with
  | stop => exact ⟨[], rfl, nofun⟩
  | blank _ _ ih => exact ih
  | token _ hscan _ ih =>
    obtain ⟨row, rfl, hrow⟩ := ih
    exact ⟨_ :: row, rfl, by simp [hrow, hscan.ne_stop.symm]⟩

/-- A source with a token is not blank. -/
theorem Lexed.exists_not_blank {cs : List Char} {k : TokenKind} {ks : List TokenKind}
    (h : Lexed cs (k :: ks)) (hk : k ≠ .stop) : ∃ c ∈ cs, Text.isBlank c = false := by
  generalize hrow : k :: ks = row at h
  induction h with
  | stop =>
    cases hrow
    exact absurd rfl hk
  | blank _ _ ih =>
    obtain ⟨c, hc, hnot⟩ := ih hrow
    exact ⟨c, List.mem_cons_of_mem _ hc, hnot⟩
  | token hc _ _ => exact ⟨_, List.mem_cons_self, hc⟩

end LaunchFile.Expr
