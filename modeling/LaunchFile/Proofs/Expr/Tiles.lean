import Mathlib.Data.String.Basic
import LaunchFile.Proofs.Expr.Lexer
import LaunchFile.Proofs.Expr.Spelling

/-!
# Proofs/Expr/Tiles — the tokens of a source lie side by side in it

A source is blanks, and then for each token what spells it and the blanks behind that. The lexer
divides it so, and the offset of a token is the number of bytes in front of it (`exists_tiles`).
For a whole source this is said of the text between two offsets (`Spans`): from every token to the
next one there is the spelling of that token and nothing but blanks behind it (`tokenize_tiling`).
-/

namespace LaunchFile.Expr

open Text.Utf8

theorem byteLength_eq_utf8Len (cs : List Char) : byteLength cs = String.utf8Len cs := by
  have hfold (n : Nat) : cs.foldl (fun n c => n + c.utf8Size) n = n + String.utf8Len cs := by
    induction cs generalizing n with
    | nil => rfl
    | cons c cs ih =>
      rw [List.foldl_cons, ih, String.utf8Len_cons]
      omega
  rw [byteLength, hfold, Nat.zero_add]

/-- Nothing but blanks. -/
def IsGap (cs : List Char) : Prop :=
  ∀ c ∈ cs, Text.isBlank c = true

/-- There may be no blanks at all. -/
theorem isGap_nil : IsGap [] :=
  List.forall_mem_nil _

/-! ## Division into tokens -/

/-- A text that begins so many bytes behind the start of a source, divided into what spells each of
the tokens and the blanks behind it. -/
inductive Tiles : Nat → List Char → List Token → Prop where
  | stop (offset : Nat) : Tiles offset [] [⟨.stop, offset⟩]
  | token {offset : Nat} {k : TokenKind} {u gap cs : List Char} {tokens : List Token}
    (hu : Spells k u) (hgap : IsGap gap)
    (h : Tiles (offset + String.utf8Len (u ++ gap)) cs tokens) :
    Tiles offset (u ++ gap ++ cs) (⟨k, offset⟩ :: tokens)

variable {offset : Nat} {cs before : List Char} {tokens : List Token} {token next : Token}

/-- **The lexer divides a text**, behind the blanks at its start. -/
theorem exists_tiles (h : tokenizeFrom offset cs = .ok tokens) :
    ∃ gap rest, cs = gap ++ rest ∧ IsGap gap ∧
      Tiles (offset + String.utf8Len gap) rest tokens := by
  fun_induction tokenizeFrom offset cs generalizing tokens with
  | case1 offset =>
    cases h
    exact ⟨[], [], rfl, isGap_nil, .stop offset⟩
  | case2 offset c cs hblank ih =>
    obtain ⟨gap, rest, rfl, hgap, htiles⟩ := ih h
    have hbytes : offset + c.utf8Size + String.utf8Len gap =
        offset + String.utf8Len (c :: gap) := by
      rw [String.utf8Len_cons]
      omega
    rw [hbytes] at htiles
    exact ⟨c :: gap, rest, rfl, List.forall_mem_cons.2 ⟨hblank, hgap⟩, htiles⟩
  | case3 => cases h
  | case4 => cases h
  | case5 offset c cs hblank k length hscan taken rest hrest =>
    rename_i ih
    cases h
    obtain ⟨u, behind, hsplit, rfl, hu⟩ := begins_of_scanToken hscan
    obtain ⟨d, ds, rfl⟩ := List.exists_cons_of_ne_nil hu.ne_nil
    obtain ⟨rfl, hcs⟩ := List.cons.inj hsplit
    obtain ⟨gap, last, hlast, hgap, htiles⟩ := ih hrest
    have htaken : taken = c :: ds := by simp [taken, hcs]
    have hbehind : behind = gap ++ last := by simpa [hcs] using hlast
    rw [htaken, byteLength_eq_utf8Len, Nat.add_assoc, ← String.utf8Len_append] at htiles
    refine ⟨[], c :: cs, rfl, isGap_nil, ?_⟩
    have htile := Tiles.token hu hgap htiles
    rwa [hsplit, hbehind, ← List.append_assoc]

/-! ## What a division says -/

theorem Tiles.offsetOf_eq (h : Tiles offset cs tokens) : offsetOf tokens = offset := by
  cases h <;> rfl

theorem Tiles.offset_le (h : Tiles offset cs tokens) : ∀ token ∈ tokens, offset ≤ token.offset := by
  induction h with
  | stop offset => simp
  | token hu hgap h ih =>
    refine List.forall_mem_cons.2 ⟨le_rfl, fun token hmem => ?_⟩
    exact (Nat.le_add_right _ _).trans (ih token hmem)

/-- What spells a token takes bytes. -/
theorem Tiles.increasing (h : Tiles offset cs tokens) :
    tokens.Pairwise fun token next => token.offset < next.offset := by
  induction h with
  | stop => exact List.pairwise_singleton _ _
  | @token offset k u gap cs tokens hu hgap h ih =>
    refine List.pairwise_cons.2 ⟨fun next hnext => ?_, ih⟩
    have hpos : 0 < String.utf8Len (u ++ gap) := Nat.pos_of_ne_zero fun hzero =>
      List.append_ne_nil_of_left_ne_nil hu.ne_nil gap (String.utf8Len_eq_zero.1 hzero)
    exact (Nat.lt_add_of_pos_right hpos).trans_le (h.offset_le next hnext)

theorem Tiles.ends (h : Tiles offset cs tokens) :
    ∃ row, tokens = row ++ [⟨.stop, offset + String.utf8Len cs⟩] ∧
      ∀ token ∈ row, token.kind ≠ .stop := by
  induction h with
  | stop offset => exact ⟨[], rfl, nofun⟩
  | @token offset k u gap cs tokens hu hgap h ih =>
    obtain ⟨row, rfl, hrow⟩ := ih
    refine ⟨⟨k, offset⟩ :: row, ?_, List.forall_mem_cons.2 ⟨hu.ne_stop, hrow⟩⟩
    rw [Nat.add_assoc, ← String.utf8Len_append, List.cons_append]

/-- The characters of the source between two offsets, which are numbers of bytes. -/
def Spans (source : String) (start stop : Nat) (part : List Char) : Prop :=
  ∃ before behind, source = before ++ String.ofList part ++ behind ∧
    before.utf8ByteSize = start ∧ (before ++ String.ofList part).utf8ByteSize = stop

theorem spans_of_append {source : String} {part behind : List Char}
    (h : source.toList = before ++ (part ++ behind)) :
    Spans source (String.utf8Len before) (String.utf8Len before + String.utf8Len part) part := by
  refine ⟨String.ofList before, String.ofList behind, ?_, String.utf8ByteSize_ofList before, ?_⟩
  · rw [← String.ofList_append, ← String.ofList_append, List.append_assoc, ← h,
      String.ofList_toList]
  · rw [String.utf8ByteSize_append, String.utf8ByteSize_ofList, String.utf8ByteSize_ofList]

/-- From a token to the next one there is its spelling, and blanks. -/
theorem Tiles.spans {source : String} (h : Tiles offset cs tokens)
    (hoffset : offset = String.utf8Len before) (hsource : source.toList = before ++ cs)
    (hnext : [token, next] <:+: tokens) :
    ∃ u gap, Spans source token.offset next.offset (u ++ gap) ∧ Spells token.kind u ∧
      IsGap gap := by
  induction h generalizing before with
  | stop offset => exact absurd hnext.length_le (by simp)
  | @token offset k u gap cs tokens hu hgap h ih =>
    rcases List.infix_cons_iff.1 hnext with hfirst | hlater
    · obtain ⟨rfl, htokens⟩ := List.cons_prefix_cons.1 hfirst
      obtain ⟨rest, rfl⟩ := htokens
      have hplace : next.offset = offset + String.utf8Len (u ++ gap) := h.offsetOf_eq
      rw [hplace, hoffset]
      exact ⟨u, gap, spans_of_append hsource, hu, hgap⟩
    · have hbytes : offset + String.utf8Len (u ++ gap) =
          String.utf8Len (before ++ (u ++ gap)) := by
        rw [hoffset, ← String.utf8Len_append]
      exact ih hbytes (by rw [hsource, List.append_assoc before]) hlater

/-! ## Whole sources -/

/-- The tokens lie side by side in the source. -/
structure Tiling (source : String) (tokens : List Token) : Prop where
  ends : ∃ row, tokens = row ++ [⟨.stop, source.utf8ByteSize⟩] ∧
    ∀ token ∈ row, token.kind ≠ .stop
  increasing : tokens.Pairwise fun token next => token.offset < next.offset
  lead : ∃ gap, Spans source 0 (offsetOf tokens) gap ∧ IsGap gap
  tile : ∀ token next, [token, next] <:+: tokens →
    ∃ u gap, Spans source token.offset next.offset (u ++ gap) ∧ u ≠ [] ∧
      (∀ k, Spells k u ↔ k = token.kind) ∧ IsGap gap

/-- **The tokens tile the source.** -/
theorem tokenize_tiling {source : String} {tokens : List Token}
    (h : tokenize source = .ok tokens) : Tiling source tokens := by
  obtain ⟨gap, rest, hsource, hgap, htiles⟩ := exists_tiles h
  rw [Nat.zero_add] at htiles
  have hsize : source.utf8ByteSize = String.utf8Len gap + String.utf8Len rest := by
    rw [← String.utf8Len_append, ← hsource, ← String.utf8ByteSize_ofList, String.ofList_toList]
  have hlead : source.toList = [] ++ (gap ++ rest) := hsource
  refine ⟨hsize ▸ htiles.ends, htiles.increasing, ⟨gap, ?_, hgap⟩, fun token next hnext => ?_⟩
  · have hspans := spans_of_append hlead
    rwa [String.utf8Len_nil, Nat.zero_add, ← htiles.offsetOf_eq] at hspans
  · obtain ⟨u, behind, hspans, hu, hbehind⟩ := htiles.spans rfl hsource hnext
    exact ⟨u, behind, hspans, hu.ne_nil, fun k => ⟨fun hk => hk.kind_eq hu, fun hk => hk ▸ hu⟩,
      hbehind⟩

/-- Two bytes for one character in a string, a letter that is no power of ten, and blanks around. -/
theorem tokenize_tiling_umlaut :
    let tokens : List Token := [⟨.str "ü", 1⟩, ⟨.star, 6⟩, ⟨.int 2, 8⟩, ⟨.ident "e", 9⟩, ⟨.le, 11⟩,
      ⟨.int 3, 14⟩, ⟨.stop, 16⟩]
    tokenize " 'ü' * 2e <= 3 " = .ok tokens ∧ Tiling " 'ü' * 2e <= 3 " tokens := by
  intro tokens
  have hlex : tokenize " 'ü' * 2e <= 3 " = .ok tokens :=
    (tokenize_eq_turns _).trans rfl
  exact ⟨hlex, tokenize_tiling hlex⟩

end LaunchFile.Expr
