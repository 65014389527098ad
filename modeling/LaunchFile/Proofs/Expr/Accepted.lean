import LaunchFile.Proofs.Expr.Lexer

/-!
# Proofs/Expr/Accepted — which sources are expressions

A source that is accepted is an expression of the grammar, and its tree is the one with which the
grammar yields it (`derives_of_parseTokens`). The grammar is the one where the function of a call
may stand in parentheses; with names for functions and nothing else, just those sources are left in
which no parenthesis opens directly behind one that closes.
-/

namespace LaunchFile.Expr

/-- The tokens of a source are those of its row, and `stop`. -/
theorem kinds_dropLast {source : String} {tokens : List Token} (h : tokenize source = .ok tokens) :
    kinds tokens = kinds tokens.dropLast ++ [.stop] ∧ TokenKind.stop ∉ kinds tokens.dropLast := by
  obtain ⟨row, hrow, hstop⟩ := (lexed_of_tokenizeFrom h).ends
  have hfront : kinds tokens.dropLast = row := by
    rw [kinds, List.map_dropLast, ← kinds, hrow, List.dropLast_concat]
  rw [hfront]
  exact ⟨hrow, hstop⟩

theorem exists_tokens_of_parse {source : String} {tree : Tree} (h : parse source = .ok tree) :
    ∃ tokens, tokenize source = .ok tokens ∧ parseTokens tokens = .ok tree := by
  unfold parse at h
  split at h
  · cases h
  · exact Except.bind_eq_ok h

theorem peek_eq_stop_of_parseTokens {tokens : List Token} {tree : Tree}
    (h : parseTokens tokens = .ok tree) :
    ∃ rest, nested maxDepth .expression tokens = .ok (tree, rest) ∧ peek rest = .stop := by
  obtain ⟨⟨found, rest⟩, hrun, h⟩ := Except.bind_eq_ok h
  simp only at h
  split at h
  · rename_i hpeek
    cases h
    exact ⟨rest, hrun, hpeek⟩
  · cases h

/-- The row of an accepted source, without the end of the source, is an expression. -/
theorem derives_wrapped_of_parseTokens {source : String} {tokens : List Token} {tree : Tree}
    (hlex : tokenize source = .ok tokens) (hparse : parseTokens tokens = .ok tree) :
    Derives Callee.Wrapped .expression (kinds tokens.dropLast) tree := by
  obtain ⟨hkinds, hstop⟩ := kinds_dropLast hlex
  obtain ⟨rest, hrun, hpeek⟩ := peek_eq_stop_of_parseTokens hparse
  obtain ⟨taken, htokens, hderives⟩ := reads_nested maxDepth .expression hrun
  have hsplit : kinds tokens.dropLast ++ [.stop] = kinds taken ++ kinds rest := by
    rw [← hkinds, htokens, kinds, List.map_append]
  cases rest with
  | nil =>
    have hall : kinds tokens.dropLast ++ [.stop] = kinds taken := hsplit.trans (List.append_nil _)
    have hmem : TokenKind.stop ∈ kinds taken :=
      hall ▸ List.mem_append_right _ (List.mem_singleton_self _)
    exact absurd hmem hderives.stop_notMem
  | cons last rest =>
    have hlast : last.kind = .stop := hpeek
    have hrest : kinds (last :: rest) = .stop :: kinds rest := by rw [kinds, List.map_cons, hlast]
    rw [hrest, List.append_cons_inj_of_notMem hstop List.not_mem_nil] at hsplit
    rw [hsplit.1]
    exact hderives

/-- **What is accepted is an expression**, with the tree of its derivation. Names are the only
functions of it just when no parenthesis opens directly behind one that closes. -/
theorem derives_of_parseTokens {source : String} {tokens : List Token} {tree : Tree}
    (hlex : tokenize source = .ok tokens) (hparse : parseTokens tokens = .ok tree) :
    Derives Callee.Wrapped .expression (kinds tokens.dropLast) tree ∧
      (Derives Callee.Bare .expression (kinds tokens.dropLast) tree ↔
        ParensApart (kinds tokens.dropLast)) := by
  have hderives := derives_wrapped_of_parseTokens hlex hparse
  exact ⟨hderives, Derives.parensApart, hderives.bare_of_wrapped⟩

/-- A sign, a power and differences to the left, with parentheses at the end. -/
theorem derives_of_parseTokens_differences : ∃ tokens, tokenize "-a ** b - c - (d)" = .ok tokens ∧
    Derives Callee.Bare .expression (kinds tokens.dropLast) (.binary .sub (.binary .sub
      (.unary .neg (.binary .pow (.name "a") (.name "b"))) (.name "c")) (.name "d")) := by
  have hlex : tokenize "-a ** b - c - (d)" = .ok [⟨.minus, 0⟩, ⟨.ident "a", 1⟩, ⟨.doubleStar, 3⟩,
      ⟨.ident "b", 6⟩, ⟨.minus, 8⟩, ⟨.ident "c", 10⟩, ⟨.minus, 12⟩, ⟨.leftParen, 14⟩,
      ⟨.ident "d", 15⟩, ⟨.rightParen, 16⟩, ⟨.stop, 17⟩] :=
    (tokenize_eq_turns _).trans rfl
  refine ⟨_, hlex, (derives_of_parseTokens hlex rfl).2.2 ?_⟩
  simp [ParensApart, TokenKind.closes]

/-- A name in parentheses is called, though only a name may be. -/
theorem parseTokens_wrapped_callee : ∃ tokens, tokenize "(f)(x)" = .ok tokens ∧
    parseTokens tokens = .ok (.call "f" [.name "x"]) ∧
    ∀ tree, ¬ Derives Callee.Bare .expression (kinds tokens.dropLast) tree := by
  have hlex : tokenize "(f)(x)" = .ok [⟨.leftParen, 0⟩, ⟨.ident "f", 1⟩, ⟨.rightParen, 2⟩,
      ⟨.leftParen, 3⟩, ⟨.ident "x", 4⟩, ⟨.rightParen, 5⟩, ⟨.stop, 6⟩] :=
    (tokenize_eq_turns _).trans rfl
  refine ⟨_, hlex, rfl, fun tree hderives => ?_⟩
  have hapart := hderives.parensApart
  simp [ParensApart, TokenKind.closes, TokenKind.opens] at hapart

end LaunchFile.Expr
