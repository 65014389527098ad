import LaunchFile.Proofs.Expr.Cursor

/-!
# Proofs/Expr/Progress — the cursor keeps to the row and reads what the parser reads

A row that `stop` ends is never left (`cursor_progress`). From a place of the row each rule ends,
further on when it has a tree and with its error at a token, and as deep as it began; it finds what
the parser finds in the rest of the row. There is one lemma for each rule, from what is known of the
three rules that count towards nesting, and then the induction on nesting.
-/

namespace LaunchFile.Expr

variable {α β : Type} {tokens : List Token} {c c' : Cursor} {least : Nat}

/-! ## Where a cursor goes -/

/-- Moves that lead from a place to another one, the last one first: on over tokens but `stop`, and
back over the token that the cursor went on over just before. -/
inductive Leads (tokens : List Token) (start : Nat) : List Move → Nat → Prop
  | stay : Leads tokens start [] start
  | on {moves : List Move} {place : Nat} {token : Token} (h : Leads tokens start moves place)
      (htoken : tokens[place]? = some token) (hkind : token.kind ≠ .stop) :
      Leads tokens start (.on place :: moves) (place + 1)
  | back {moves : List Move} {place : Nat}
      (h : Leads tokens start (.on place :: moves) (place + 1)) :
      Leads tokens start (.back place :: .on place :: moves) place

namespace Leads

variable {start place last : Nat} {moves new : List Move}

/-- Moves that follow one another are listed with the later ones in front. -/
theorem append (h : Leads tokens start moves place) (hnew : Leads tokens place new last) :
    Leads tokens start (new ++ moves) last := by
  induction hnew with
  | stay => exact h
  | on _ htoken hkind ih => exact .on ih htoken hkind
  | back _ ih => exact .back ih

/-- No moves lead to a place before the first one, since only what was gone over is gone back. -/
theorem le : ∀ {moves : List Move} {place : Nat}, Leads tokens start moves place → start ≤ place
  | _, _, .stay => le_rfl
  | _, _, .on h _ _ => Nat.le_succ_of_le h.le
  | _, _, .back (.on h _ _) => h.le

end Leads

/-- From a cursor to another one in the row, as deep as the first. -/
structure Cursor.Goes (tokens : List Token) (c c' : Cursor) : Prop where
  depth : c'.depth = c.depth
  lt : c'.place < tokens.length
  moves : ∃ new, c'.moves = new ++ c.moves ∧ Leads tokens c.place new c'.place

namespace Cursor.Goes

/-- A cursor that goes on is never before where it began. -/
theorem le (h : c.Goes tokens c') : c.place ≤ c'.place := by
  obtain ⟨new, -, hleads⟩ := h.moves
  exact hleads.le

theorem refl (h : c.place < tokens.length) : c.Goes tokens c :=
  ⟨rfl, h, [], rfl, .stay⟩

/-- Ways of a cursor follow one another. -/
theorem trans {c'' : Cursor} (h : c.Goes tokens c') (h' : c'.Goes tokens c'') :
    c.Goes tokens c'' := by
  obtain ⟨new, hnew, hleads⟩ := h.moves
  obtain ⟨new', hnew', hleads'⟩ := h'.moves
  refine ⟨h'.depth.trans h.depth, h'.lt, new' ++ new, ?_, hleads.append hleads'⟩
  rw [hnew', hnew, List.append_assoc]

end Cursor.Goes

/-! ## How steps end -/

/-- Steps from a cursor that ended in the row, not before `least` when they have a result, and what
a parser finds in the rest of the row: the same. -/
inductive Ends (tokens : List Token) (c : Cursor) (least : Nat) :
    Option (Except EvalError α × Cursor) → Except EvalError (α × List Token) → Prop
  | ok {a : α} {c' : Cursor} (goes : c.Goes tokens c') (further : least ≤ c'.place) :
      Ends tokens c least (some (.ok a, c')) (.ok (a, tokens.drop c'.place))
  | error {token : Token} {fault : SyntaxFault} {c' : Cursor} (goes : c.Goes tokens c')
      (mem : token ∈ tokens) : Ends tokens c least (some (.error (.invalid token.offset fault), c'))
        (.error (.invalid token.offset fault))

/-- Steps in sequence run from the cursor that the first part leaves behind. -/
theorem runFrom_bind (m : Steps α) (k : α → Steps β) :
    (m >>= k).runFrom c = (m.runFrom c).bind fun
      | (.ok a, c') => (k a).runFrom c'
      | (.error e, c') => some (.error e, c') := by
  show Option.bind (m c) _ = Option.bind (m c) _
  congr 1
  funext r
  rcases r with ⟨e | a, c'⟩ <;> rfl

namespace Ends

variable {run : Option (Except EvalError α × Cursor)} {found : Except EvalError (α × List Token)}

/-- How steps end may be told from an earlier cursor that leads to theirs. -/
theorem since (hgoes : c.Goes tokens c') (h : Ends tokens c' least run found) :
    Ends tokens c least run found := by
  cases h with
  | ok goes further => exact .ok (hgoes.trans goes) further
  | error goes mem => exact .error (hgoes.trans goes) mem

/-- **Steps in sequence end as parsers in sequence do**, if what follows does from wherever the
first part ends. -/
theorem bind {m : Steps α} {k : α → Steps β} {most : Nat}
    {q : α × List Token → Except EvalError (β × List Token)}
    (h : Ends tokens c least (m.runFrom c) found)
    (hk : ∀ a c', c.Goes tokens c' → least ≤ c'.place →
      Ends tokens c' most ((k a).runFrom c') (q (a, tokens.drop c'.place))) :
    Ends tokens c most ((m >>= k).runFrom c) (found >>= q) := by
  rw [runFrom_bind]
  generalize m.runFrom c = run at h
  cases h with
  | ok goes further => exact (hk _ _ goes further).since goes
  | error goes mem => exact .error goes mem

/-- A tree that is returned costs no token. -/
theorem pure (h : c.place < tokens.length) (hle : least ≤ c.place) (a : α) :
    Ends tokens c least ((Pure.pure a : Steps α).runFrom c) (.ok (a, tokens.drop c.place)) :=
  .ok (.refl h) hle

/-- An error stands at the token that the cursor is at. -/
theorem fail (h : c.place < tokens.length) (fault : SyntaxFault) :
    Ends tokens c least ((Steps.fail tokens fault : Steps α).runFrom c)
      (failAt (tokens.drop c.place) fault) := by
  have hfail : (Steps.fail tokens fault : Steps α).runFrom c =
      some (.error (.invalid tokens[c.place].offset fault), c) := by
    show some _ = _
    rw [List.getElem?_eq_getElem h]
    rfl
  rw [hfail, failAt, List.drop_eq_getElem_cons h]
  exact .error (.refl h) (List.getElem_mem h)

end Ends

/-! ## The token at hand -/

section

variable (h : c.place < tokens.length)
include h

theorem see_runFrom :
    (Steps.see tokens).runFrom c = some (.ok (peek (tokens.drop c.place)), c) := by
  have hmin : min c.place (tokens.length - 1) = c.place := by omega
  rw [List.drop_eq_getElem_cons h]
  show Option.map _ _ = _
  rw [hmin, List.getElem?_eq_getElem h]
  rfl

/-- Looking ahead does not move the cursor. -/
theorem see_bind_runFrom (k : TokenKind → Steps α) :
    (Steps.see tokens >>= k).runFrom c = (k (peek (tokens.drop c.place))).runFrom c := by
  rw [runFrom_bind, see_runFrom h]
  rfl

theorem seesKeyword_bind_runFrom (word : String) (k : Bool → Steps α) :
    (Steps.seesKeyword tokens word >>= k).runFrom c =
      (k (isKeyword word (tokens.drop c.place))).runFrom c := by
  have hsees : (Steps.seesKeyword tokens word).runFrom c =
      some (.ok (isKeyword word (tokens.drop c.place)), c) := by
    rw [Steps.seesKeyword, see_bind_runFrom h, isKeyword]
    cases peek (tokens.drop c.place) <;> rfl
  rw [runFrom_bind, hsees]
  rfl

/-- At the end the cursor stays where it is. -/
theorem advance_bind_runFrom_of_stop (hstop : peek (tokens.drop c.place) = .stop)
    (k : TokenKind → Steps α) :
    (Steps.advance tokens >>= k).runFrom c = (k .stop).runFrom c := by
  rw [Steps.advance, bind_assoc, see_bind_runFrom h, hstop]
  rfl

/-- Before the end the cursor goes on by one token. -/
theorem advance_bind_runFrom (hne : peek (tokens.drop c.place) ≠ .stop) (k : TokenKind → Steps α) :
    (Steps.advance tokens >>= k).runFrom c = (k (peek (tokens.drop c.place))).runFrom c.next := by
  have hadvance : (Steps.advance tokens).runFrom c =
      some (.ok (peek (tokens.drop c.place)), c.next) := by
    rw [Steps.advance, see_bind_runFrom h]
    split
    · contradiction
    · rfl
  rw [runFrom_bind, hadvance]
  rfl

end

/-! ## Steps on and back -/

section

variable (hlast : ∃ stop ∈ tokens.getLast?, stop.kind = .stop) {kind : TokenKind}

include hlast

/-- Behind a token that is not `stop` there is another one. -/
theorem next_lt (hpeek : peek (tokens.drop c.place) = kind) (hne : kind ≠ .stop) :
    c.place + 1 < tokens.length := by
  obtain ⟨stop, hmem, hstop⟩ := hlast
  rw [Option.mem_def, List.getLast?_eq_getElem?] at hmem
  by_contra hle
  apply hne
  rcases Nat.lt_or_ge c.place tokens.length with h | h
  · obtain rfl : tokens[c.place] = stop := by
      rw [← Option.some_inj, ← hmem, ← List.getElem?_eq_getElem h]
      congr 1
      omega
    rwa [← hpeek, List.drop_eq_getElem_cons h]
  · rw [← hpeek, List.drop_eq_nil_of_le h]
    rfl

/-- Going on over a token that is not `stop` is a move in the row. -/
theorem Cursor.goes_next (hpeek : peek (tokens.drop c.place) = kind) (hne : kind ≠ .stop) :
    c.Goes tokens c.next := by
  obtain ⟨token, htokens, hkind⟩ := exists_cons_of_peek hpeek hne
  have htoken : tokens[c.place]? = some token := by
    rw [← List.head?_drop, htokens]
    rfl
  exact ⟨rfl, next_lt hlast hpeek hne, [.on c.place], rfl, .on .stay htoken (hkind ▸ hne)⟩

namespace Ends

variable {found : Except EvalError (α × List Token)}

/-- Over the token at hand and on from there. -/
theorem advance (hpeek : peek (tokens.drop c.place) = kind) (hne : kind ≠ .stop)
    {k : TokenKind → Steps α}
    (h : c.next.place < tokens.length → Ends tokens c.next least ((k kind).runFrom c.next) found) :
    Ends tokens c least ((Steps.advance tokens >>= k).runFrom c) found := by
  have goes := Cursor.goes_next hlast hpeek hne
  rw [advance_bind_runFrom (goes.le.trans_lt goes.lt) (hpeek ▸ hne), hpeek]
  exact (h goes.lt).since goes

/-- A token that no atom begins with is at hand again when it is refused. -/
theorem refuse (hpeek : peek (tokens.drop c.place) = kind) (hne : kind ≠ .stop)
    (fault : SyntaxFault) :
    Ends tokens c least ((do Steps.back; Steps.fail tokens fault : Steps α).runFrom c.next)
      (failAt (tokens.drop c.place) fault) := by
  have goes := Cursor.goes_next hlast hpeek hne
  have h := goes.le.trans_lt goes.lt
  have hback : c.Goes tokens { c with moves := .back c.place :: c.next.moves } := by
    obtain ⟨new, hnew, hleads⟩ := goes.moves
    obtain rfl : [.on c.place] = new := List.append_cancel_right hnew
    exact ⟨rfl, h, [.back c.place, .on c.place], rfl, .back hleads⟩
  exact (fail (c := { c with moves := .back c.place :: c.next.moves }) h fault).since hback

/-- A parenthesis is closed where the parser closes it, or refused there. -/
theorem closeParen (h : c.place < tokens.length) (hle : least ≤ c.place) (fault : SyntaxFault)
    (a : α) :
    Ends tokens c least ((do Steps.closeParen tokens fault; return a : Steps α).runFrom c)
      (do let rest ← Expr.closeParen fault (tokens.drop c.place); .ok (a, rest)) := by
  rw [Steps.closeParen, Expr.closeParen, bind_assoc, see_bind_runFrom h]
  cases hpeek : peek (tokens.drop c.place) with
  | rightParen =>
    rw [List.tail_drop, bind_assoc]
    exact .advance hlast hpeek nofun fun hlt => .pure hlt (Nat.le_succ_of_le hle) a
  | _ => exact fail h fault

end Ends

end

/-! ## Loops

Each turn passes a token at least, so that a loop never takes more of them than there are
tokens left. -/

/-- From every cursor that is so deep in the row, steps that get further and find what the parser
finds in the rest of the row. -/
def Tracks (tokens : List Token) (depth : Nat) (steps : Steps Tree) (parser : Parser Tree) : Prop :=
  ∀ c : Cursor, c.depth = depth → c.place < tokens.length →
    Ends tokens c (c.place + 1) (steps.runFrom c) (parser (tokens.drop c.place))

theorem length_le_add_drop (tokens : List Token) (place : Nat) :
    tokens.length ≤ place + (tokens.drop place).length := by
  rw [List.length_drop]
  omega

theorem append_nil_found (found : Except EvalError (List α × List Token)) :
    (do let (rest, ts) ← found; .ok ([] ++ rest, ts)) = found := by
  cases found <;> rfl

section

variable (hlast : ∃ stop ∈ tokens.getLast?, stop.kind = .stop) {depth : Nat}
  {steps : Steps Tree} {parser : Parser Tree} (h : Tracks tokens depth steps parser)

include hlast h

/-- A loop of left operands ends where the parser's loop does. The induction is on the turns that
are left, each of which goes on by a token at least. -/
theorem ends_chainOnto (level : Level) :
    ∀ {turns more : Nat} (left : Tree) {c : Cursor}, c.depth = depth → c.place < tokens.length →
      least ≤ c.place → tokens.length ≤ c.place + turns → tokens.length ≤ c.place + more →
      Ends tokens c least ((Steps.chainOnto tokens level.op? steps turns left).runFrom c)
        (chainOnto level.op? parser more left (tokens.drop c.place))
  | 0, _, _, _, _, hlt, _, hturns, _ => absurd hlt (Nat.not_lt.2 hturns)
  | _ + 1, 0, _, _, _, hlt, _, _, hmore => absurd hlt (Nat.not_lt.2 hmore)
  | turns + 1, more + 1, left, c, hdepth, hlt, hle, hturns, hmore => by
    rw [Steps.chainOnto, see_bind_runFrom hlt, chainOnto]
    cases hop : level.op? (peek (tokens.drop c.place)) with
    | none => exact .pure hlt hle left
    | some op =>
      refine .advance hlast (Level.op?_eq_some_iff.1 hop).1 op.isInner_token.ne_stop fun hnext => ?_
      rw [List.tail_drop]
      refine (h c.next hdepth hnext).bind fun right c' goes hfurther => ?_
      rw [Cursor.next_place] at hfurther
      exact ends_chainOnto level _ (goes.depth.trans hdepth) goes.lt (by omega) (by omega)
        (by omega)

/-- A chain of left operands is read as the parser reads it. -/
theorem tracks_chain {turns : Nat} (hturns : tokens.length ≤ turns) (level : Level) :
    Tracks tokens depth (Steps.chain tokens turns level.op? steps) (chain level.op? parser) := by
  intro c hdepth hlt
  refine (h c hdepth hlt).bind fun first c' goes hfurther => ?_
  exact ends_chainOnto hlast h level first (goes.depth.trans hdepth) goes.lt hfurther
    (Nat.le_add_left_of_le hturns) (length_le_add_drop tokens c'.place)

/-- The links of a comparison are read in turns, and the links found before stand in front of them.
-/
theorem ends_comparisons :
    ∀ {turns more : Nat} (found : List (CompareOp × Tree)) {c : Cursor}, c.depth = depth →
      c.place < tokens.length → least ≤ c.place → tokens.length ≤ c.place + turns →
      tokens.length ≤ c.place + more →
      Ends tokens c least ((Steps.comparisons tokens steps turns found).runFrom c)
        (do
          let (rest, ts) ← comparisons parser more (tokens.drop c.place)
          .ok (found ++ rest, ts))
  | 0, _, _, _, _, hlt, _, hturns, _ => absurd hlt (Nat.not_lt.2 hturns)
  | _ + 1, 0, _, _, _, hlt, _, _, hmore => absurd hlt (Nat.not_lt.2 hmore)
  | turns + 1, more + 1, found, c, hdepth, hlt, hle, hturns, hmore => by
    rw [Steps.comparisons, see_bind_runFrom hlt, comparisons]
    cases hop : compareOp? (peek (tokens.drop c.place)) with
    | none =>
      show Ends _ _ _ _ (.ok (found ++ [], _))
      rw [List.append_nil]
      exact .pure hlt hle found
    | some op =>
      refine .advance hlast (compareOp?_eq_some_iff.1 hop) op.isInner_token.ne_stop fun hnext => ?_
      rw [List.tail_drop, bind_assoc]
      refine (h c.next hdepth hnext).bind fun right c' goes hfurther => ?_
      rw [Cursor.next_place] at hfurther
      -- What is found grows at its end here, and in the parser in front of the rest.
      have hrest := ends_comparisons (found ++ [(op, right)]) (goes.depth.trans hdepth) goes.lt
        (by omega : least ≤ c'.place) (by omega : tokens.length ≤ c'.place + turns)
        (by omega : tokens.length ≤ c'.place + more)
      simp only [List.append_assoc] at hrest
      rw [bind_assoc]
      exact hrest

/-- The arguments of a call are read in turns as well. -/
theorem ends_arguments :
    ∀ {turns more : Nat} (found : List Tree) {c : Cursor}, c.depth = depth →
      c.place < tokens.length → least ≤ c.place → tokens.length ≤ c.place + turns →
      tokens.length ≤ c.place + more →
      Ends tokens c least ((Steps.arguments tokens steps turns found).runFrom c)
        (do
          let (rest, ts) ← arguments parser more (tokens.drop c.place)
          .ok (found ++ rest, ts))
  | 0, _, _, _, _, hlt, _, hturns, _ => absurd hlt (Nat.not_lt.2 hturns)
  | _ + 1, 0, _, _, _, hlt, _, _, hmore => absurd hlt (Nat.not_lt.2 hmore)
  | turns + 1, more + 1, found, c, hdepth, hlt, hle, hturns, hmore => by
    rw [Steps.arguments, arguments, bind_assoc]
    refine (h c hdepth hlt).bind fun arg c' goes hfurther => ?_
    rw [see_bind_runFrom goes.lt]
    dsimp only
    cases hpeek : peek (tokens.drop c'.place) with
    | comma =>
      refine .advance hlast hpeek nofun fun hnext => ?_
      have hrest := ends_arguments (found ++ [arg]) (c := c'.next) (goes.depth.trans hdepth) hnext
        (by omega : least ≤ c'.place + 1) (by omega : tokens.length ≤ c'.place + 1 + turns)
        (by omega : tokens.length ≤ c'.place + 1 + more)
      simp only [List.append_assoc] at hrest
      rw [List.tail_drop, bind_assoc]
      exact hrest
    | _ => exact .pure goes.lt (by omega) (found ++ [arg])

end

/-! ## Rules -/

section

variable (hlast : ∃ stop ∈ tokens.getLast?, stop.kind = .stop) {depth turns : Nat}
  (hturns : tokens.length ≤ turns) {steps : Rule → Steps Tree} {below : Rule → Parser Tree}
  (hbelow : ∀ inner, Tracks tokens depth (steps inner) (below inner))

include hlast hbelow

/-- A token and a rule behind it that counts towards nesting. -/
theorem ends_operand (hdepth : c.depth = depth) {kind : TokenKind}
    (hpeek : peek (tokens.drop c.place) = kind) (hne : kind ≠ .stop) (hle : least ≤ c.place + 1)
    (inner : Rule) (build : Tree → Tree) :
    Ends tokens c least
      ((do
        let _ ← Steps.advance tokens
        let operand ← steps inner
        return build operand : Steps Tree).runFrom c)
      (do
        let (operand, ts) ← below inner (tokens.drop c.place).tail
        .ok (build operand, ts)) := by
  refine .advance hlast hpeek hne fun hnext => ?_
  rw [List.tail_drop]
  refine (hbelow inner c.next hdepth hnext).bind fun operand c' goes hfurther => ?_
  rw [Cursor.next_place] at hfurther
  exact .pure goes.lt (by omega) (build operand)

/-- An atom is a token, or an expression in parentheses. -/
theorem tracks_atom : Tracks tokens depth (Steps.atom tokens steps) (atom below) := by
  intro c hdepth hlt
  rw [Steps.atom, atom]
  by_cases hstop : peek (tokens.drop c.place) = .stop
  · rw [advance_bind_runFrom_of_stop hlt hstop, hstop]
    exact .fail hlt _
  -- An atom is passed before it is looked at, and what is none is put back.
  have goes := Cursor.goes_next hlast rfl hstop
  have taken (tree : Tree) : Ends tokens c (c.place + 1) ((pure tree : Steps Tree).runFrom c.next)
      (.ok (tree, (tokens.drop c.place).tail)) := by
    rw [List.tail_drop]
    exact .ok goes le_rfl
  rw [advance_bind_runFrom hlt hstop]
  cases hpeek : peek (tokens.drop c.place) with
  | int n => exact taken _
  | float x => exact taken _
  | str s => exact taken _
  | ident name =>
    dsimp only
    split
    · exact taken _
    split
    · exact taken _
    split
    · exact .refuse hlast hpeek nofun _
    · exact taken _
  | leftParen =>
    refine Ends.since goes ?_
    rw [List.tail_drop]
    refine (hbelow .expression c.next hdepth goes.lt).bind fun inner c' goes' hfurther => ?_
    exact .closeParen hlast goes'.lt (Nat.le_of_succ_le hfurther) _ inner
  | stop => exact absurd hpeek hstop
  | _ => exact .refuse hlast hpeek nofun _

include hturns

/-- The arguments of a call end with its parenthesis. -/
theorem ends_callArguments (hdepth : c.depth = depth) (hlt : c.place < tokens.length)
    (hle : least ≤ c.place) :
    Ends tokens c least ((Steps.callArguments tokens turns steps).runFrom c)
      (callArguments below (tokens.drop c.place)) := by
  have hmore : tokens.length ≤ c.place + ((tokens.drop c.place).length + 1) :=
    Nat.le_succ_of_le (length_le_add_drop tokens c.place)
  have hargs := ends_arguments hlast (hbelow .expression) [] hdepth hlt hle
    (Nat.le_add_left_of_le hturns) hmore
  rw [append_nil_found] at hargs
  rw [Steps.callArguments, callArguments, see_bind_runFrom hlt]
  dsimp only
  cases hpeek : peek (tokens.drop c.place) with
  | rightParen => exact .closeParen hlast hlt hle _ []
  | _ => exact hargs.bind fun args c' goes hfurther => .closeParen hlast goes.lt hfurther _ args

/-- A call is followed from its callee to its closing parenthesis. -/
theorem tracks_call : Tracks tokens depth (Steps.call tokens turns steps) (call below) := by
  intro c hdepth hlt
  rw [Steps.call, call]
  refine (tracks_atom hlast hbelow c hdepth hlt).bind fun head c' goes hfurther => ?_
  rw [see_bind_runFrom goes.lt]
  dsimp only
  cases head with
  | name function =>
    cases hpeek : peek (tokens.drop c'.place) with
    | leftParen =>
      refine .advance hlast hpeek nofun fun hnext => ?_
      rw [List.tail_drop]
      refine (ends_callArguments hlast hturns hbelow (c := c'.next) (goes.depth.trans hdepth) hnext
        (Nat.le_succ_of_le hfurther)).bind fun args d goes' hfurther' => ?_
      exact .pure goes'.lt hfurther' _
    | _ => exact .pure goes.lt hfurther _
  | _ => exact .pure goes.lt hfurther _

/-- A power reads its exponent as a unary expression of its own, a level deeper. -/
theorem tracks_power : Tracks tokens depth (Steps.power tokens turns steps) (power below) := by
  intro c hdepth hlt
  rw [Steps.power, power]
  refine (tracks_call hlast hturns hbelow c hdepth hlt).bind fun base c' goes hfurther => ?_
  rw [see_bind_runFrom goes.lt]
  dsimp only
  cases hpeek : peek (tokens.drop c'.place) with
  | doubleStar =>
    exact ends_operand hlast hbelow (goes.depth.trans hdepth) hpeek nofun (by omega) .unary
      (.binary .pow base)
  | _ => exact .pure goes.lt hfurther base

/-- Signs nest, and count for nesting. -/
theorem tracks_unary : Tracks tokens depth (Steps.unary tokens turns steps) (unary below) := by
  intro c hdepth hlt
  rw [Steps.unary, unary, see_bind_runFrom hlt]
  cases hop : signOp? (peek (tokens.drop c.place)) with
  | none => exact tracks_power hlast hturns hbelow c hdepth hlt
  | some op =>
    exact ends_operand hlast hbelow hdepth (signOp?_eq_some_iff.1 hop).1 op.isInner_token.ne_stop
      le_rfl .unary (.unary op)

theorem tracks_term : Tracks tokens depth (Steps.term tokens turns steps) (term below) :=
  tracks_chain hlast (tracks_unary hlast hturns hbelow) hturns .term

theorem tracks_sum : Tracks tokens depth (Steps.sum tokens turns steps) (sum below) :=
  tracks_chain hlast (tracks_term hlast hturns hbelow) hturns .sum

theorem tracks_comparison :
    Tracks tokens depth (Steps.comparison tokens turns steps) (comparison below) := by
  intro c hdepth hlt
  rw [Steps.comparison, comparison]
  refine (tracks_sum hlast hturns hbelow c hdepth hlt).bind fun first c' goes hfurther => ?_
  have hrest := ends_comparisons hlast (tracks_sum hlast hturns hbelow) []
    (goes.depth.trans hdepth) goes.lt hfurther (Nat.le_add_left_of_le hturns)
    (length_le_add_drop tokens c'.place)
  rw [append_nil_found] at hrest
  exact hrest.bind fun rest c'' goes' hfurther' => .pure goes'.lt hfurther' _

theorem tracks_negation :
    Tracks tokens depth (Steps.negation tokens turns steps) (negation below) := by
  intro c hdepth hlt
  rw [Steps.negation, negation, seesKeyword_bind_runFrom hlt]
  split
  · rename_i hnot
    exact ends_operand hlast hbelow hdepth (peek_of_isKeyword hnot) nofun le_rfl .negation
      (.unary .not)
  · exact tracks_comparison hlast hturns hbelow c hdepth hlt

theorem tracks_conjunction :
    Tracks tokens depth (Steps.conjunction tokens turns steps) (conjunction below) :=
  tracks_chain hlast (tracks_negation hlast hturns hbelow) hturns .conjunction

theorem tracks_disjunction :
    Tracks tokens depth (Steps.disjunction tokens turns steps) (disjunction below) :=
  tracks_chain hlast (tracks_conjunction hlast hturns hbelow) hturns .disjunction

/-- A conditional reads its two ends and the condition between them. -/
theorem tracks_conditional :
    Tracks tokens depth (Steps.conditional tokens turns steps) (conditional below) := by
  intro c hdepth hlt
  rw [Steps.conditional, conditional]
  refine (tracks_disjunction hlast hturns hbelow c hdepth hlt).bind fun value c' goes hfurther => ?_
  rw [seesKeyword_bind_runFrom goes.lt]
  dsimp only
  split
  · rename_i hif
    refine .advance hlast (peek_of_isKeyword hif) nofun fun hnext => ?_
    rw [List.tail_drop]
    refine (tracks_disjunction hlast hturns hbelow c'.next (goes.depth.trans hdepth) hnext).bind
      fun condition d goes' hfurther' => ?_
    rw [Cursor.next_place] at hfurther'
    rw [seesKeyword_bind_runFrom goes'.lt]
    dsimp only
    split
    · rename_i helse
      exact ends_operand hlast hbelow (goes'.depth.trans (goes.depth.trans hdepth))
        (peek_of_isKeyword helse) nofun (by omega) .expression (.conditional condition value)
    · exact .fail goes'.lt _
  · exact .pure goes.lt hfurther value

/-- **Every rule does what the parser does**, when those do that count towards nesting. -/
theorem tracks_rule (level : Level) :
    Tracks tokens depth (Steps.rule tokens turns steps level) (level.rule below) := by
  cases level with
  | expression => exact tracks_conditional hlast hturns hbelow
  | disjunction => exact tracks_disjunction hlast hturns hbelow
  | conjunction => exact tracks_conjunction hlast hturns hbelow
  | negation => exact tracks_negation hlast hturns hbelow
  | comparison => exact tracks_comparison hlast hturns hbelow
  | sum => exact tracks_sum hlast hturns hbelow
  | term => exact tracks_term hlast hturns hbelow
  | unary => exact tracks_unary hlast hturns hbelow
  | power => exact tracks_power hlast hturns hbelow
  | call => exact tracks_call hlast hturns hbelow
  | atom => exact tracks_atom hlast hbelow

end

/-! ## Nesting -/

/-- The cursor, one rule deeper. -/
def Cursor.inside (c : Cursor) : Cursor := { c with depth := c.depth + 1 }

section

variable {turns left : Nat}

/-- A rule that is nested too deep fails before it reads anything. -/
theorem nested_runFrom_of_le (h : maxDepth ≤ c.depth) (inner : Rule) :
    (Steps.nested tokens turns (left + 1) inner).runFrom c =
      (Steps.fail tokens .tooDeep).runFrom c := by
  rw [Steps.nested]
  show Steps.runFrom (if maxDepth ≤ c.depth then _ else _) c = _
  rw [if_pos h]

/-- A rule that is nested less deep runs a level deeper and comes up behind it. -/
theorem nested_runFrom_of_lt (h : c.depth < maxDepth) (inner : Rule) :
    (Steps.nested tokens turns (left + 1) inner).runFrom c =
      ((Steps.rule tokens turns (Steps.nested tokens turns left) inner.level).runFrom c.inside).bind
        fun (result, c') => (Steps.leave.run c').bind fun (_, c'') => some (result, c'') := by
  rw [Steps.nested]
  show Steps.runFrom (if maxDepth ≤ c.depth then _ else _) c = _
  rw [if_neg (Nat.not_le.2 h)]
  rfl

end

/-- Behind a nested rule the cursor is as deep as before it. -/
theorem Ends.leave {run : Option (Except EvalError α × Cursor)}
    {found : Except EvalError (α × List Token)} (h : Ends tokens c.inside least run found) :
    Ends tokens c least (run.bind fun (result, c') =>
      (Steps.leave.run c').bind fun (_, c'') => some (result, c'')) found := by
  have leaves {c' : Cursor} (goes : c.inside.Goes tokens c') :
      Steps.leave.run c' = some ((), { c' with depth := c.depth }) := by
    rw [StateT.run, Steps.leave, goes.depth]
    rfl
  cases h with
  | ok goes further =>
    simp only [Option.bind_some, leaves goes]
    exact .ok ⟨rfl, goes.lt, goes.moves⟩ further
  | error goes mem =>
    simp only [Option.bind_some, leaves goes]
    exact .error ⟨rfl, goes.lt, goes.moves⟩ mem

/-- **So do the rules that count towards nesting**: however many may be open, they stop at the depth
at which the parser has none left. -/
theorem tracks_nested (hlast : ∃ stop ∈ tokens.getLast?, stop.kind = .stop) {turns : Nat}
    (hturns : tokens.length ≤ turns) :
    ∀ {left depth : Nat}, maxDepth - depth < left → ∀ inner : Rule,
      Tracks tokens depth (Steps.nested tokens turns left inner) (nested (maxDepth - depth) inner)
  | left + 1, depth, hleft, inner, c, hdepth, hlt => by
    rcases Nat.lt_or_ge depth maxDepth with hdeep | hdeep
    · -- The parser counts the levels that are left and the cursor those that are open.
      have hbelow := tracks_nested hlast hturns (by omega : maxDepth - (depth + 1) < left)
      have hinside := tracks_rule hlast hturns hbelow inner.level c.inside
        (congrArg (· + 1) hdepth) hlt
      have hleft : maxDepth - depth = maxDepth - (depth + 1) + 1 := by omega
      have hsame : nested (maxDepth - depth) inner =
          inner.level.rule (nested (maxDepth - (depth + 1))) := by
        rw [hleft]
        cases inner <;> rfl
      rw [nested_runFrom_of_lt (by omega), hsame]
      exact hinside.leave
    · rw [nested_runFrom_of_le (hdepth ▸ hdeep), Nat.sub_eq_zero_of_le hdeep]
      exact .fail hlt .tooDeep

/-! ## Whole rows -/

/-- How a rule from a cursor ended: further on with a tree, and with an error at a token. -/
structure Cursor.Ended (tokens : List Token) (c : Cursor) (result : Except EvalError Tree)
    (c' : Cursor) : Prop extends c.Goes tokens c' where
  further : ∀ tree, result = .ok tree → c.place < c'.place
  located : ∀ e, result = .error e → ∃ token ∈ tokens, ∃ fault, e = .invalid token.offset fault

/-- Steps that end have a result, and it is the parser's. -/
theorem Ends.ended {run : Option (Except EvalError Tree × Cursor)}
    {found : Except EvalError (Tree × List Token)} (h : Ends tokens c (c.place + 1) run found) :
    ∃ result c', run = some (result, c') ∧ c.Ended tokens result c' ∧
      found = result.map fun tree => (tree, tokens.drop c'.place) := by
  cases h with
  | ok goes further => exact ⟨_, _, rfl, ⟨goes, fun _ _ => further, nofun⟩, rfl⟩
  | error goes mem =>
    refine ⟨_, _, rfl, ⟨goes, nofun, ?_⟩, rfl⟩
    rintro _ ⟨⟩
    exact ⟨_, mem, _, rfl⟩

/-- An expression with nothing behind it. -/
def whole : Parser Tree := fun tokens => do
  let (tree, rest) ← nested maxDepth .expression tokens
  match peek rest with
  | .stop => .ok (tree, rest)
  | other => failAt rest (.trailing other)

/-- The parser of a whole row, as one parser after which nothing is left. -/
theorem parseTokens_eq_map_whole (tokens : List Token) :
    parseTokens tokens = (whole tokens).map Prod.fst := by
  rw [parseTokens, whole]
  cases nested maxDepth .expression tokens with
  | error e => rfl
  | ok found =>
    dsimp only [bind, Except.bind]
    cases peek found.2 <;> rfl

/-- **A whole row is read as the parser reads it**, if it ends in `stop`. -/
theorem ends_parse (hlast : ∃ stop ∈ tokens.getLast?, stop.kind = .stop) {turns left : Nat}
    (hturns : tokens.length ≤ turns) (hleft : maxDepth < left) :
    Ends tokens ⟨0, 0, []⟩ 1 ((Steps.parse tokens turns left).runFrom ⟨0, 0, []⟩)
      (whole tokens) := by
  have hlt : 0 < tokens.length := by
    obtain ⟨stop, hmem, -⟩ := hlast
    exact List.length_pos_of_mem (List.mem_of_getLast? hmem)
  refine (tracks_nested hlast hturns hleft .expression ⟨0, 0, []⟩ rfl hlt).bind
    fun tree c' goes hfurther => ?_
  rw [see_bind_runFrom goes.lt]
  dsimp only
  cases peek (tokens.drop c'.place) with
  | stop => exact .pure goes.lt hfurther tree
  | _ => exact .fail goes.lt _

/-- **The cursor never leaves a row that `stop` ends, and parsing it ends.** From every place of the
row and however deep it is nested, every rule ends with what the parser reads off the rest of the
row: with a tree further on or with an error at a token, as deep as it began, and by moves that go
on over tokens but `stop` and back over the last one that was passed. No loop takes more turns than
there are tokens, and no more rules are open than may be nested. -/
theorem cursor_progress (hlast : ∃ stop ∈ tokens.getLast?, stop.kind = .stop) {turns left : Nat}
    (hturns : tokens.length ≤ turns) (hleft : maxDepth < left) :
    (∀ c : Cursor, c.place < tokens.length →
      (∀ level, ∃ result c',
        (Steps.rule tokens turns (Steps.nested tokens turns left) level).runFrom c =
          some (result, c') ∧
        c.Ended tokens result c' ∧
        level.rule (nested (maxDepth - c.depth)) (tokens.drop c.place) =
          result.map fun tree => (tree, tokens.drop c'.place)) ∧
      ∀ inner, ∃ result c',
        (Steps.nested tokens turns left inner).runFrom c = some (result, c') ∧
        c.Ended tokens result c' ∧
        nested (maxDepth - c.depth) inner (tokens.drop c.place) =
          result.map fun tree => (tree, tokens.drop c'.place)) ∧
    ∃ result c', (Steps.parse tokens turns left).runFrom ⟨0, 0, []⟩ = some (result, c') ∧
      Cursor.Ended tokens ⟨0, 0, []⟩ result c' ∧ parseTokens tokens = result := by
  have hnested (depth : Nat) (inner : Rule) : Tracks tokens depth
      (Steps.nested tokens turns left inner) (nested (maxDepth - depth) inner) :=
    tracks_nested hlast hturns ((Nat.sub_le _ _).trans_lt hleft) inner
  refine ⟨fun c hlt => ⟨fun level => ?_, fun inner => ?_⟩, ?_⟩
  · exact (tracks_rule hlast hturns (hnested c.depth) level c rfl hlt).ended
  · exact (hnested c.depth inner c rfl hlt).ended
  · obtain ⟨result, c', hrun, hended, hwhole⟩ := (ends_parse hlast hturns hleft).ended
    refine ⟨result, c', hrun, hended, ?_⟩
    rw [parseTokens_eq_map_whole, hwhole]
    cases result <;> rfl

/-- A sign before a closing parenthesis, which the cursor passes and is back at when it stops. -/
theorem cursor_progress_sign :
    (∃ stop ∈ [(⟨.minus, 0⟩ : Token), ⟨.rightParen, 1⟩, ⟨.stop, 2⟩].getLast?, stop.kind = .stop) ∧
    ∃ c', (Steps.parse [⟨.minus, 0⟩, ⟨.rightParen, 1⟩, ⟨.stop, 2⟩] 3 101).runFrom ⟨0, 0, []⟩ =
        some (.error (.invalid 1 (.unexpected .rightParen)), c') ∧ c'.depth = 0 ∧ c'.place < 3 := by
  have hlast : ∃ stop ∈ [(⟨.minus, 0⟩ : Token), ⟨.rightParen, 1⟩, ⟨.stop, 2⟩].getLast?,
      stop.kind = .stop := ⟨⟨.stop, 2⟩, rfl, rfl⟩
  obtain ⟨result, c', hrun, hended, hparse⟩ :=
    (cursor_progress hlast (le_refl 3) (by decide : maxDepth < 101)).2
  obtain rfl : Except.error (.invalid 1 (.unexpected .rightParen)) = result := hparse
  exact ⟨hlast, c', hrun, hended.depth, hended.lt⟩

end LaunchFile.Expr
