import LaunchFile.Proofs.Expr.Sound

/-!
# Proofs/Expr/Complete — what the parser reads off a row

`Parses depth level ts t` says that the rule of a level, nested so deep, reads the row `ts` as the
tree `t` wherever the token behind the row does not go on with it (`Level.Ends`). There is one lemma
for each production of the grammar. For operands joined to the left there is more to say, because
the loop that joins them stops in the middle of a longer row (`Joins`).
-/

namespace LaunchFile.Expr

/-! ## Levels in order -/

/-- The place of a level in the order of the grammar. -/
def Level.rank : Level → Nat
  | .expression => 0
  | .disjunction => 1
  | .conjunction => 2
  | .negation => 3
  | .comparison => 4
  | .sum => 5
  | .term => 6
  | .unary => 7
  | .power => 8
  | .call => 9
  | .atom => 10

/-- The next tighter level has the next rank. -/
theorem Level.tighter?_eq_some_iff {level tight : Level} :
    level.tighter? = some tight ↔ tight.rank = level.rank + 1 := by
  cases level <;> cases tight <;> simp [tighter?, rank]

theorem Level.rank_lt_of_tighter? {level tight : Level} (h : level.tighter? = some tight) :
    level.rank < tight.rank := by
  rw [Level.tighter?_eq_some_iff.1 h]
  exact Nat.lt_succ_self _

/-- No two levels have the same rank. -/
theorem Level.rank_injective {level other : Level} (h : level.rank = other.rank) :
    level = other := by
  cases level <;> cases other <;> first | rfl | cases h

/-- Between two levels there is one right above the looser. -/
theorem Level.exists_tighter {level tight : Level} (h : level.rank < tight.rank) :
    ∃ next, level.tighter? = some next ∧ next.rank ≤ tight.rank := by
  cases level <;> cases tight <;> simp_all [tighter?, rank]

/-! ## What ends a row -/

/-- The level at which a token goes on with the row before it. -/
def TokenKind.continues? : TokenKind → Option Level
  | .leftParen => some .call
  | .doubleStar => some .power
  | .star | .slash | .doubleSlash | .percent => some .term
  | .plus | .minus => some .sum
  | .eqEq | .notEq | .lt | .le | .gt | .ge => some .comparison
  | .ident "and" => some .conjunction
  | .ident "or" => some .disjunction
  | .ident "if" => some .expression
  | _ => none

/-- A row of a level is complete before the token: only a looser level could go on with it. -/
def Level.Ends (level : Level) (next : TokenKind) : Prop :=
  ∀ other ∈ next.continues?, other.rank < level.rank

variable {level tight : Level} {k : TokenKind}

/-- What ends a row of a level ends one of a tighter level. -/
theorem Level.Ends.mono (hrank : level.rank ≤ tight.rank) (h : level.Ends k) : tight.Ends k :=
  fun other hother => (h other hother).trans_le hrank

theorem Level.Ends.tighter (hlevel : level.tighter? = some tight) (h : level.Ends k) :
    tight.Ends k :=
  h.mono (Level.rank_lt_of_tighter? hlevel).le

/-- A token that goes on at a level, or at a tighter one, ends no row of it. -/
theorem Level.Ends.ne (h : level.Ends k) {next : TokenKind} {other : Level}
    (hnext : next.continues? = some other) (hrank : level.rank ≤ other.rank) : k ≠ next := by
  rintro rfl
  exact absurd (h other hnext) (Nat.not_lt.2 hrank)

/-- An operator goes on at its own level. -/
theorem BinaryOp.continues?_token {op : BinaryOp} (h : op.level? = some level) :
    op.token.continues? = some level := by
  cases op <;> cases h <;> rfl

/-- All comparisons go on at one level. -/
theorem CompareOp.continues?_token (op : CompareOp) : op.token.continues? = some .comparison := by
  cases op <;> rfl

/-- A token that goes on at a looser level ends the row. -/
theorem ends_of_continues? {other : Level} (h : k.continues? = some other)
    (hrank : other.rank < level.rank) : level.Ends k := fun found hfound => by
  rw [Option.mem_def, h] at hfound
  cases hfound
  exact hrank

/-- A token that goes on nowhere ends every row. -/
theorem ends_of_continues?_none (h : k.continues? = none) : level.Ends k := fun found hfound => by
  rw [Option.mem_def, h] at hfound
  cases hfound

/-- No token goes on with a row at the level of signs. -/
theorem Level.Ends.unary_of_power (h : Level.power.Ends k) : Level.unary.Ends k :=
  fun other hother => by
    have hlt := h other hother
    have hne : other ≠ .unary := by
      rintro rfl
      unfold TokenKind.continues? at hother
      split at hother <;> cases hother
    cases other <;> simp_all [Level.rank]

/-! ## Rules that pass a row on -/

section

variable {below : Rule → Parser Tree} {tokens rest : List Token} {t : Tree}

theorem isKeyword_eq_false {word : String} (h : peek tokens ≠ .ident word) :
    isKeyword word tokens = false := by
  cases hkeyword : isKeyword word tokens with
  | false => rfl
  | true => exact absurd (peek_of_isKeyword hkeyword) h

/-- A loop stops at what ends a row of its level. -/
theorem Level.Ends.op?_eq_none (h : level.Ends k) : level.op? k = none := by
  cases hop : level.op? k with
  | none => rfl
  | some op =>
    obtain ⟨rfl, hlevel⟩ := Level.op?_eq_some_iff.1 hop
    exact absurd rfl (h.ne (BinaryOp.continues?_token hlevel) le_rfl)

theorem compareOp?_eq_none (h : Level.comparison.Ends k) : compareOp? k = none := by
  cases hop : compareOp? k with
  | none => rfl
  | some op =>
    exact absurd (compareOp?_eq_some_iff.1 hop) (h.ne op.continues?_token le_rfl)

/-- A loop that finds no operator returns what it has. -/
theorem chainOnto_stop {op? : TokenKind → Option BinaryOp} {operand : Parser Tree}
    (hop : op? (peek rest) = none) (turns : Nat) (left : Tree) :
    chainOnto op? operand turns left rest = .ok (left, rest) := by
  cases turns with
  | zero => rfl
  | succ turns => rw [chainOnto, hop]

/-- A chain of one operand is that operand. -/
theorem chain_stop {op? : TokenKind → Option BinaryOp} {operand : Parser Tree}
    (h : operand tokens = .ok (t, rest)) (hop : op? (peek rest) = none) :
    chain op? operand tokens = .ok (t, rest) := by
  rw [chain, h]
  exact chainOnto_stop hop _ _

/-! Where an atom is refused, so is every row that begins there, signs and `not` apart. -/

/-- An error in the base is that of the power. -/
theorem power_eq_error {e : EvalError} (h : atom below tokens = .error e) :
    power below tokens = .error e := by
  simp only [power, call, h]
  rfl

/-- An error in the first atom is that of the comparison, if no sign stands before it. -/
theorem comparison_eq_error {e : EvalError} (hsign : signOp? (peek tokens) = none)
    (h : atom below tokens = .error e) : comparison below tokens = .error e := by
  simp only [comparison, sum, term, chain, unary, hsign, power_eq_error h]
  rfl

/-- An error in the first atom is that of the whole expression, if neither a sign nor `not` stands
before it. -/
theorem conditional_eq_error {e : EvalError} (hsign : signOp? (peek tokens) = none)
    (hnot : isKeyword "not" tokens = false) (h : atom below tokens = .error e) :
    conditional below tokens = .error e := by
  simp only [conditional, disjunction, conjunction, negation, chain, hnot,
    comparison_eq_error hsign h]
  rfl

/-- No atom begins with a sign. -/
theorem atom_eq_error_of_sign (below : Rule → Parser Tree) {op : UnaryOp}
    (h : signOp? (peek tokens) = some op) : ∃ e, atom below tokens = .error e := by
  obtain ⟨hpeek, hsign⟩ := signOp?_eq_some_iff.1 h
  cases op with
  | not => exact absurd rfl hsign
  | _ => exact ⟨_, by rw [atom, hpeek]; rfl⟩

/-- No atom begins with `not`. -/
theorem atom_eq_error_of_not (below : Rule → Parser Tree) (h : peek tokens = .ident "not") :
    ∃ e, atom below tokens = .error e :=
  ⟨_, by rw [atom, h]; rfl⟩

/-- No expression begins with a closing parenthesis. -/
theorem nested_eq_error_of_rightParen (depth : Nat) (h : peek tokens = .rightParen) :
    ∃ e, nested depth .expression tokens = .error e := by
  cases depth with
  | zero => exact ⟨_, rfl⟩
  | succ depth =>
    refine ⟨_, conditional_eq_error ?_ (isKeyword_eq_false ?_) (by rw [atom, h]; rfl)⟩
    · rw [h]
      rfl
    · rw [h]
      nofun

/-- **A row of a level is read by the next looser rule too**, when it is complete there. -/
theorem rule_of_tighter (hlevel : level.tighter? = some tight)
    (h : tight.rule below tokens = .ok (t, rest)) (hends : level.Ends (peek rest)) :
    level.rule below tokens = .ok (t, rest) := by
  cases level <;> cases hlevel
  case expression =>
    have hif : isKeyword "if" rest = false := isKeyword_eq_false (hends.ne rfl le_rfl)
    have hdisjunction : disjunction below tokens = .ok (t, rest) := h
    show conditional below tokens = _
    simp only [conditional, hdisjunction, bind, Except.bind, hif]
    rfl
  case disjunction => exact chain_stop h hends.op?_eq_none
  case conjunction => exact chain_stop h hends.op?_eq_none
  case negation =>
    -- A comparison begins with an atom or a sign, and `not` is neither.
    have hnot : isKeyword "not" tokens = false := isKeyword_eq_false fun hpeek => by
      obtain ⟨e, he⟩ := atom_eq_error_of_not below hpeek
      have hfail := comparison_eq_error (by rw [hpeek]; rfl) he
      rw [Level.rule, hfail] at h
      cases h
    show negation below tokens = _
    rw [negation, hnot]
    exact h
  case comparison =>
    have hsum : sum below tokens = .ok (t, rest) := h
    have hstop : comparisons (sum below) rest.length rest = .ok ([], rest) := by
      cases rest.length with
      | zero => rfl
      | succ turns => rw [comparisons, compareOp?_eq_none hends]
    show comparison below tokens = _
    simp only [comparison, hsum, hstop, bind, Except.bind]
    rfl
  case sum => exact chain_stop h hends.op?_eq_none
  case term => exact chain_stop h hends.op?_eq_none
  case unary =>
    have hsign : signOp? (peek tokens) = none := by
      cases hop : signOp? (peek tokens) with
      | none => rfl
      | some op =>
        obtain ⟨e, he⟩ := atom_eq_error_of_sign below hop
        rw [Level.rule, power_eq_error he] at h
        cases h
    show unary below tokens = _
    rw [unary, hsign]
    exact h
  case power =>
    have hstar : peek rest ≠ .doubleStar := hends.ne rfl le_rfl
    have hcall : call below tokens = .ok (t, rest) := h
    show power below tokens = _
    simp only [power, hcall, bind, Except.bind]
  case call =>
    have hparen : peek rest ≠ .leftParen := hends.ne rfl le_rfl
    have hatom : atom below tokens = .ok (t, rest) := h
    show call below tokens = _
    simp only [call, hatom, bind, Except.bind]
    split
    · contradiction
    · rfl

end

/-! ## Productions -/

/-- The rule of a level, nested so deep, reads the row as the tree wherever it is complete. -/
def Parses (depth : Nat) (level : Level) (ts : List TokenKind) (t : Tree) : Prop :=
  ∀ ⦃tokens rest : List Token⦄, kinds tokens = ts → level.Ends (peek rest) →
    level.rule (nested depth) (tokens ++ rest) = .ok (t, rest)

/-- So does a rule that counts towards nesting, when so many levels of it are left. -/
def ParsesBelow (depth : Nat) (rule : Rule) (ts : List TokenKind) (t : Tree) : Prop :=
  ∀ ⦃tokens rest : List Token⦄, kinds tokens = ts → rule.level.Ends (peek rest) →
    nested depth rule (tokens ++ rest) = .ok (t, rest)

section

variable {depth : Nat} {ts : List TokenKind} {t : Tree}

/-- What a tighter level reads, a looser one reads. -/
theorem Parses.tighter (hlevel : level.tighter? = some tight) (h : Parses depth tight ts t) :
    Parses depth level ts t := fun _ _ hkinds hends =>
  rule_of_tighter hlevel (h hkinds (hends.tighter hlevel)) hends

/-- **Every looser level reads the row.** -/
theorem Parses.of_rank_le {level tight : Level} (hrank : level.rank ≤ tight.rank)
    (h : Parses depth tight ts t) : Parses depth level ts t := by
  rcases hrank.eq_or_lt with heq | hlt
  · rwa [Level.rank_injective heq]
  · obtain ⟨next, hnext, hle⟩ := Level.exists_tighter hlt
    have hsucc := Level.tighter?_eq_some_iff.1 hnext
    exact (Parses.of_rank_le hle h).tighter hnext
termination_by tight.rank - level.rank

/-- The rule that is one deeper reads its level. -/
theorem Parses.below (rule : Rule) (h : Parses depth rule.level ts t) :
    ParsesBelow (depth + 1) rule ts t := by
  cases rule <;> exact h

/-! ### Atoms -/

/-- An atom of one token. -/
theorem parses_token {k : TokenKind}
    (h : ∀ below token rest, token.kind = k → atom below (token :: rest) = .ok (t, rest)) :
    Parses depth .atom [k] t := by
  intro tokens rest hkinds _
  obtain ⟨token, rfl, hkind⟩ := List.map_eq_singleton_iff.1 hkinds
  exact h _ token rest hkind

theorem parses_int (n : Int64) : Parses depth .atom [.int n] (.literal (.int n)) :=
  parses_token fun below token rest hkind => by simp [atom, peek, hkind]

theorem parses_float (x : Float) : Parses depth .atom [.float x] (.literal (.float x)) :=
  parses_token fun below token rest hkind => by simp [atom, peek, hkind]

theorem parses_str (s : String) : Parses depth .atom [.str s] (.literal (.str s)) :=
  parses_token fun below token rest hkind => by simp [atom, peek, hkind]

theorem parses_bool {word : String} {b : Bool} (h : word ∈ boolSpellings b) :
    Parses depth .atom [.ident word] (.literal (.bool b)) :=
  parses_token fun below token rest hkind => by
    cases b <;> simp only [boolSpellings, List.mem_cons, List.not_mem_nil, or_false] at h <;>
      rcases h with rfl | rfl <;> simp [atom, peek, hkind]

/-- A word that is no keyword is read as a name. -/
theorem parses_name {word : String} (h : IsName word) :
    Parses depth .atom [.ident word] (.name word) :=
  parses_token fun below token rest hkind => by
    simp only [IsName, List.mem_cons, List.not_mem_nil, or_false, not_or] at h
    simp [atom, peek, hkind, isReserved, h]

/-- Parentheses change nothing but the level. -/
theorem parses_group (h : ParsesBelow depth .expression ts t) :
    Parses depth .atom (.leftParen :: ts ++ [.rightParen]) t := by
  intro tokens rest hkinds _
  obtain ⟨opening, tail, rfl, hopening, htail⟩ := List.map_eq_cons_iff.1 hkinds
  obtain ⟨inner, last, rfl, hinner, hlast⟩ := List.map_eq_append_iff.1 htail
  obtain ⟨closing, rfl, hclosing⟩ := List.map_eq_singleton_iff.1 hlast
  have hrun : nested depth .expression (inner ++ closing :: rest) = .ok (t, closing :: rest) :=
    h hinner (ends_of_continues?_none (congrArg _ hclosing))
  show atom (nested depth) (opening :: (inner ++ [closing]) ++ rest) = _
  simp [atom, peek, hopening, hrun, bind, Except.bind, closeParen, hclosing]

/-! ### Operators before and between operands -/

theorem parses_not (h : ParsesBelow depth .negation ts t) :
    Parses depth .negation (.ident "not" :: ts) (.unary .not t) := by
  intro tokens rest hkinds hends
  obtain ⟨token, tail, rfl, hkind, htail⟩ := List.map_eq_cons_iff.1 hkinds
  have hrun : nested depth .negation (tail ++ rest) = .ok (t, rest) := h htail hends
  show negation (nested depth) (token :: tail ++ rest) = _
  simp [negation, isKeyword, peek, hkind, hrun, bind, Except.bind]

theorem parses_sign {op : UnaryOp} (hop : op.IsSign) (h : ParsesBelow depth .unary ts t) :
    Parses depth .unary (op.token :: ts) (.unary op t) := by
  intro tokens rest hkinds hends
  obtain ⟨token, tail, rfl, hkind, htail⟩ := List.map_eq_cons_iff.1 hkinds
  have hsign : signOp? (peek (token :: (tail ++ rest))) = some op :=
    signOp?_eq_some_iff.2 ⟨hkind, hop⟩
  have hrun : nested depth .unary (tail ++ rest) = .ok (t, rest) := h htail hends
  show unary (nested depth) (token :: (tail ++ rest)) = _
  simp [unary, hsign, hrun, bind, Except.bind]

variable {us : List TokenKind} {u : Tree}

/-- The exponent is read a level of nesting deeper than the base. -/
theorem parses_power (hbase : Parses depth .call ts t) (hexponent : ParsesBelow depth .unary us u) :
    Parses depth .power (ts ++ .doubleStar :: us) (.binary .pow t u) := by
  intro tokens rest hkinds hends
  obtain ⟨front, back, rfl, hfront, hback⟩ := List.map_eq_append_iff.1 hkinds
  obtain ⟨star, tail, rfl, hstar, htail⟩ := List.map_eq_cons_iff.1 hback
  have hcall : call (nested depth) (front ++ star :: (tail ++ rest)) =
      .ok (t, star :: (tail ++ rest)) :=
    hbase hfront (ends_of_continues? (congrArg _ hstar) (by decide))
  have hunary : nested depth .unary (tail ++ rest) = .ok (u, rest) :=
    hexponent htail hends.unary_of_power
  show power (nested depth) (front ++ star :: tail ++ rest) = _
  simp [power, hcall, peek, hstar, hunary, bind, Except.bind]

/-- The condition stands between the two values, and the tree begins with it. -/
theorem parses_conditional {cs : List TokenKind} {c : Tree}
    (hvalue : Parses depth .disjunction ts t)
    (hcondition : Parses depth .disjunction cs c)
    (hotherwise : ParsesBelow depth .expression us u) :
    Parses depth .expression (ts ++ .ident "if" :: cs ++ .ident "else" :: us)
      (.conditional c t u) := by
  intro tokens rest hkinds hends
  obtain ⟨head, back, rfl, hhead, hback⟩ := List.map_eq_append_iff.1 hkinds
  obtain ⟨front, middle, rfl, hfront, hmiddle⟩ := List.map_eq_append_iff.1 hhead
  obtain ⟨ifToken, between, rfl, hif, hbetween⟩ := List.map_eq_cons_iff.1 hmiddle
  obtain ⟨elseToken, tail, rfl, helse, htail⟩ := List.map_eq_cons_iff.1 hback
  have hfirst : disjunction (nested depth)
      (front ++ ifToken :: (between ++ elseToken :: (tail ++ rest))) =
      .ok (t, ifToken :: (between ++ elseToken :: (tail ++ rest))) :=
    hvalue hfront (ends_of_continues? (congrArg _ hif) (by decide))
  have hsecond : disjunction (nested depth) (between ++ elseToken :: (tail ++ rest)) =
      .ok (c, elseToken :: (tail ++ rest)) :=
    hcondition hbetween (ends_of_continues?_none (congrArg _ helse))
  have hlast : nested depth .expression (tail ++ rest) = .ok (u, rest) :=
    hotherwise htail hends
  show Expr.conditional (nested depth) _ = _
  simp [Expr.conditional, hfirst, hsecond, hlast, isKeyword, peek, hif, helse, bind, Except.bind]

/-! ### Operands joined to the left -/

/-- Behind the row the loop of a level has joined the tree, and has turns for all that follows. -/
def Joins (depth : Nat) (level tight : Level) (ts : List TokenKind) (t : Tree) : Prop :=
  ∀ ⦃tokens rest : List Token⦄, kinds tokens = ts → tight.Ends (peek rest) →
    ∃ turns, rest.length ≤ turns ∧ chain level.op? (tight.rule (nested depth)) (tokens ++ rest) =
      chainOnto level.op? (tight.rule (nested depth)) turns t rest

/-- An operand alone is a chain without operators. -/
theorem Parses.joins (level : Level) (h : Parses depth tight ts t) : Joins depth level tight ts t :=
  fun tokens rest hkinds hends =>
    ⟨rest.length, le_rfl, by rw [chain, h hkinds hends]; rfl⟩

section

variable {op : BinaryOp} (hop : op.level? = some level) (hlevel : level.tighter? = some tight)

include hop hlevel

theorem rule_eq_chain (below : Rule → Parser Tree) :
    level.rule below = chain level.op? (tight.rule below) := by
  cases op <;> cases hop <;> cases hlevel <;> rfl

/-- One more operand is joined. -/
theorem Joins.join (hleft : Joins depth level tight ts t) (hright : Parses depth tight us u) :
    Joins depth level tight (ts ++ op.token :: us) (.binary op t u) := by
  intro tokens rest hkinds hends
  obtain ⟨front, back, rfl, hfront, hback⟩ := List.map_eq_append_iff.1 hkinds
  obtain ⟨token, tail, rfl, htoken, htail⟩ := List.map_eq_cons_iff.1 hback
  have hcontinues : (peek (token :: (tail ++ rest))).continues? = some level :=
    (congrArg _ htoken).trans (BinaryOp.continues?_token hop)
  have hbetween : tight.Ends (peek (token :: (tail ++ rest))) :=
    ends_of_continues? hcontinues (Level.rank_lt_of_tighter? hlevel)
  obtain ⟨turns, hturns, hrun⟩ := hleft hfront hbetween
  have htakes : level.op? (peek (token :: (tail ++ rest))) = some op :=
    Level.op?_eq_some_iff.2 ⟨htoken, hop⟩
  simp only [List.length_cons, List.length_append] at hturns
  -- One turn goes to the operator; the others still suffice, for a token less is left.
  obtain ⟨fewer, rfl⟩ : ∃ fewer, turns = fewer + 1 := ⟨turns - 1, by omega⟩
  refine ⟨fewer, by omega, ?_⟩
  have htokens : front ++ token :: tail ++ rest = front ++ token :: (tail ++ rest) := by simp
  rw [htokens, hrun, chainOnto, htakes]
  simp only [List.tail_cons, hright htail hends, bind, Except.bind]

/-- The loop ends where the row is complete. -/
theorem Joins.parses (h : Joins depth level tight ts t) : Parses depth level ts t :=
  fun tokens rest hkinds hends => by
    obtain ⟨turns, -, hrun⟩ := h hkinds (hends.tighter hlevel)
    rw [rule_eq_chain hop hlevel, hrun]
    exact chainOnto_stop hends.op?_eq_none _ _

end

/-! ### Comparisons -/

/-- Each link has an operator at least. -/
theorem length_le_chainTokens (links : List (CompareOp × List TokenKind × Tree)) :
    links.length ≤ (chainTokens links).length := by
  induction links with
  | nil => exact Nat.zero_le _
  | cons link links ih =>
    rw [chainTokens_cons]
    simp only [List.length_append, List.length_cons]
    omega

/-- Behind an operand stands the next operator, or what ends the whole chain. -/
theorem ends_sum_of_chainTokens {links : List (CompareOp × List TokenKind × Tree)}
    {tokens rest : List Token} (hkinds : kinds tokens = chainTokens links)
    (hends : Level.comparison.Ends (peek rest)) : Level.sum.Ends (peek (tokens ++ rest)) := by
  cases links with
  | nil =>
    obtain rfl : tokens = [] := List.map_eq_nil_iff.1 hkinds
    exact hends.mono (by decide)
  | cons link links =>
    obtain ⟨op, us, u⟩ := link
    rw [chainTokens_cons, List.cons_append] at hkinds
    obtain ⟨token, _, rfl, hkind, _⟩ := List.map_eq_cons_iff.1 hkinds
    exact ends_of_continues? ((congrArg _ hkind).trans op.continues?_token) (by decide)

/-- Comparisons are read to the end when there is a turn for each. -/
theorem comparisons_of_parses {links : List (CompareOp × List TokenKind × Tree)}
    (hlinks : ∀ link ∈ links, Parses depth .sum link.2.1 link.2.2) {turns : Nat}
    (hturns : links.length ≤ turns) {tokens rest : List Token}
    (hkinds : kinds tokens = chainTokens links) (hends : Level.comparison.Ends (peek rest)) :
    comparisons (sum (nested depth)) turns (tokens ++ rest) =
      .ok (links.map fun link => (link.1, link.2.2), rest) := by
  induction links generalizing turns tokens with
  | nil =>
    obtain rfl : tokens = [] := List.map_eq_nil_iff.1 hkinds
    cases turns with
    | zero => rfl
    | succ turns => rw [List.nil_append, comparisons, compareOp?_eq_none hends]; rfl
  | cons link links ih =>
    obtain ⟨op, us, u⟩ := link
    obtain ⟨hfirst, hothers⟩ := List.forall_mem_cons.1 hlinks
    rw [chainTokens_cons] at hkinds
    obtain ⟨head, back, rfl, hhead, hback⟩ := List.map_eq_append_iff.1 hkinds
    obtain ⟨token, front, rfl, htoken, hfront⟩ := List.map_eq_cons_iff.1 hhead
    cases turns with
    | zero => cases hturns
    | succ turns =>
      have hop : compareOp? (peek (token :: (front ++ (back ++ rest)))) = some op :=
        compareOp?_eq_some_iff.2 htoken
      have hsum : sum (nested depth) (front ++ (back ++ rest)) = .ok (u, back ++ rest) :=
        hfirst hfront (ends_sum_of_chainTokens hback hends)
      have hrest := ih hothers (Nat.le_of_succ_le_succ hturns) hback
      have htokens : token :: front ++ back ++ rest = token :: (front ++ (back ++ rest)) := by simp
      rw [htokens, comparisons, hop]
      simp only [List.tail_cons, hsum, hrest, bind, Except.bind, List.map_cons]

/-- A chain of comparisons is one tree, with its links in order. -/
theorem parses_compare {links : List (CompareOp × List TokenKind × Tree)}
    (hfirst : Parses depth .sum ts t) (hne : links ≠ [])
    (hlinks : ∀ link ∈ links, Parses depth .sum link.2.1 link.2.2) :
    Parses depth .comparison (ts ++ chainTokens links)
      (.compare t (links.map fun link => (link.1, link.2.2))) := by
  intro tokens rest hkinds hends
  obtain ⟨front, back, rfl, hfront, hback⟩ := List.map_eq_append_iff.1 hkinds
  have hsum : sum (nested depth) (front ++ (back ++ rest)) = .ok (t, back ++ rest) :=
    hfirst hfront (ends_sum_of_chainTokens hback hends)
  have hturns : links.length ≤ (back ++ rest).length := by
    have hlength := length_le_chainTokens links
    rw [← hback, List.length_map] at hlength
    rw [List.length_append]
    omega
  have hcomparisons := comparisons_of_parses hlinks hturns hback hends
  have hnonempty : (links.map fun link => (link.1, link.2.2)).isEmpty = false := by simpa using hne
  show comparison (nested depth) (front ++ back ++ rest) = _
  simp only [comparison, List.append_assoc, hsum, hcomparisons, hnonempty, bind, Except.bind]
  rfl

/-! ### Calls -/

/-- There is at most one argument more than there are tokens. -/
theorem length_le_argTokens (args : List (List TokenKind × Tree)) :
    args.length ≤ (argTokens args).length + 1 := by
  induction args with
  | nil => exact Nat.zero_le _
  | cons arg args ih =>
    cases args with
    | nil => exact Nat.le_add_left _ _
    | cons next args =>
      rw [argTokens_cons_cons]
      simp only [List.length_append, List.length_cons] at ih ⊢
      omega

/-- Arguments are read to the parenthesis behind them when there is a turn for each. -/
theorem arguments_of_parses : ∀ {args : List (List TokenKind × Tree)}, args ≠ [] →
    (∀ arg ∈ args, ParsesBelow depth .expression arg.1 arg.2) →
    ∀ {turns : Nat}, args.length ≤ turns → ∀ {tokens rest : List Token},
      kinds tokens = argTokens args → peek rest = .rightParen →
      arguments (nested depth .expression) turns (tokens ++ rest) =
        .ok (args.map (·.2), rest)
  | [arg], _, hargs, turns + 1, _, tokens, rest, hkinds, hpeek => by
    have hrun : nested depth .expression (tokens ++ rest) = .ok (arg.2, rest) :=
      hargs arg List.mem_cons_self (hkinds.trans (argTokens_singleton arg))
        (ends_of_continues?_none (congrArg _ hpeek))
    simp [arguments, hrun, hpeek, bind, Except.bind]
  | arg :: next :: args, _, hargs, turns + 1, hturns, tokens, rest, hkinds, hpeek => by
    obtain ⟨hfirst, hothers⟩ := List.forall_mem_cons.1 hargs
    rw [argTokens_cons_cons] at hkinds
    obtain ⟨front, back, rfl, hfront, hback⟩ := List.map_eq_append_iff.1 hkinds
    obtain ⟨comma, tail, rfl, hcomma, htail⟩ := List.map_eq_cons_iff.1 hback
    have hrun : nested depth .expression (front ++ comma :: (tail ++ rest)) =
        .ok (arg.2, comma :: (tail ++ rest)) :=
      hfirst hfront (ends_of_continues?_none (congrArg _ hcomma))
    have hrest := arguments_of_parses (List.cons_ne_nil _ _) hothers
      (Nat.le_of_succ_le_succ hturns) htail hpeek
    have hpeekComma : peek (comma :: (tail ++ rest)) = .comma := hcomma
    have htokens : front ++ comma :: tail ++ rest = front ++ comma :: (tail ++ rest) := by simp
    rw [htokens, arguments]
    simp only [hrun, hpeekComma, List.tail_cons, hrest, bind, Except.bind, List.map_cons]

/-- The arguments of a call are read up to its parenthesis. -/
theorem callArguments_of_parses {args : List (List TokenKind × Tree)}
    (hargs : ∀ arg ∈ args, ParsesBelow depth .expression arg.1 arg.2) {tokens rest : List Token}
    (hkinds : kinds tokens = argTokens args) {closing : Token}
    (hclosing : closing.kind = .rightParen) :
    callArguments (nested depth) (tokens ++ closing :: rest) = .ok (args.map (·.2), rest) := by
  have hpeek : peek (closing :: rest) = .rightParen := hclosing
  cases args with
  | nil =>
    obtain rfl : tokens = [] := List.map_eq_nil_iff.1 hkinds
    simp [callArguments, hpeek, closeParen, bind, Except.bind]
  | cons arg args =>
    have hturns : (arg :: args).length ≤ (tokens ++ closing :: rest).length + 1 := by
      have hlength := length_le_argTokens (arg :: args)
      rw [← hkinds, List.length_map] at hlength
      rw [List.length_append]
      omega
    have hrun := arguments_of_parses (List.cons_ne_nil arg args) hargs hturns hkinds hpeek
    have hne : peek (tokens ++ closing :: rest) ≠ .rightParen := fun hparen => by
      obtain ⟨e, he⟩ := nested_eq_error_of_rightParen depth hparen
      rw [arguments, he] at hrun
      cases hrun
    unfold callArguments
    split
    · contradiction
    · simp only [hrun, hpeek, closeParen, List.tail_cons, bind, Except.bind]

/-- A call of a name, whatever its arguments are. -/
theorem parses_call {function : String} {args : List (List TokenKind × Tree)}
    (hfunction : IsName function)
    (hargs : ∀ arg ∈ args, ParsesBelow depth .expression arg.1 arg.2) :
    Parses depth .call (.ident function :: .leftParen :: argTokens args ++ [.rightParen])
      (.call function (args.map (·.2))) := by
  intro tokens rest hkinds _
  obtain ⟨head, last, rfl, hhead, hlast⟩ := List.map_eq_append_iff.1 hkinds
  obtain ⟨name, back, rfl, hname, hback⟩ := List.map_eq_cons_iff.1 hhead
  obtain ⟨opening, inner, rfl, hopening, hinner⟩ := List.map_eq_cons_iff.1 hback
  obtain ⟨closing, rfl, hclosing⟩ := List.map_eq_singleton_iff.1 hlast
  have hatom : atom (nested depth) (name :: opening :: (inner ++ closing :: rest)) =
      .ok (.name function, opening :: (inner ++ closing :: rest)) := by
    refine parses_name hfunction (List.map_eq_singleton_iff.2 ⟨name, rfl, hname⟩) ?_
    exact ends_of_continues? (congrArg _ hopening) (by decide)
  have hrun : callArguments (nested depth) (inner ++ closing :: rest) =
      .ok (args.map (·.2), rest) := callArguments_of_parses hargs hinner hclosing
  show call (nested depth) _ = _
  simp [call, hatom, peek, hopening, hrun, bind, Except.bind]

/-! ## Whole rows -/

/-- **A row that is an expression** is read as its tree. -/
theorem parseTokens_of_parses {ts : List TokenKind} {t : Tree} {tokens : List Token}
    (h : Parses (maxDepth - 1) .expression ts t) (hkinds : kinds tokens = ts ++ [.stop]) :
    parseTokens tokens = .ok t := by
  obtain ⟨row, last, rfl, hrow, hlast⟩ := List.map_eq_append_iff.1 hkinds
  obtain ⟨stop, rfl, hstop⟩ := List.map_eq_singleton_iff.1 hlast
  have hrun : nested maxDepth .expression (row ++ [stop]) = .ok (t, [stop]) :=
    h.below .expression hrow (ends_of_continues?_none (congrArg _ hstop))
  have hpeek : peek [stop] = .stop := hstop
  simp only [parseTokens, hrun, hpeek, bind, Except.bind]

end

end LaunchFile.Expr
