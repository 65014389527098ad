import LaunchFile.Proofs.Expr.Complete

/-!
# Proofs/Expr/RoundTrip — reading undoes writing

`Tree.tokens` writes a tree with parentheses only around operands that are looser than their place
allows. The parser reads it back as the same tree (`parseTokens_tokens`), when half of the bound on
nesting is enough for its height: each step down passes at most one rule that counts, and the
parentheses around an operand one more.
-/

namespace LaunchFile.Expr

/-! ## Places and levels -/

/-- The level of a sign or of `not`, and of its operand. -/
def UnaryOp.level : UnaryOp → Level
  | .not => .negation
  | .neg | .pos => .unary

/-- The levels of the left and the right operand. -/
def BinaryOp.operandLevels : BinaryOp → Level × Level
  | .or => (.disjunction, .conjunction)
  | .and => (.conjunction, .negation)
  | .add | .sub => (.sum, .term)
  | .mul | .div | .floorDiv | .mod => (.term, .unary)
  | .pow => (.call, .unary)

/-- The tightest level at which a tree stands without parentheses. -/
def Tree.level : Tree → Level
  | .literal _ | .name _ => .atom
  | .unary op _ => op.level
  | .binary op _ _ => op.level?.getD .power
  | .compare _ _ => .comparison
  | .conditional _ _ _ => .expression
  | .call _ _ => .call

/-! ## Writing -/

/-- Parentheses around the row of a tree that is looser than its place demands. -/
def enclose (demanded own : Level) (row : List TokenKind) : List TokenKind :=
  if own.rank < demanded.rank then .leftParen :: row ++ [.rightParen] else row

section

variable (spell : Bool → String)

/-- The token of a literal. -/
def Value.token : Value → TokenKind
  | .int n => .int n
  | .float x => .float x
  | .str s => .str s
  | .bool b => .ident (spell b)

mutual

/-- The tokens of a tree, without parentheses around the whole of it; `spell` is how booleans are
written. -/
def Tree.tokens : Tree → List TokenKind
  | .literal value => [value.token spell]
  | .name name => [.ident name]
  | .unary op t => op.token :: enclose op.level t.level t.tokens
  | .binary op l r => enclose op.operandLevels.1 l.level l.tokens ++
      op.token :: enclose op.operandLevels.2 r.level r.tokens
  | .compare first rest => enclose .sum first.level first.tokens ++ chainTokens (linkRows rest)
  | .conditional c t e => enclose .disjunction t.level t.tokens ++
      .ident "if" :: enclose .disjunction c.level c.tokens ++
      .ident "else" :: enclose .expression e.level e.tokens
  | .call function args =>
    .ident function :: .leftParen :: argTokens (argRows args) ++ [.rightParen]

/-- The rows of the operands of a comparison, each behind its operator. -/
def linkRows : List (CompareOp × Tree) → List (CompareOp × List TokenKind × Tree)
  | [] => []
  | (op, t) :: rest => (op, enclose .sum t.level t.tokens, t) :: linkRows rest

/-- The rows of arguments. -/
def argRows : List Tree → List (List TokenKind × Tree)
  | [] => []
  | t :: rest => (enclose .expression t.level t.tokens, t) :: argRows rest

end

end

/-! ## Trees that can be written -/

/-- Names and functions are names of the language, and a comparison compares something. -/
inductive IsWritable : Tree → Prop where
  | literal (value : Value) : IsWritable (.literal value)
  | name {name : String} (h : IsName name) : IsWritable (.name name)
  | unary (op : UnaryOp) {t : Tree} (h : IsWritable t) : IsWritable (.unary op t)
  | binary (op : BinaryOp) {l r : Tree} (hleft : IsWritable l) (hright : IsWritable r) :
    IsWritable (.binary op l r)
  | compare {first : Tree} {rest : List (CompareOp × Tree)} (hfirst : IsWritable first)
    (hne : rest ≠ []) (hrest : ∀ link ∈ rest, IsWritable link.2) :
    IsWritable (.compare first rest)
  | conditional {c t e : Tree} (hcondition : IsWritable c) (hvalue : IsWritable t)
    (hotherwise : IsWritable e) : IsWritable (.conditional c t e)
  | call {function : String} {args : List Tree} (h : IsName function)
    (hargs : ∀ arg ∈ args, IsWritable arg) : IsWritable (.call function args)

mutual

/-- The number of steps from a tree down to its farthest leaf. -/
def Tree.height : Tree → Nat
  | .literal _ | .name _ => 0
  | .unary _ t => t.height + 1
  | .binary _ l r => max (l.height + 1) (r.height + 1)
  | .compare first rest => max (first.height + 1) (linksHeight rest)
  | .conditional c t e => max (c.height + 1) (max (t.height + 1) (e.height + 1))
  | .call _ args => argsHeight args

/-- How high the operands of some links are. -/
def linksHeight : List (CompareOp × Tree) → Nat
  | [] => 0
  | (_, t) :: rest => max (t.height + 1) (linksHeight rest)

/-- How high some arguments are. -/
def argsHeight : List Tree → Nat
  | [] => 0
  | t :: rest => max (t.height + 1) (argsHeight rest)

end

/-- Each operand is lower than its comparison. -/
theorem height_lt_linksHeight {link : CompareOp × Tree} {rest : List (CompareOp × Tree)}
    (h : link ∈ rest) : link.2.height < linksHeight rest := by
  induction rest with
  | nil => cases h
  | cons next rest ih =>
    rw [linksHeight]
    rcases List.mem_cons.1 h with rfl | h
    · omega
    · have := ih h
      omega

/-- Each argument is lower than its call. -/
theorem height_lt_argsHeight {arg : Tree} {args : List Tree} (h : arg ∈ args) :
    arg.height < argsHeight args := by
  induction args with
  | nil => cases h
  | cons next args ih =>
    rw [argsHeight]
    rcases List.mem_cons.1 h with rfl | h
    · omega
    · have := ih h
      omega

variable (spell : Bool → String)

/-- Each operand is enclosed where it has to be. -/
theorem linkRows_eq_map (rest : List (CompareOp × Tree)) : linkRows spell rest =
    rest.map fun link => (link.1, enclose .sum link.2.level (link.2.tokens spell), link.2) := by
  induction rest with
  | nil => rfl
  | cons link rest ih => rw [linkRows, ih, List.map_cons]

/-- Each argument is an expression, which is never enclosed. -/
theorem argRows_eq_map (args : List Tree) : argRows spell args =
    args.map fun arg => (enclose .expression arg.level (arg.tokens spell), arg) := by
  induction args with
  | nil => rfl
  | cons arg args ih => rw [argRows, ih, List.map_cons]

/-! ## Operands in their places -/

/-- The tokens of a tree are read back at this depth of nesting. -/
structure ReadsBackAt (depth : Nat) (t : Tree) : Prop where
  parses : Parses depth t.level (t.tokens spell) t
  joins : ∀ {op : BinaryOp} {tight : Level}, op.level? = some t.level →
    t.level.tighter? = some tight → Joins depth t.level tight (t.tokens spell) t

/-- The tokens of a tree are read back where its height still fits in. -/
def ReadsBack (t : Tree) : Prop :=
  ∀ depth, 2 * t.height ≤ depth → ReadsBackAt spell depth t

variable {spell} {depth : Nat} {t : Tree}

/-- What a level reads as its own is read back at it, if it is no chain. -/
theorem Parses.readsBackAt (h : Parses depth t.level (t.tokens spell) t)
    (hlevel : ∀ op : BinaryOp, op.level? ≠ some t.level) : ReadsBackAt spell depth t :=
  ⟨h, fun hop => absurd hop (hlevel _)⟩

/-- A tree in parentheses is read back as an atom, two levels deeper. -/
theorem parses_enclosed (h : ReadsBack spell t) (hdepth : 2 * t.height < depth) :
    Parses depth .atom (.leftParen :: t.tokens spell ++ [.rightParen]) t := by
  obtain ⟨outer, rfl⟩ : ∃ outer, depth = outer + 1 := ⟨depth - 1, by omega⟩
  have hinside : Parses outer .expression (t.tokens spell) t :=
    (h outer (by omega)).parses.of_rank_le (Nat.zero_le _)
  exact parses_group (hinside.below .expression)

/-- An operand is read in its place. -/
theorem parses_operand (h : ReadsBack spell t) (hdepth : 2 * t.height < depth) (level : Level) :
    Parses depth level (enclose level t.level (t.tokens spell)) t := by
  unfold enclose
  split
  · exact (parses_enclosed h hdepth).of_rank_le (by cases level <;> decide)
  · rename_i hrank
    exact (h depth hdepth.le).parses.of_rank_le (Nat.not_lt.1 hrank)

/-- So is an operand whose rule counts towards nesting. -/
theorem parsesBelow_operand (h : ReadsBack spell t) (hdepth : 2 * t.height + 1 < depth)
    (rule : Rule) : ParsesBelow depth rule (enclose rule.level t.level (t.tokens spell)) t := by
  obtain ⟨inner, rfl⟩ : ∃ inner, depth = inner + 1 := ⟨depth - 1, by omega⟩
  exact (parses_operand h (by omega) rule.level).below rule

/-- A left operand is joined with what follows, and so are its own operands. -/
theorem joins_operand (h : ReadsBack spell t) (hdepth : 2 * t.height < depth) {op : BinaryOp}
    {level tight : Level} (hop : op.level? = some level) (hlevel : level.tighter? = some tight) :
    Joins depth level tight (enclose level t.level (t.tokens spell)) t := by
  have htight := Level.tighter?_eq_some_iff.1 hlevel
  unfold enclose
  split
  · exact ((parses_enclosed h hdepth).of_rank_le (by cases tight <;> decide)).joins level
  · rename_i hrank
    have hback := h depth hdepth.le
    rcases (Nat.not_lt.1 hrank).eq_or_lt with heq | hlt
    · have hsame := Level.rank_injective heq
      rw [hsame] at hop hlevel ⊢
      exact hback.joins hop hlevel
    · exact (hback.parses.of_rank_le (by omega)).joins level

/-! ## Trees -/

/-- A literal is read back from its token. -/
theorem parses_value (hspell : ∀ b, spell b ∈ boolSpellings b) (value : Value) :
    Parses depth .atom [value.token spell] (.literal value) := by
  cases value with
  | int n => exact parses_int n
  | float x => exact parses_float x
  | bool b => exact parses_bool (hspell b)
  | str s => exact parses_str s

/-- A unary tree is read back if its operand is. -/
theorem readsBack_unary (op : UnaryOp) (h : ReadsBack spell t) : ReadsBack spell (.unary op t) := by
  intro depth hdepth
  rw [Tree.height] at hdepth
  have hoperand (rule : Rule) :
      ParsesBelow depth rule (enclose rule.level t.level (t.tokens spell)) t :=
    parsesBelow_operand h (by omega) rule
  have hparses : Parses depth op.level (op.token :: enclose op.level t.level (t.tokens spell))
      (.unary op t) := by
    cases op with
    | not => exact parses_not (hoperand .negation)
    | neg => exact parses_sign nofun (hoperand .unary)
    | pos => exact parses_sign nofun (hoperand .unary)
  refine hparses.readsBackAt fun other => ?_
  cases op <;> cases other <;> nofun

/-- A binary tree is read back if its operands are. -/
theorem readsBack_binary (op : BinaryOp) {l r : Tree} (hleft : ReadsBack spell l)
    (hright : ReadsBack spell r) : ReadsBack spell (.binary op l r) := by
  intro depth hdepth
  rw [Tree.height] at hdepth
  have hfits : 2 * l.height < depth ∧ 2 * r.height < depth := by omega
  cases hop : op.level? with
  | none =>
    obtain rfl : op = .pow := by cases op <;> first | rfl | cases hop
    have hparses := parses_power (parses_operand hleft hfits.1 .call)
      (parsesBelow_operand hright (by omega) .unary)
    exact hparses.readsBackAt nofun
  | some level =>
    obtain ⟨tight, hlevel⟩ : ∃ tight, level.tighter? = some tight := by
      cases op <;> cases hop <;> exact ⟨_, rfl⟩
    have hplaces : op.operandLevels = (level, tight) := by
      cases op <;> cases hop <;> cases hlevel <;> rfl
    have htree : (Tree.binary op l r).level = level := by rw [Tree.level, hop]; rfl
    -- The left operand may be a chain of the same level, which the loop must not have left.
    have hjoined := (joins_operand hleft hfits.1 hop hlevel).join hop hlevel
      (parses_operand hright hfits.2 tight)
    constructor
    · rw [htree, Tree.tokens, hplaces]
      exact hjoined.parses hop hlevel
    · intro other next hother hnext
      rw [htree] at hother hnext ⊢
      rw [Tree.tokens, hplaces]
      cases hlevel.symm.trans hnext
      exact hjoined

/-- A comparison is read back if its operands are. -/
theorem readsBack_compare {first : Tree} {rest : List (CompareOp × Tree)}
    (hfirst : ReadsBack spell first) (hne : rest ≠ [])
    (hrest : ∀ link ∈ rest, ReadsBack spell link.2) : ReadsBack spell (.compare first rest) := by
  intro depth hdepth
  rw [Tree.height] at hdepth
  have hlinks : ∀ link ∈ linkRows spell rest, Parses depth .sum link.2.1 link.2.2 := by
    rw [linkRows_eq_map, List.forall_mem_map]
    intro link hlink
    have hlower := height_lt_linksHeight hlink
    exact parses_operand (hrest link hlink) (by omega) .sum
  have htree : (linkRows spell rest).map (fun link => (link.1, link.2.2)) = rest := by
    rw [linkRows_eq_map, List.map_map]
    exact List.map_id rest
  have hsome : linkRows spell rest ≠ [] := by simpa [linkRows_eq_map] using hne
  have hparses := parses_compare (parses_operand hfirst (by omega) .sum) hsome hlinks
  rw [htree] at hparses
  exact hparses.readsBackAt nofun

/-- A conditional is read back if its three parts are. -/
theorem readsBack_conditional {c e : Tree} (hcondition : ReadsBack spell c)
    (hvalue : ReadsBack spell t) (hotherwise : ReadsBack spell e) :
    ReadsBack spell (.conditional c t e) := by
  intro depth hdepth
  rw [Tree.height] at hdepth
  have hparses : Parses depth .expression ((Tree.conditional c t e).tokens spell)
      (.conditional c t e) :=
    parses_conditional (parses_operand hvalue (by omega) .disjunction)
      (parses_operand hcondition (by omega) .disjunction)
      (parsesBelow_operand hotherwise (by omega) .expression)
  exact hparses.readsBackAt nofun

/-- A call is read back if its arguments are. -/
theorem readsBack_call {function : String} {args : List Tree} (hname : IsName function)
    (hargs : ∀ arg ∈ args, ReadsBack spell arg) : ReadsBack spell (.call function args) := by
  intro depth hdepth
  rw [Tree.height] at hdepth
  have hrows : ∀ arg ∈ argRows spell args, ParsesBelow depth .expression arg.1 arg.2 := by
    rw [argRows_eq_map, List.forall_mem_map]
    intro arg harg
    have hlower := height_lt_argsHeight harg
    exact parsesBelow_operand (hargs arg harg) (by omega) .expression
  have htree : (argRows spell args).map (·.2) = args := by
    rw [argRows_eq_map, List.map_map]
    exact List.map_id args
  have hparses := parses_call hname hrows
  rw [htree] at hparses
  exact hparses.readsBackAt nofun

/-- **A tree that can be written is read back.** -/
theorem IsWritable.readsBack (hspell : ∀ b, spell b ∈ boolSpellings b) (h : IsWritable t) :
    ReadsBack spell t := by
  induction h with
  | literal value =>
    exact fun depth _ => (parses_value hspell value).readsBackAt nofun
  | name hname => exact fun depth _ => (parses_name hname).readsBackAt nofun
  | unary op _ ih => exact readsBack_unary op ih
  | binary op _ _ ihleft ihright => exact readsBack_binary op ihleft ihright
  | compare _ hne _ ihfirst ihrest => exact readsBack_compare ihfirst hne ihrest
  | conditional _ _ _ ihcondition ihvalue ihotherwise =>
    exact readsBack_conditional ihcondition ihvalue ihotherwise
  | call hname _ ihargs => exact readsBack_call hname ihargs

/-- **Reading undoes writing.** A tree that can be written, with a height of no more than 49, is
what its tokens are read as; booleans may be written in either of their spellings. -/
theorem parseTokens_tokens (hspell : ∀ b, spell b ∈ boolSpellings b) (h : IsWritable t)
    (hheight : 2 * t.height < maxDepth) {tokens : List Token}
    (hkinds : kinds tokens = t.tokens spell ++ [.stop]) : parseTokens tokens = .ok t := by
  have hparses : Parses (maxDepth - 1) .expression (t.tokens spell) t :=
    (h.readsBack hspell _ (by omega)).parses.of_rank_le (Nat.zero_le _)
  exact parseTokens_of_parses hparses hkinds

/-- A sign before a power, a sign in its exponent, and a sum as a factor. -/
theorem parseTokens_tokens_product :
    let spell : Bool → String := fun b => if b then "True" else "False"
    let t : Tree := .binary .mul (.unary .neg (.binary .pow (.name "a") (.unary .neg (.name "b"))))
      (.binary .add (.literal (.bool true)) (.name "c"))
    let ks : List TokenKind := [.minus, .ident "a", .doubleStar, .minus, .ident "b", .star,
      .leftParen, .ident "True", .plus, .ident "c", .rightParen]
    t.tokens spell = ks ∧
      parseTokens ((ks ++ [TokenKind.stop]).map fun k => ⟨k, 0⟩) = .ok t := by
  intro spell t ks
  have hspell : ∀ b, spell b ∈ boolSpellings b := by decide
  have hwritable : IsWritable t := .binary _ (.unary _ (.binary _ (.name (by decide))
    (.unary _ (.name (by decide))))) (.binary _ (.literal _) (.name (by decide)))
  have htokens : t.tokens spell = ks := rfl
  exact ⟨htokens, parseTokens_tokens hspell hwritable (by decide) (by rw [htokens]; rfl)⟩

end LaunchFile.Expr
