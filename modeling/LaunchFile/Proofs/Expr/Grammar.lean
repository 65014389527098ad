import Mathlib.Data.List.Chain
import LaunchFile.Expr.Parser
import LaunchFile.Proofs.Text.Parens

/-!
# Proofs/Expr/Grammar — the grammar of expressions

`Derives` says which rows of tokens a level of the grammar yields, and with which tree:

* expression: disjunction, or `disjunction if disjunction else expression`
* disjunction, conjunction, sum, term: operands of the next level joined by `or`, by `and`, by `+`
  and `-`, by `*`, `/`, `//` and `%`, to the left
* negation: `not` negation, or a comparison
* comparison: a sum, or a chain of sums joined by comparison operators
* unary: `-` or `+` before a unary, or a power
* power: a call, or `call ** unary`
* call: an atom, or a callee with arguments in parentheses
* atom: a literal, a name, or an expression in parentheses

What may stand for the function of a call is a parameter: a name and nothing else (`Callee.Bare`),
or a name in any number of parentheses (`Callee.Wrapped`). The two grammars yield the same rows
(`Derives.bare_of_wrapped`, `Derives.parensApart`) but for those where a closing parenthesis stands
directly before an opening one.
-/

namespace LaunchFile.Expr

/-! ## Levels -/

/-- The levels of the grammar, from the loosest to the tightest. -/
inductive Level where
  | expression
  | disjunction
  | conjunction
  | negation
  | comparison
  | sum
  | term
  | unary
  | power
  | call
  | atom
  deriving DecidableEq, Repr

/-- The next tighter level: each level yields all that the next one does. -/
def Level.tighter? : Level → Option Level
  | .expression => some .disjunction
  | .disjunction => some .conjunction
  | .conjunction => some .negation
  | .negation => some .comparison
  | .comparison => some .sum
  | .sum => some .term
  | .term => some .unary
  | .unary => some .power
  | .power => some .call
  | .call => some .atom
  | .atom => none

/-- The level at which an operator joins operands to the left; powers are joined by a rule of their
own. -/
def BinaryOp.level? : BinaryOp → Option Level
  | .or => some .disjunction
  | .and => some .conjunction
  | .add | .sub => some .sum
  | .mul | .div | .floorDiv | .mod => some .term
  | .pow => none

/-! ## Operators as tokens -/

/-- The token that an operator is written with. -/
def BinaryOp.token : BinaryOp → TokenKind
  | .add => .plus
  | .sub => .minus
  | .mul => .star
  | .div => .slash
  | .floorDiv => .doubleSlash
  | .mod => .percent
  | .pow => .doubleStar
  | .and => .ident "and"
  | .or => .ident "or"

/-- The token that a comparison is written with. -/
def CompareOp.token : CompareOp → TokenKind
  | .eq => .eqEq
  | .ne => .notEq
  | .lt => .lt
  | .le => .le
  | .gt => .gt
  | .ge => .ge

/-- The token that a unary operator is written with. -/
def UnaryOp.token : UnaryOp → TokenKind
  | .neg => .minus
  | .pos => .plus
  | .not => .ident "not"

/-- A sign is the operator of a unary; `not` belongs to negations. -/
def UnaryOp.IsSign (op : UnaryOp) : Prop :=
  op ≠ .not

/-- How a boolean may be spelled. -/
def boolSpellings : Bool → List String
  | true => ["True", "true"]
  | false => ["False", "false"]

/-- A word is a name when it is neither a keyword nor a boolean. -/
def IsName (word : String) : Prop :=
  word ∉ ["and", "or", "not", "if", "else", "True", "true", "False", "false"]

instance (word : String) : Decidable (IsName word) :=
  inferInstanceAs (Decidable (word ∉ _))

/-! ## Derivations -/

/-- What may stand for the function of a call. -/
abbrev Callee := List TokenKind → String → Prop

/-- The callee that the grammar asks for: a name by itself. -/
def Callee.Bare : Callee := fun ts function =>
  ts = [.ident function] ∧ IsName function

/-- The callee that the parser takes: a name in any number of parentheses. -/
inductive Callee.Wrapped : Callee where
  | name {function : String} (h : IsName function) : Wrapped [.ident function] function
  | group {ts : List TokenKind} {function : String} (h : Wrapped ts function) :
    Wrapped (.leftParen :: ts ++ [.rightParen]) function

/-- Operands with an operator before each of them. -/
def chainTokens (links : List (CompareOp × List TokenKind × Tree)) : List TokenKind :=
  links.flatMap fun link => link.1.token :: link.2.1

/-- Arguments with a comma between any two of them. -/
def argTokens (args : List (List TokenKind × Tree)) : List TokenKind :=
  [TokenKind.comma].intercalate (args.map (·.1))

/-- A level yields a row of tokens as a tree. -/
inductive Derives (callee : Callee) : Level → List TokenKind → Tree → Prop where
  | tighter {level tight : Level} {ts : List TokenKind} {t : Tree}
    (hlevel : level.tighter? = some tight) (h : Derives callee tight ts t) :
    Derives callee level ts t
  | conditional {ts cs es : List TokenKind} {t c e : Tree}
    (hvalue : Derives callee .disjunction ts t) (hcondition : Derives callee .disjunction cs c)
    (hotherwise : Derives callee .expression es e) :
    Derives callee .expression (ts ++ .ident "if" :: cs ++ .ident "else" :: es)
      (.conditional c t e)
  | join {op : BinaryOp} {level tight : Level} {ls rs : List TokenKind} {l r : Tree}
    (hop : op.level? = some level) (hlevel : level.tighter? = some tight)
    (hleft : Derives callee level ls l) (hright : Derives callee tight rs r) :
    Derives callee level (ls ++ op.token :: rs) (.binary op l r)
  | not {ts : List TokenKind} {t : Tree} (h : Derives callee .negation ts t) :
    Derives callee .negation (.ident "not" :: ts) (.unary .not t)
  | compare {ts : List TokenKind} {first : Tree} {links : List (CompareOp × List TokenKind × Tree)}
    (hfirst : Derives callee .sum ts first) (hne : links ≠ [])
    (hlinks : ∀ link ∈ links, Derives callee .sum link.2.1 link.2.2) :
    Derives callee .comparison (ts ++ chainTokens links)
      (.compare first (links.map fun link => (link.1, link.2.2)))
  | sign {op : UnaryOp} {ts : List TokenKind} {t : Tree} (hop : op.IsSign)
    (h : Derives callee .unary ts t) : Derives callee .unary (op.token :: ts) (.unary op t)
  | power {bs es : List TokenKind} {b e : Tree} (hbase : Derives callee .call bs b)
    (hexponent : Derives callee .unary es e) :
    Derives callee .power (bs ++ .doubleStar :: es) (.binary .pow b e)
  | call {fs : List TokenKind} {function : String} {args : List (List TokenKind × Tree)}
    (hcallee : callee fs function)
    (hargs : ∀ arg ∈ args, Derives callee .expression arg.1 arg.2) :
    Derives callee .call (fs ++ .leftParen :: argTokens args ++ [.rightParen])
      (.call function (args.map (·.2)))
  | int (n : Int64) : Derives callee .atom [.int n] (.literal (.int n))
  | float (x : Float) : Derives callee .atom [.float x] (.literal (.float x))
  | str (s : String) : Derives callee .atom [.str s] (.literal (.str s))
  | bool {word : String} {b : Bool} (h : word ∈ boolSpellings b) :
    Derives callee .atom [.ident word] (.literal (.bool b))
  | name {word : String} (h : IsName word) : Derives callee .atom [.ident word] (.name word)
  | group {ts : List TokenKind} {t : Tree} (h : Derives callee .expression ts t) :
    Derives callee .atom (.leftParen :: ts ++ [.rightParen]) t

/-! ## Rows of tokens -/

theorem chainTokens_cons (op : CompareOp) (ts : List TokenKind) (t : Tree)
    (links : List (CompareOp × List TokenKind × Tree)) :
    chainTokens ((op, ts, t) :: links) = op.token :: ts ++ chainTokens links :=
  List.flatMap_cons

@[simp] theorem argTokens_nil : argTokens [] = [] := rfl

@[simp] theorem argTokens_singleton (arg : List TokenKind × Tree) : argTokens [arg] = arg.1 :=
  List.intercalate_singleton

/-- Arguments are joined by commas. -/
@[simp] theorem argTokens_cons_cons (arg next : List TokenKind × Tree)
    (args : List (List TokenKind × Tree)) :
    argTokens (arg :: next :: args) = arg.1 ++ .comma :: argTokens (next :: args) := by
  simp [argTokens, List.intercalate_cons_cons]

/-- Arguments have what each of them has, when a comma in between keeps it. -/
theorem argTokens_induction {motive : List TokenKind → Prop} (hnil : motive [])
    (hcomma : ∀ {ts us}, motive ts → motive us → motive (ts ++ .comma :: us)) :
    ∀ {args : List (List TokenKind × Tree)}, (∀ arg ∈ args, motive arg.1) →
      motive (argTokens args)
  | [], _ => hnil
  | [arg], h => argTokens_singleton arg ▸ h arg List.mem_cons_self
  | arg :: next :: args, h => by
    rw [argTokens_cons_cons]
    exact hcomma (h arg List.mem_cons_self)
      (argTokens_induction hnil hcomma fun a ha => h a (List.mem_cons_of_mem _ ha))

/-- A chain has what each of its operands has, when an operator in between keeps it. -/
theorem chainTokens_induction {motive : List TokenKind → Prop}
    (hjoin : ∀ (op : CompareOp) {ts us}, motive ts → motive us → motive (ts ++ op.token :: us)) :
    ∀ {links : List (CompareOp × List TokenKind × Tree)} {first : List TokenKind}, motive first →
      (∀ link ∈ links, motive link.2.1) → motive (first ++ chainTokens links)
  | [], first, hfirst, _ => by simpa [chainTokens] using hfirst
  | (op, ts, t) :: links, first, hfirst, h => by
    have hnext : motive (first ++ op.token :: ts) := hjoin op hfirst (h _ List.mem_cons_self)
    have hrest := chainTokens_induction hjoin hnext fun l hl => h l (List.mem_cons_of_mem _ hl)
    rw [chainTokens_cons]
    simpa using hrest

variable {callee : Callee} {level : Level} {ts : List TokenKind} {t : Tree}

/-- What is read as a name is that name, in any number of parentheses. -/
theorem Derives.wrapped_of_name {function : String} (h : Derives callee level ts (.name function)) :
    Callee.Wrapped ts function := by
  generalize ht : Tree.name function = t at h
  induction h with
  | tighter _ _ ih => exact ih ht
  | name hname =>
    cases ht
    exact .name hname
  | group _ ih => exact .group (ih ht)
  | _ => cases ht

/-- Every tree has a token. -/
theorem Derives.ne_nil (h : Derives callee level ts t) : ts ≠ [] := by
  induction h with
  | tighter _ _ ih => exact ih
  | compare _ _ _ ih _ => exact List.append_ne_nil_of_left_ne_nil ih _
  | _ => simp

/-! ## Operators among other tokens -/

/-- Whether a token opens parentheses. -/
def TokenKind.opens : TokenKind → Bool
  | .leftParen => true
  | _ => false

/-- Whether a token closes parentheses. -/
def TokenKind.closes : TokenKind → Bool
  | .rightParen => true
  | _ => false

/-- Neither a parenthesis nor the end of a source. -/
structure TokenKind.IsInner (k : TokenKind) : Prop where
  ne_stop : k ≠ .stop
  opens : k.opens = false
  closes : k.closes = false

theorem TokenKind.IsInner.ident (word : String) : (TokenKind.ident word).IsInner :=
  ⟨nofun, rfl, rfl⟩

theorem TokenKind.IsInner.comma : TokenKind.comma.IsInner :=
  ⟨nofun, rfl, rfl⟩

theorem BinaryOp.isInner_token (op : BinaryOp) : op.token.IsInner := by
  cases op <;> exact ⟨nofun, rfl, rfl⟩

theorem CompareOp.isInner_token (op : CompareOp) : op.token.IsInner := by
  cases op <;> exact ⟨nofun, rfl, rfl⟩

theorem UnaryOp.isInner_token (op : UnaryOp) : op.token.IsInner := by
  cases op <;> exact ⟨nofun, rfl, rfl⟩

/-! ## The end of a row -/

/-- A row that is a callee does not hold `stop`. -/
theorem Callee.Wrapped.stop_notMem {function : String} (h : Callee.Wrapped ts function) :
    TokenKind.stop ∉ ts := by
  induction h with
  | name => simp
  | group _ ih => simp [ih]

/-- The end of a source is part of no row. -/
theorem Derives.stop_notMem (h : Derives Callee.Wrapped level ts t) : TokenKind.stop ∉ ts := by
  induction h with
  | tighter _ _ ih => exact ih
  | conditional _ _ _ ihvalue ihcondition ihotherwise => simp [ihvalue, ihcondition, ihotherwise]
  | join _ _ _ _ ihleft ihright =>
    simp [ihleft, ihright, (BinaryOp.isInner_token _).ne_stop.symm]
  | not _ ih => simp [ih]
  | compare _ _ _ ihfirst ihlinks =>
    exact chainTokens_induction (motive := (TokenKind.stop ∉ ·))
      (fun op _ _ hts hus => by simp [hts, hus, op.isInner_token.ne_stop.symm]) ihfirst ihlinks
  | sign _ _ ih => simp [ih, (UnaryOp.isInner_token _).ne_stop.symm]
  | power _ _ ihbase ihexponent => simp [ihbase, ihexponent]
  | call hcallee _ ihargs =>
    have hargs := argTokens_induction (motive := (TokenKind.stop ∉ ·)) List.not_mem_nil
      (fun hts hus => by simp [hts, hus]) ihargs
    simp [hcallee.stop_notMem, hargs]
  | group _ ih => simp [ih]
  | _ => simp

/-! ## Parentheses -/

/-- A row closes every parenthesis that it opens, and no other. -/
def Balanced (ts : List TokenKind) : Prop :=
  ∀ depth, Text.parensAfter? TokenKind.opens TokenKind.closes depth ts = some depth

theorem balanced_nil : Balanced [] := fun _ => rfl

/-- Balanced rows behind one another are balanced. -/
theorem Balanced.append {us : List TokenKind} (hts : Balanced ts) (hus : Balanced us) :
    Balanced (ts ++ us) := fun depth =>
  (Text.parensAfter?_append (hts depth) us).trans (hus depth)

/-- A token that is no parenthesis keeps a row balanced. -/
theorem Balanced.cons {k : TokenKind} (hk : k.IsInner) (h : Balanced ts) : Balanced (k :: ts) :=
  fun depth =>
    (Text.parensAfter?_cons (Text.parenStep?_other hk.opens hk.closes depth) ts).trans (h depth)

theorem balanced_singleton {k : TokenKind} (hk : k.IsInner) : Balanced [k] :=
  balanced_nil.cons hk

/-- A balanced row stays balanced in parentheses. -/
theorem Balanced.group (h : Balanced ts) : Balanced (.leftParen :: ts ++ [.rightParen]) :=
  fun depth => by
    rw [List.cons_append, Text.parensAfter?_cons (Text.parenStep?_opens rfl depth),
      Text.parensAfter?_append (h _),
      Text.parensAfter?_cons (Text.parenStep?_closes rfl rfl depth)]
    rfl

/-- A callee is balanced. -/
theorem Callee.Wrapped.balanced {function : String} (h : Callee.Wrapped ts function) :
    Balanced ts := by
  induction h with
  | name => exact balanced_singleton ⟨nofun, rfl, rfl⟩
  | group _ ih => exact ih.group

/-- **Parentheses are closed in the row that opens them.** -/
theorem Derives.balanced (h : Derives Callee.Wrapped level ts t) : Balanced ts := by
  induction h with
  | tighter _ _ ih => exact ih
  | conditional _ _ _ ihvalue ihcondition ihotherwise =>
    exact (ihvalue.append (ihcondition.cons (.ident _))).append
      (ihotherwise.cons (.ident _))
  | join _ _ _ _ ihleft ihright => exact ihleft.append (ihright.cons (BinaryOp.isInner_token _))
  | not _ ih => exact ih.cons (.ident _)
  | compare _ _ _ ihfirst ihlinks =>
    exact chainTokens_induction (fun op _ _ hts hus => hts.append (hus.cons op.isInner_token))
      ihfirst ihlinks
  | sign _ _ ih => exact ih.cons (UnaryOp.isInner_token _)
  | power _ _ ihbase ihexponent =>
    exact ihbase.append (ihexponent.cons (BinaryOp.isInner_token .pow))
  | call hcallee _ ihargs =>
    have hargs := argTokens_induction balanced_nil
      (fun hts hus => hts.append (hus.cons .comma)) ihargs
    rw [List.append_assoc]
    exact hcallee.balanced.append hargs.group
  | group _ ih => exact ih.group
  | _ => exact balanced_singleton ⟨nofun, rfl, rfl⟩

/-! ## Callees in parentheses -/

/-- No parenthesis is opened directly behind one that is closed. -/
def ParensApart (ts : List TokenKind) : Prop :=
  ts.IsChain fun k next => k.closes = true → next.opens = false

theorem parensApart_nil : ParensApart [] := .nil

/-- Where parentheses are apart in a row, they are in each part of it. -/
theorem ParensApart.part {us : List TokenKind} (h : ParensApart ts) (hpart : us <:+: ts) :
    ParensApart us :=
  List.IsChain.infix h hpart

/-- An inner token holds two rows apart. -/
theorem ParensApart.append_cons {k : TokenKind} {us : List TokenKind} (hk : k.IsInner)
    (hts : ParensApart ts) (hus : ParensApart us) : ParensApart (ts ++ k :: us) := by
  refine List.isChain_append.2 ⟨hts, List.isChain_cons.2 ⟨fun _ _ h => ?_, hus⟩, ?_⟩
  · rw [hk.closes] at h
    cases h
  · rintro x _ y hy _
    cases hy
    exact hk.opens

/-- Parentheses around a row are apart if it is. -/
theorem ParensApart.group (h : ParensApart ts) :
    ParensApart (.leftParen :: ts ++ [.rightParen]) := by
  rw [List.cons_append]
  refine List.isChain_cons.2 ⟨nofun, List.isChain_append.2 ⟨h, .singleton _, ?_⟩⟩
  rintro _ _ _ ⟨⟩ _
  rfl

/-- Where only names are called, parentheses stand apart. -/
theorem Derives.parensApart (h : Derives Callee.Bare level ts t) : ParensApart ts := by
  induction h with
  | tighter _ _ ih => exact ih
  | conditional _ _ _ ihvalue ihcondition ihotherwise =>
    exact (ihvalue.append_cons (.ident _) ihcondition).append_cons (.ident _)
      ihotherwise
  | join _ _ _ _ ihleft ihright => exact ihleft.append_cons (BinaryOp.isInner_token _) ihright
  | not _ ih => exact parensApart_nil.append_cons (.ident _) ih
  | compare _ _ _ ihfirst ihlinks =>
    exact chainTokens_induction (fun op _ _ hts hus => hts.append_cons op.isInner_token hus)
      ihfirst ihlinks
  | sign _ _ ih => exact parensApart_nil.append_cons (UnaryOp.isInner_token _) ih
  | power _ _ ihbase ihexponent =>
    exact ihbase.append_cons (BinaryOp.isInner_token .pow) ihexponent
  | call hcallee _ ihargs =>
    obtain ⟨rfl, -⟩ := hcallee
    have hargs := argTokens_induction parensApart_nil
      (fun hts hus => hts.append_cons .comma hus) ihargs
    exact hargs.group.cons nofun
  | group _ ih => exact ih.group
  | _ => exact .singleton _

/-- An argument is a part of all arguments. -/
theorem infix_argTokens : ∀ {args : List (List TokenKind × Tree)} {arg : List TokenKind × Tree},
    arg ∈ args → arg.1 <:+: argTokens args
  | [_], _, h => ⟨[], [], by simp [List.mem_singleton.1 h]⟩
  | _ :: _ :: _, _, h => by
    rw [argTokens_cons_cons]
    rcases List.mem_cons.1 h with rfl | h
    · exact (List.prefix_append _ _).isInfix
    · exact ((infix_argTokens h).trans (List.suffix_cons _ _).isInfix).trans
        (List.suffix_append _ _).isInfix

/-- The operand of a link is a part of the chain. -/
theorem infix_chainTokens {link : CompareOp × List TokenKind × Tree}
    {links : List (CompareOp × List TokenKind × Tree)} (h : link ∈ links) :
    link.2.1 <:+: chainTokens links := by
  obtain ⟨before, behind, rfl⟩ := List.append_of_mem h
  refine ⟨chainTokens before ++ [link.1.token], chainTokens behind, ?_⟩
  simp [chainTokens]

/-- **Only callees in parentheses** need the wider grammar. -/
theorem Derives.bare_of_wrapped (h : Derives Callee.Wrapped level ts t) (hapart : ParensApart ts) :
    Derives Callee.Bare level ts t := by
  induction h with
  | tighter hlevel _ ih => exact .tighter hlevel (ih hapart)
  | conditional _ _ _ ihvalue ihcondition ihotherwise =>
    have hfront := hapart.left_of_append
    exact .conditional (ihvalue hfront.left_of_append) (ihcondition hfront.right_of_append.tail)
      (ihotherwise hapart.right_of_append.tail)
  | join hop hlevel _ _ ihleft ihright =>
    exact .join hop hlevel (ihleft hapart.left_of_append) (ihright hapart.right_of_append.tail)
  | not _ ih => exact .not (ih hapart.tail)
  | compare _ hne _ ihfirst ihlinks =>
    exact .compare (ihfirst hapart.left_of_append) hne fun link hlink =>
      ihlinks link hlink (ParensApart.part hapart.right_of_append (infix_chainTokens hlink))
  | sign hop _ ih => exact .sign hop (ih hapart.tail)
  | power _ _ ihbase ihexponent =>
    exact .power (ihbase hapart.left_of_append) (ihexponent hapart.right_of_append.tail)
  | call hcallee _ ihargs =>
    have hcall := hapart.left_of_append
    cases hcallee with
    | name hname =>
      exact .call ⟨rfl, hname⟩ fun arg harg =>
        ihargs arg harg (ParensApart.part hcall.right_of_append.tail (infix_argTokens harg))
    | group _ =>
      have hopens := (List.isChain_append.1 hcall).2.2 _ List.getLast?_concat _ rfl rfl
      cases hopens
  | group _ ih => exact .group (ih hapart.tail.left_of_append)
  | int n => exact .int n
  | float x => exact .float x
  | str s => exact .str s
  | bool hword => exact .bool hword
  | name hname => exact .name hname

end LaunchFile.Expr
