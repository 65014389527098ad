import LaunchFile.Proofs.Expr.Sound

/-!
# Proofs/Expr/Cursor — the parser as the steps of a cursor

The same grammar for a cursor that moves over the whole row. It sees the token at its place, or the
last one of the row; it goes on over every token but `stop`, and an atom that turns out to be none
goes back. How deep the rules are nested is counted up and down.

Nothing in the rules bounds the loops or the nesting here, so each loop gets a number of turns and
each rule a number of rules that may be open below it. Steps that use them up have no result
(`Steps`), and neither have those that look for a token in an empty row, go back from the start of
the row or leave a nesting that they did not enter.
-/

namespace LaunchFile.Expr

/-- What a cursor does: it goes on over the token at a place, or back over it. -/
inductive Move where
  | on (place : Nat)
  | back (place : Nat)

/-- The place of the cursor in the row, the rules that are open there, and the moves that it made,
the last one first. -/
structure Cursor where
  place : Nat
  depth : Nat
  moves : List Move

/-- Past the token at hand. -/
def Cursor.next (c : Cursor) : Cursor :=
  { c with place := c.place + 1, moves := .on c.place :: c.moves }

theorem Cursor.next_place (c : Cursor) : c.next.place = c.place + 1 := rfl

/-- Steps that may end, with a result or with an error, and with the cursor where it then is. -/
abbrev Steps := ExceptT EvalError (StateT Cursor Option)

namespace Steps

variable {α : Type}

/-- The end of the steps from a cursor, if they end. -/
def runFrom (steps : Steps α) (c : Cursor) : Option (Except EvalError α × Cursor) :=
  steps.run.run c

/-! ## Moves -/

/-- One level of nesting more. -/
def enter : StateT Cursor Option Unit :=
  modify fun c => { c with depth := c.depth + 1 }

/-- One level of nesting less. -/
def leave : StateT Cursor Option Unit := fun c =>
  match c.depth with
  | 0 => none
  | depth + 1 => some ((), { c with depth })

/-- Back over the token before. -/
def back : StateT Cursor Option Unit := fun c =>
  match c.place with
  | 0 => none
  | place + 1 => some ((), { c with place, moves := .back place :: c.moves })

variable (tokens : List Token)

/-- The kind of the token at hand; behind the row that is the last one. -/
def see : Steps TokenKind := fun c =>
  tokens[min c.place (tokens.length - 1)]?.map fun token => (.ok token.kind, c)

/-- Go on over the token at hand, unless it is `stop`. -/
def advance : Steps TokenKind := do
  let kind ← see tokens
  match kind with
  | .stop => return kind
  | _ =>
    modify Cursor.next
    return kind

/-- An error at the token at hand; behind the row that is the last one. -/
def fail (fault : SyntaxFault) : Steps α := do
  let c ← get
  throw (.invalid ((tokens[c.place]?.or tokens.getLast?).elim 0 (·.offset)) fault)

/-- Whether the next token is this keyword. -/
def seesKeyword (word : String) : Steps Bool := do
  match ← see tokens with
  | .ident name => return name == word
  | _ => return false

/-- Go on over a closing parenthesis, or fail. -/
def closeParen (fault : SyntaxFault) : Steps Unit := do
  match ← see tokens with
  | .rightParen => let _ ← advance tokens
  | _ => fail tokens fault

/-- Steps that do not end. -/
def unended : Steps α := fun _ => none

/-! ## Loops -/

/-- Operands joined to the left onto `left`. -/
def chainOnto (op? : TokenKind → Option BinaryOp) (operand : Steps Tree) : Nat → Tree → Steps Tree
  | 0, _ => unended
  | turns + 1, left => do
    match op? (← see tokens) with
    | none => return left
    | some op =>
      let _ ← advance tokens
      let right ← operand
      chainOnto op? operand turns (.binary op left right)

/-- The comparisons behind those that are found already. -/
def comparisons (operand : Steps Tree) :
    Nat → List (CompareOp × Tree) → Steps (List (CompareOp × Tree))
  | 0, _ => unended
  | turns + 1, found => do
    match compareOp? (← see tokens) with
    | none => return found
    | some op =>
      let _ ← advance tokens
      let right ← operand
      comparisons operand turns (found ++ [(op, right)])

/-- The arguments behind those that are found already, at least one. -/
def arguments (expression : Steps Tree) : Nat → List Tree → Steps (List Tree)
  | 0, _ => unended
  | turns + 1, found => do
    let arg ← expression
    match ← see tokens with
    | .comma =>
      let _ ← advance tokens
      arguments expression turns (found ++ [arg])
    | _ => return found ++ [arg]

/-! ## Rules -/

variable (turns : Nat)

/-- Operands that are joined to the left. -/
def chain (op? : TokenKind → Option BinaryOp) (operand : Steps Tree) : Steps Tree := do
  let first ← operand
  chainOnto tokens op? operand turns first

variable (below : Rule → Steps Tree)

/-- A literal, a name, or an expression in parentheses. -/
def atom : Steps Tree := do
  match ← advance tokens with
  | .int n => return .literal (.int n)
  | .float x => return .literal (.float x)
  | .str s => return .literal (.str s)
  | .ident name =>
    if name == "True" || name == "true" then return .literal (.bool true)
    else if name == "False" || name == "false" then return .literal (.bool false)
    else if isReserved name then
      back
      fail tokens (.keyword name)
    else return .name name
  | .leftParen =>
    let inner ← below .expression
    closeParen tokens .unclosedParen
    return inner
  | .stop => fail tokens .unexpectedEnd
  | other =>
    back
    fail tokens (.unexpected other)

/-- The arguments of a call and its closing parenthesis; the opening one is passed already. -/
def callArguments : Steps (List Tree) := do
  let args ← match ← see tokens with
    | .rightParen => pure []
    | _ => arguments tokens (below .expression) turns []
  closeParen tokens .unclosedCall
  return args

/-- An atom, which may be called. -/
def call : Steps Tree := do
  let head ← atom tokens below
  match head, ← see tokens with
  | .name function, .leftParen =>
    let _ ← advance tokens
    return .call function (← callArguments tokens turns below)
  | _, _ => return head

/-- A call, which may have an exponent. -/
def power : Steps Tree := do
  let base ← call tokens turns below
  match ← see tokens with
  | .doubleStar =>
    let _ ← advance tokens
    let exponent ← below .unary
    return .binary .pow base exponent
  | _ => return base

/-- Signs before a power. -/
def unary : Steps Tree := do
  match signOp? (← see tokens) with
  | some op =>
    let _ ← advance tokens
    let operand ← below .unary
    return .unary op operand
  | none => power tokens turns below

/-- Unary expressions joined by products. -/
def term : Steps Tree :=
  chain tokens turns termOp? (unary tokens turns below)

/-- Terms joined by sums. -/
def sum : Steps Tree :=
  chain tokens turns sumOp? (term tokens turns below)

/-- Sums that are compared. -/
def comparison : Steps Tree := do
  let first ← sum tokens turns below
  let rest ← comparisons tokens (sum tokens turns below) turns []
  return if rest.isEmpty then first else .compare first rest

/-- A comparison, which may be negated. -/
def negation : Steps Tree := do
  if ← seesKeyword tokens "not" then
    let _ ← advance tokens
    let operand ← below .negation
    return .unary .not operand
  else comparison tokens turns below

/-- Negations joined by `and`. -/
def conjunction : Steps Tree :=
  chain tokens turns conjunctionOp? (negation tokens turns below)

/-- Conjunctions joined by `or`. -/
def disjunction : Steps Tree :=
  chain tokens turns disjunctionOp? (conjunction tokens turns below)

/-- A disjunction, which may be a condition's value. -/
def conditional : Steps Tree := do
  let value ← disjunction tokens turns below
  if ← seesKeyword tokens "if" then
    let _ ← advance tokens
    let condition ← disjunction tokens turns below
    if ← seesKeyword tokens "else" then
      let _ ← advance tokens
      let otherwise ← below .expression
      return .conditional condition value otherwise
    else fail tokens .missingElse
  else return value

/-- The rule that reads a level. -/
def rule : Level → Steps Tree
  | .expression => conditional tokens turns below
  | .disjunction => disjunction tokens turns below
  | .conjunction => conjunction tokens turns below
  | .negation => negation tokens turns below
  | .comparison => comparison tokens turns below
  | .sum => sum tokens turns below
  | .term => term tokens turns below
  | .unary => unary tokens turns below
  | .power => power tokens turns below
  | .call => call tokens turns below
  | .atom => atom tokens below

/-- A rule that counts towards nesting; it is left again with its error, too. -/
def nested : Nat → Rule → Steps Tree
  | 0, _ => unended
  | left + 1, inner => do
    if maxDepth ≤ (← get).depth then fail tokens .tooDeep
    else ExceptT.mk do
      enter
      let result ← (rule tokens turns (nested left) inner.level).run
      leave
      return result

/-- The tree of a row that is one expression. -/
def parse (left : Nat) : Steps Tree := do
  let tree ← nested tokens turns left .expression
  match ← see tokens with
  | .stop => return tree
  | other => fail tokens (.trailing other)

end Steps
end LaunchFile.Expr
