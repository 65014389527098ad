import LaunchFile.Text.Search
import LaunchFile.Expr.Lexer
import LaunchFile.Expr.Tree

/-!
# Expr/Parser — the tree of a row of tokens

The grammar, from the loosest rule to the tightest:

* expression: disjunction, or `disjunction if disjunction else expression`
* disjunction: conjunctions joined by `or`, to the left
* conjunction: negations joined by `and`, to the left
* negation: `not` negation, or a comparison
* comparison: sums joined by comparison operators, as one chain
* sum: terms joined by `+` and `-`, to the left
* term: unaries joined by `*`, `/`, `//` and `%`, to the left
* unary: `-` or `+` before a unary, or a power
* power: a call, or `call ** unary`
* call: an atom, or a name with arguments in parentheses
* atom: a literal, a name, or an expression in parentheses

A parser gets the remaining tokens and returns those behind what it read; an error is placed at the
first remaining token. Every cycle through the rules passes one of three of them, and these carry a
bound on nesting, on which the recursion runs.
-/

namespace LaunchFile.Expr

/-- A parser takes tokens off the front of a row and leaves the others. -/
abbrev Parser (α : Type) := List Token → Except EvalError (α × List Token)

/-! ## Tokens at hand -/

/-- The kind of the next token; at the end of the row that is `stop`. -/
def peek : List Token → TokenKind
  | [] => .stop
  | t :: _ => t.kind

/-- Where the next token stands. -/
def offsetOf : List Token → Nat
  | [] => 0
  | t :: _ => t.offset

/-- Fail at the next token. -/
def failAt {α : Type} (tokens : List Token) (fault : SyntaxFault) : Except EvalError α :=
  .error (.invalid (offsetOf tokens) fault)

/-- Whether the next token is this keyword. -/
def isKeyword (word : String) (tokens : List Token) : Bool :=
  match peek tokens with
  | .ident name => name == word
  | _ => false

/-- Pass a closing parenthesis. -/
def closeParen (fault : SyntaxFault) (tokens : List Token) : Except EvalError (List Token) :=
  match peek tokens with
  | .rightParen => .ok tokens.tail
  | _ => failAt tokens fault

/-! ## Operators -/

/-- The operator of disjunctions. -/
def disjunctionOp? : TokenKind → Option BinaryOp
  | .ident "or" => some .or
  | _ => none

/-- The operator of conjunctions. -/
def conjunctionOp? : TokenKind → Option BinaryOp
  | .ident "and" => some .and
  | _ => none

/-- The operators of sums. -/
def sumOp? : TokenKind → Option BinaryOp
  | .plus => some .add
  | .minus => some .sub
  | _ => none

/-- The operators of terms. -/
def termOp? : TokenKind → Option BinaryOp
  | .star => some .mul
  | .slash => some .div
  | .doubleSlash => some .floorDiv
  | .percent => some .mod
  | _ => none

/-- The comparison that a token stands for. -/
def compareOp? : TokenKind → Option CompareOp
  | .eqEq => some .eq
  | .notEq => some .ne
  | .lt => some .lt
  | .le => some .le
  | .gt => some .gt
  | .ge => some .ge
  | _ => none

/-- The sign that a token stands for. -/
def signOp? : TokenKind → Option UnaryOp
  | .minus => some .neg
  | .plus => some .pos
  | _ => none

/-- Words that are no names. -/
def isReserved (name : String) : Bool :=
  name == "and" || name == "or" || name == "not" || name == "if" || name == "else"

/-! ## Chains

Each turn of a chain passes the operator at least, so that as many turns as there are tokens are
always enough. -/

/-- Operands joined to the left onto `left`. -/
def chainOnto (op? : TokenKind → Option BinaryOp) (operand : Parser Tree) :
    Nat → Tree → Parser Tree
  | 0, left, tokens => .ok (left, tokens)
  | turns + 1, left, tokens =>
    match op? (peek tokens) with
    | none => .ok (left, tokens)
    | some op => do
      let (right, tokens) ← operand tokens.tail
      chainOnto op? operand turns (.binary op left right) tokens

/-- Operands that an operator joins to the left. -/
def chain (op? : TokenKind → Option BinaryOp) (operand : Parser Tree) : Parser Tree :=
  fun tokens => do
    let (first, tokens) ← operand tokens
    chainOnto op? operand tokens.length first tokens

/-- The comparisons that follow a first operand. -/
def comparisons (operand : Parser Tree) : Nat → Parser (List (CompareOp × Tree))
  | 0, tokens => .ok ([], tokens)
  | turns + 1, tokens =>
    match compareOp? (peek tokens) with
    | none => .ok ([], tokens)
    | some op => do
      let (right, tokens) ← operand tokens.tail
      let (rest, tokens) ← comparisons operand turns tokens
      .ok ((op, right) :: rest, tokens)

/-- Arguments separated by commas, at least one. -/
def arguments (expression : Parser Tree) : Nat → Parser (List Tree)
  | 0, tokens => .ok ([], tokens)
  | turns + 1, tokens => do
    let (arg, tokens) ← expression tokens
    match peek tokens with
    | .comma =>
      let (args, tokens) ← arguments expression turns tokens.tail
      .ok (arg :: args, tokens)
    | _ => .ok ([arg], tokens)

/-! ## Rules

The three rules that count towards nesting are the parameter `below`. -/

/-- The rules through which nesting is counted. -/
inductive Rule where
  | expression
  | negation
  | unary
  deriving DecidableEq, Repr

/-- A literal, a name, or an expression in parentheses. -/
def atom (below : Rule → Parser Tree) : Parser Tree := fun tokens =>
  match peek tokens with
  | .int n => .ok (.literal (.int n), tokens.tail)
  | .float x => .ok (.literal (.float x), tokens.tail)
  | .str s => .ok (.literal (.str s), tokens.tail)
  | .ident name =>
    if name == "True" || name == "true" then .ok (.literal (.bool true), tokens.tail)
    else if name == "False" || name == "false" then .ok (.literal (.bool false), tokens.tail)
    else if isReserved name then failAt tokens (.keyword name)
    else .ok (.name name, tokens.tail)
  | .leftParen => do
    let (inner, tokens) ← below .expression tokens.tail
    let tokens ← closeParen .unclosedParen tokens
    .ok (inner, tokens)
  | .stop => failAt tokens .unexpectedEnd
  | other => failAt tokens (.unexpected other)

/-- The arguments of a call and its closing parenthesis; the opening one is passed already. -/
def callArguments (below : Rule → Parser Tree) : Parser (List Tree) := fun tokens => do
  let (args, tokens) ← match peek tokens with
    | .rightParen => .ok ([], tokens)
    | _ => arguments (below .expression) (tokens.length + 1) tokens
  let tokens ← closeParen .unclosedCall tokens
  .ok (args, tokens)

/-- An atom; a name may be called. -/
def call (below : Rule → Parser Tree) : Parser Tree := fun tokens => do
  let (head, tokens) ← atom below tokens
  match head, peek tokens with
  | .name function, .leftParen =>
    let (args, tokens) ← callArguments below tokens.tail
    .ok (.call function args, tokens)
  | _, _ => .ok (head, tokens)

/-- A call, or a power whose exponent is a unary expression. -/
def power (below : Rule → Parser Tree) : Parser Tree := fun tokens => do
  let (base, tokens) ← call below tokens
  match peek tokens with
  | .doubleStar =>
    let (exponent, tokens) ← below .unary tokens.tail
    .ok (.binary .pow base exponent, tokens)
  | _ => .ok (base, tokens)

/-- Signs before a power. -/
def unary (below : Rule → Parser Tree) : Parser Tree := fun tokens =>
  match signOp? (peek tokens) with
  | some op => do
    let (operand, tokens) ← below .unary tokens.tail
    .ok (.unary op operand, tokens)
  | none => power below tokens

/-- Unary expressions joined by products. -/
def term (below : Rule → Parser Tree) : Parser Tree :=
  chain termOp? (unary below)

/-- Terms joined by sums. -/
def sum (below : Rule → Parser Tree) : Parser Tree :=
  chain sumOp? (term below)

/-- Sums that are compared in a chain. -/
def comparison (below : Rule → Parser Tree) : Parser Tree := fun tokens => do
  let (first, tokens) ← sum below tokens
  let (rest, tokens) ← comparisons (sum below) tokens.length tokens
  .ok (if rest.isEmpty then first else .compare first rest, tokens)

/-- A comparison with any number of `not` before it. -/
def negation (below : Rule → Parser Tree) : Parser Tree := fun tokens =>
  if isKeyword "not" tokens then do
    let (operand, tokens) ← below .negation tokens.tail
    .ok (.unary .not operand, tokens)
  else comparison below tokens

/-- Negations joined by `and`. -/
def conjunction (below : Rule → Parser Tree) : Parser Tree :=
  chain conjunctionOp? (negation below)

/-- Conjunctions joined by `or`. -/
def disjunction (below : Rule → Parser Tree) : Parser Tree :=
  chain disjunctionOp? (conjunction below)

/-- A disjunction, or a choice between two values. -/
def conditional (below : Rule → Parser Tree) : Parser Tree := fun tokens => do
  let (value, tokens) ← disjunction below tokens
  if isKeyword "if" tokens then
    let (condition, tokens) ← disjunction below tokens.tail
    if isKeyword "else" tokens then
      let (otherwise, tokens) ← below .expression tokens.tail
      .ok (.conditional condition value otherwise, tokens)
    else failAt tokens .missingElse
  else .ok (value, tokens)

/-- A rule that may nest at most so deep. -/
def nested : Nat → Rule → Parser Tree
  | 0, _ => fun tokens => failAt tokens .tooDeep
  | depth + 1, .expression => conditional (nested depth)
  | depth + 1, .negation => negation (nested depth)
  | depth + 1, .unary => unary (nested depth)

/-! ## Whole sources -/

/-- How deep expressions may be nested. -/
def maxDepth : Nat := 100

/-- The tree of a row of tokens that is one expression. -/
def parseTokens (tokens : List Token) : Except EvalError Tree := do
  let (tree, rest) ← nested maxDepth .expression tokens
  match peek rest with
  | .stop => .ok tree
  | other => failAt rest (.trailing other)

/-- The tree of a source text; two underscores in a row are refused wherever they stand. -/
def parse (source : String) : Except EvalError Tree := do
  if Text.occurs ['_', '_'] source.toList then .error (.doubleUnderscore source)
  let tokens ← tokenize source
  parseTokens tokens

end LaunchFile.Expr
