import LaunchFile.Expr.Integer
import LaunchFile.Expr.Parser

/-!
# Expr/Eval — the value of an expression

Evaluation goes from left to right and stops at the first error. `and`, `or`, the conditional and a
chain of comparisons evaluate only what decides them. What an expression may look up outside of
itself is a `Bindings`, which may keep a state; evaluation itself has none.
-/

namespace LaunchFile.Expr

/-- Evaluation: a value or the first error, and the state after it in either case. -/
abbrev EvalM (σ : Type) := ExceptT EvalError (StateM σ)

/-- The look-ups of an expression. `arg` tells an argument that is not bound (`none`) from one that
is bound without a value (an error). -/
structure Bindings (σ : Type) where
  arg : String → Except EvalError (Option String)
  env : String → StateM σ (Option String)
  find : String → StateM σ (Option String)
  directory : Option String
  anon : String → StateM σ String

/-- A look-up that has no state. -/
instance coeLookup {σ : Type} :
    Coe (String → Option String) (String → StateM σ (Option String)) where
  coe look name := pure (look name)

/-! ## Whole numbers -/

/-- A whole number, when it is a 64-bit word. -/
def orOverflow (n : Option Int64) : Except EvalError Value :=
  match n with
  | some n => .ok (.int n)
  | none => .error .overflow

/-- The exact result, when it is a 64-bit word. -/
def checked (n : Int) : Except EvalError Value :=
  orOverflow (Decimal.toInt64? n)

/-! ## Operators -/

/-- An operator on two floats. Only divisions by zero are refused. -/
def floatBinary (op : BinaryOp) (a b : Float) : Except EvalError Value :=
  match op with
  | .add => .ok (.float (a + b))
  | .sub => .ok (.float (a - b))
  | .mul => .ok (.float (a * b))
  | .div => if b == 0.0 then .error .divisionByZero else .ok (.float (a / b))
  | .floorDiv => if b == 0.0 then .error .divisionByZero else .ok (.float (a / b).floor)
  | .mod => if b == 0.0 then .error .divisionByZero else .ok (.float (a - b * (a / b).floor))
  | .pow =>
    if a == 0.0 && b < 0.0 then .error .divisionByZero else .ok (.float (Float.pow a b))
  | .and | .or => .error (.typeMismatch .logicalOperator)

/-- An operator on two words. The exact result has to be a word, but for `/` and negative exponents,
which lead to floats. -/
def intBinary (op : BinaryOp) (a b : Int64) : Except EvalError Value :=
  match op with
  | .add => checked (a.toInt + b.toInt)
  | .sub => checked (a.toInt - b.toInt)
  | .mul => checked (a.toInt * b.toInt)
  | .div => floatBinary .div a.toFloat b.toFloat
  | .floorDiv =>
    if b == 0 then .error .divisionByZero else orOverflow (Integer.floorDiv? a b)
  | .mod => if b == 0 then .error .divisionByZero else orOverflow (Integer.floorMod? a b)
  | .pow =>
    if b < 0 then floatBinary .pow a.toFloat b.toFloat else orOverflow (Integer.power? a b)
  | .and | .or => .error (.typeMismatch .logicalOperator)

/-- The longest string that repetition makes, in bytes. -/
def maxRepetition : Nat := Nat.pow 2 20

/-- `count` copies of `s`, none when the count is negative. -/
def repeated (s : String) (count : Int64) : Except EvalError Value :=
  let count := count.toInt.toNat
  if s.isEmpty then .ok (.str "")
  else if s.utf8ByteSize * count ≤ maxRepetition then
    .ok (.str (String.join (List.replicate count s)))
  else .error .overflow

/-- An operator on numbers; booleans count as numbers here. -/
def numericBinary (op : BinaryOp) (left right : Value) : Except EvalError Value :=
  match left.number?, right.number? with
  | some (.int a), some (.int b) => intBinary op a b
  | some a, some b => floatBinary op a.toFloat b.toFloat
  | _, _ => .error (.typeMismatch (.operands op.symbol left.typeName right.typeName))

/-- An operator on two values. Strings are joined by `+` and repeated by `*`. -/
def applyBinary (op : BinaryOp) (left right : Value) : Except EvalError Value :=
  match op, left, right with
  | .add, .str a, .str b => .ok (.str (a ++ b))
  | .mul, .str s, .int n => repeated s n
  | .mul, .int n, .str s => repeated s n
  | _, _, _ => numericBinary op left right

/-- A sign or `not` before a value. -/
def applyUnary (op : UnaryOp) (value : Value) : Except EvalError Value :=
  match op, value.number? with
  | .not, _ => .ok (.bool !value.truthy)
  | _, none => .error (.typeMismatch (.unaryOperand value.typeName))
  | .neg, some (.int n) => checked (-n.toInt)
  | .neg, some (.float x) => .ok (.float (-x))
  | .pos, some n => .ok n.toValue

/-! ## Comparison -/

/-- How two values stand to each other. -/
inductive Ranking where
  | ordered (o : Ordering)
  | unordered
  | unrelated
  deriving DecidableEq, Repr

/-- How two floats stand to each other; what is no number is unordered. -/
def rankFloats (a b : Float) : Ranking :=
  if a < b then .ordered .lt
  else if a > b then .ordered .gt
  else if a == b then .ordered .eq
  else .unordered

/-- Strings stand in the order of their characters, numbers in that of their values, a value that
is no number beside any number is unordered, and strings are unrelated to numbers. -/
def rank (left right : Value) : Ranking :=
  match left, right with
  | .str a, .str b => .ordered (compareOfLessAndEq a b)
  | _, _ =>
    match left.number?, right.number? with
    | some (.int a), some (.int b) => .ordered (compare a.toInt b.toInt)
    | some a, some b => rankFloats a.toFloat b.toFloat
    | _, _ => .unrelated

/-- Whether a comparison holds of this order. -/
def CompareOp.holds (op : CompareOp) (o : Ordering) : Bool :=
  match op with
  | .eq => o == .eq
  | .ne => o != .eq
  | .lt => o == .lt
  | .le => o != .gt
  | .gt => o == .gt
  | .ge => o != .lt

/-- Whether a comparison holds. Without an order everything is unequal; only strings beside numbers
cannot be asked for their order. -/
def compareValues (op : CompareOp) (left right : Value) : Except EvalError Bool :=
  match rank left right, op with
  | .ordered o, _ => .ok (op.holds o)
  | .unordered, _ => .ok (op == .ne)
  | .unrelated, .eq => .ok false
  | .unrelated, .ne => .ok true
  | .unrelated, _ =>
    .error (.typeMismatch (.operands "comparison" left.typeName right.typeName))

/-! ## Functions -/

/-- Whether a function takes so many arguments. -/
def Arity.admits : Arity → Nat → Bool
  | .none, n => n == 0
  | .one, n => n == 1
  | .two, n => n == 2
  | .oneOrTwo, n => n == 1 || n == 2
  | .atLeastOne, n => n ≥ 1

/-- The argument of a function that takes a string. -/
def stringArg (function : String) : Value → Except EvalError String
  | .str s => .ok s
  | other => .error (.typeMismatch (.stringExpected function other.typeName))

/-- The argument of a function that takes a number. -/
def numberArg (function : String) (value : Value) : Except EvalError Number :=
  match value.number? with
  | some n => .ok n
  | none => .error (.typeMismatch (.numberExpected function value.typeName))

/-- Toward zero. -/
def truncated (x : Float) : Float :=
  if x < 0.0 then x.ceil else x.floor

/-- The word of a float without places. -/
def floatToInt (x : Float) : Except EvalError Value :=
  if x.isNaN || x.isInf || x.abs ≥ 9223372036854775808.0 then .error .overflow
  else .ok (.int x.toInt64)

/-- The nearest whole number, a half going to the even one. -/
def roundHalfEven (x : Float) : Float :=
  if (x - truncated x).abs == 0.5 then 2.0 * (x / 2.0).round else x.round

/-- The product of the powers `x, x², x⁴, …` that the binary digits of `n` select. -/
def powerBySquaring (x : Float) : Nat → Nat → Float → Float
  | 0, _, product => product
  | fuel + 1, n, product =>
    let product := if n % 2 == 1 then product * x else product
    if n / 2 == 0 then product else powerBySquaring (x * x) fuel (n / 2) product

/-- A power of ten as a float; a negative power is the inverse of the positive one. -/
def powerOfTen (digits : Int) : Float :=
  let power := powerBySquaring 10.0 64 digits.natAbs 1.0
  if digits < 0 then 1.0 / power else power

/-- Digits are counted from the point; beyond 308 they make no difference. -/
def roundTo (x : Float) (digits : Int) : Float :=
  let factor := powerOfTen (max (-308) (min 308 digits))
  roundHalfEven (x * factor) / factor

/-- The first value that none of the later ones beats. -/
def best (beats : CompareOp) : Value → List Value → Except EvalError Value
  | champion, [] => .ok champion
  | champion, challenger :: rest => do
    if ← compareValues beats challenger champion then best beats challenger rest
    else best beats champion rest

/-- The functions that need nothing but their arguments, which come in the right number. -/
def pureCall? (function : String) (args : List Value) : Option (Except EvalError Value) :=
  match function, args with
  | "str", [v] => some (.ok (.str v.text))
  | "int", [.str s] => some <|
    match Decimal.readInt64? (Text.trim s).toList with
    | some n => .ok (.int n)
    | none => .error (.typeMismatch (.notAnInt s))
  | "int", [v] => some do
    match ← numberArg function v with
    | .int n => .ok (.int n)
    | .float x => floatToInt (truncated x)
  | "float", [.str s] => some <|
    match Decimal.readFloat? (Text.trim s).toList with
    | some x => .ok (.float x)
    | none => .error (.typeMismatch (.notAFloat s))
  | "float", [v] => some do .ok (.float (← numberArg function v).toFloat)
  | "bool", [v] => some (.ok (.bool v.truthy))
  | "abs", [v] => some do
    match ← numberArg function v with
    | .int n => checked n.toInt.natAbs
    | .float x => .ok (.float x.abs)
  | "min", v :: vs => some (best .lt v vs)
  | "max", v :: vs => some (best .gt v vs)
  | "round", [v] => some do floatToInt (roundHalfEven (← numberArg function v).toFloat)
  | "round", [v, digits] => some do
    let x := (← numberArg function v).toFloat
    match ← numberArg function digits with
    | .int n => .ok (.float (roundTo x n.toInt))
    | .float _ => .error (.typeMismatch .roundDigits)
  | "len", [v] => some do .ok (.int (Int64.ofInt (← stringArg function v).length))
  | "sqrt", [v] => some do
    let x := (← numberArg function v).toFloat
    if x < 0.0 then .error (.typeMismatch .mathDomain) else .ok (.float x.sqrt)
  | "floor", [v] => some do
    match ← numberArg function v with
    | .int n => .ok (.int n)
    | .float x => floatToInt x.floor
  | "ceil", [v] => some do
    match ← numberArg function v with
    | .int n => .ok (.int n)
    | .float x => floatToInt x.ceil
  | "pow", [v, w] => some do
    let base := (← numberArg function v).toFloat
    floatBinary .pow base (← numberArg function w).toFloat
  | _, _ => none

/-- The functions that look something up, their arguments being in the right number. -/
def lookupCall {σ : Type} (b : Bindings σ) (function : String) (args : List Value) :
    EvalM σ Value :=
  match function, args with
  | "arg", [v] => do
    let name ← stringArg function v
    match ← b.arg name with
    | some value => return .str value
    | none => throw (.unknownIdentifier name)
  | "env", [v] => do
    let name ← stringArg function v
    match ← b.env name with
    | some value => return .str value
    | none => throw (.lookup (.unsetVariable name))
  | "optenv", v :: fallback => do
    let name ← stringArg function v
    match ← b.env name, fallback with
    | some value, _ => return .str value
    | none, w :: _ => return .str w.text
    | none, [] => return .str ""
  | "find", [v] => do
    let name ← stringArg function v
    match ← b.find name with
    | some path => return .str path
    | none => throw (.lookup (.missingPackage name))
  | "anon", [v] => do
    let name ← stringArg function v
    return .str (← b.anon name)
  | "dirname", [] =>
    match b.directory with
    | some directory => return .str directory
    | none => throw (.lookup .noDirectory)
  | _, _ => throw (.unknownFunction function)

/-- The functions there are, and how many arguments each takes. -/
def arity? : String → Option Arity
  | "arg" | "env" | "find" | "anon" => some .one
  | "optenv" => some .oneOrTwo
  | "dirname" => some .none
  | "str" | "int" | "float" | "bool" | "abs" | "len" | "sqrt" | "floor" | "ceil" => some .one
  | "min" | "max" => some .atLeastOne
  | "round" => some .oneOrTwo
  | "pow" => some .two
  | _ => none

/-- The value of a call. The number of arguments is checked before they are looked at. -/
def applyCall {σ : Type} (b : Bindings σ) (function : String) (args : List Value) :
    EvalM σ Value :=
  match arity? function with
  | none => throw (.unknownFunction function)
  | some expected =>
    if !expected.admits args.length then throw (.arity function expected args.length)
    else match pureCall? function args with
      | some result => result
      | none => lookupCall b function args

/-! ## Trees -/

/-- A name stands for a constant or for the argument of that name, typed by its look. -/
def lookupName {σ : Type} (b : Bindings σ) (name : String) : Except EvalError Value :=
  if name == "pi" then .ok (.float 3.141592653589793)
  else if name == "e" then .ok (.float 2.718281828459045)
  else match b.arg name with
    | .error e => .error e
    | .ok (some raw) => .ok (Value.ofText raw)
    | .ok none => .error (.unknownIdentifier name)

mutual

/-- The value of a tree, from left to right. -/
def eval {σ : Type} (b : Bindings σ) : Tree → EvalM σ Value
  | .literal value => pure value
  | .name name => lookupName b name
  | .unary op operand => do
    let value ← eval b operand
    applyUnary op value
  | .binary .and left right => do
    let value ← eval b left
    if value.truthy then eval b right else pure value
  | .binary .or left right => do
    let value ← eval b left
    if value.truthy then pure value else eval b right
  | .binary op left right => do
    let value ← eval b left
    let other ← eval b right
    applyBinary op value other
  | .compare first rest => do
    let value ← eval b first
    evalChain b value rest
  | .conditional condition thenBranch elseBranch => do
    let value ← eval b condition
    if value.truthy then eval b thenBranch else eval b elseBranch
  | .call function args => do
    let values ← evalArgs b args
    applyCall b function values

/-- A chain of comparisons from its left operand's value on; it ends at the first that fails. -/
def evalChain {σ : Type} (b : Bindings σ) (left : Value) :
    List (CompareOp × Tree) → EvalM σ Value
  | [] => pure (.bool true)
  | (op, tree) :: rest => do
    let right ← eval b tree
    if ← compareValues op left right then evalChain b right rest else pure (.bool false)

/-- The values of arguments, from left to right. -/
def evalArgs {σ : Type} (b : Bindings σ) : List Tree → EvalM σ (List Value)
  | [] => pure []
  | tree :: rest => do
    let value ← eval b tree
    let values ← evalArgs b rest
    pure (value :: values)

end

/-- The value of a source text. -/
def evaluate {σ : Type} (b : Bindings σ) (source : String) : EvalM σ Value := do
  let tree ← parse source
  eval b tree

end LaunchFile.Expr
