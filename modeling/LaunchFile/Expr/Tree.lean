import LaunchFile.Expr.Value

/-!
# Expr/Tree — expressions as trees

Parentheses leave no trace in a tree. A comparison holds a first operand and the chain of
comparisons after it, so that `a < b <= c` is one node.
-/

namespace LaunchFile.Expr

inductive UnaryOp where
  | neg
  | pos
  | not
  deriving DecidableEq, Repr

inductive BinaryOp where
  | add
  | sub
  | mul
  | div
  | floorDiv
  | mod
  | pow
  | and
  | or
  deriving DecidableEq, Repr

inductive CompareOp where
  | eq
  | ne
  | lt
  | le
  | gt
  | ge
  deriving DecidableEq, Repr

def BinaryOp.symbol : BinaryOp → String
  | .add => "+"
  | .sub => "-"
  | .mul => "*"
  | .div => "/"
  | .floorDiv => "//"
  | .mod => "%"
  | .pow => "**"
  | .and => "and"
  | .or => "or"

def CompareOp.symbol : CompareOp → String
  | .eq => "=="
  | .ne => "!="
  | .lt => "<"
  | .le => "<="
  | .gt => ">"
  | .ge => ">="

inductive Tree where
  | literal (value : Value)
  | name (name : String)
  | unary (op : UnaryOp) (operand : Tree)
  | binary (op : BinaryOp) (left right : Tree)
  | compare (first : Tree) (rest : List (CompareOp × Tree))
  | conditional (condition thenBranch elseBranch : Tree)
  | call (function : String) (args : List Tree)
  deriving Inhabited

end LaunchFile.Expr
