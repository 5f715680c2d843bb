import PromptLoop.Value

set_option autoImplicit false

namespace PromptLoop.Script

/-- The largest number of nested constructs in a unit, and of edges on a path of a tree that is
evaluated. -/
def maxDepth : Nat := 128

inductive UnaryOp where
  | negate | not
deriving DecidableEq, Repr

inductive BinaryOp where
  | mul | div | rem | add | sub
  | less | lessEqual | greater | greaterEqual
  | equal | notEqual | and | or
deriving DecidableEq, Repr

namespace BinaryOp

def symbol : BinaryOp → String
  | .mul => "*"
  | .div => "/"
  | .rem => "%"
  | .add => "+"
  | .sub => "-"
  | .less => "<"
  | .lessEqual => "<="
  | .greater => ">"
  | .greaterEqual => ">="
  | .equal => "=="
  | .notEqual => "!="
  | .and => "&&"
  | .or => "||"

/-- How tightly an operator binds its operands. Operators of one level group to the left. -/
def level : BinaryOp → Nat
  | .or => 0
  | .and => 1
  | .equal | .notEqual => 2
  | .less | .lessEqual | .greater | .greaterEqual => 3
  | .add | .sub => 4
  | .mul | .div | .rem => 5

end BinaryOp

inductive Expr where
  | literal (v : Value)
  | name (n : String)
  | array (items : List Expr)
  | object (entries : List (String × Expr))
  | member (target : Expr) (name : String)
  | index (target position : Expr)
  | unary (op : UnaryOp) (operand : Expr)
  | binary (op : BinaryOp) (left right : Expr)
  | call (function : String) (arguments : List Expr)
deriving Inhabited, Repr

inductive Statement where
  | empty
  | expr (e : Expr)
  /-- Binds a name; a declaration is not displayed. -/
  | assign (name : String) (value : Expr) (declare : Bool)
deriving Inhabited, Repr

end PromptLoop.Script
