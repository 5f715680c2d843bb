import PromptLoop.Script.Expr
import PromptLoop.Script.SyntaxError
import PromptLoop.Value.Text

set_option autoImplicit false

namespace PromptLoop.Script

inductive RuntimeError where
  | undefined (name : String)
  | tooDeep
  /-- A member or an item of null. -/
  | ofNull (property : String)
  | negate (kind : String)
  | operands (op : BinaryOp) (left right : String)
  /-- An arithmetic result that is no number, or beyond the largest. -/
  | notFinite (op : BinaryOp) (left right : Value)
  | notFunction (name : String)
  | arity (function expected : String) (got : Nat)
  | delayTime
  | lengthOf (kind : String)
  | keysOf (kind : String)
deriving Repr

def RuntimeError.message : RuntimeError → String
  | .undefined name => name ++ " is not defined"
  | .tooDeep => tooDeepMessage
  | .ofNull property => "Cannot read properties of null (reading '" ++ property ++ "')"
  | .negate kind => "Cannot negate " ++ kind
  | .operands op left right =>
    "Cannot apply '" ++ op.symbol ++ "' to " ++ left ++ " and " ++ right
  | .notFinite op left right =>
    left.text ++ " " ++ op.symbol ++ " " ++ right.text ++ " is not a finite number"
  | .notFunction name => name ++ " is not a function"
  | .arity function expected got =>
    function ++ "() expects " ++ expected ++ " argument(s), got " ++
      String.ofList (Number.integerText got)
  | .delayTime => "delay() expects a non-negative number of milliseconds"
  | .lengthOf kind => "len() expects a string, array or object, got " ++ kind
  | .keysOf kind => "keys() expects an object, got " ++ kind

end PromptLoop.Script
