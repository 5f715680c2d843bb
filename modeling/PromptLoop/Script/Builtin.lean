import PromptLoop.Script.RuntimeError
import PromptLoop.Script.Timed

set_option autoImplicit false

namespace PromptLoop.Script

def member (target : Value) (name : String) : Except RuntimeError Value :=
  match target with
  | .null => .error (.ofNull name)
  | .object entries => .ok ((Bindings.get? name entries).getD .null)
  | .array items => .ok (if name = "length" then .ofInt items.length else .null)
  | .string s => .ok (if name = "length" then .ofInt s.toList.length else .null)
  | _ => .ok .null

def position? (v : Value) : Option Nat :=
  match v.toBinary64? with
  | some x =>
    if x.isIntegral ∧ (!x.negative ∨ x.isZero) then some x.truncate.toNat else none
  | none => none

def item (target position : Value) : Except RuntimeError Value :=
  match target with
  | .null => .error (.ofNull position.plainText)
  | .array items => .ok (((position? position).bind (items[·]?)).getD .null)
  | .string s =>
    .ok (((position? position).bind (s.toList[·]?)).elim .null
      fun c => .string (String.ofList [c]))
  | .object entries => .ok ((Bindings.get? position.plainText entries).getD .null)
  | _ => .ok .null

/-- Numbers are equal when their values are, whatever their form; other values when they have the
same parts. -/
def equals (left right : Value) : Bool :=
  match left.toBinary64?, right.toBinary64? with
  | some a, some b => a.same b
  | _, _ => left.same right

def operands (op : BinaryOp) (left right : Value) : Except RuntimeError (Binary64 × Binary64) :=
  match left.toBinary64?, right.toBinary64? with
  | some a, some b => .ok (a, b)
  | _, _ => .error (.operands op left.kind right.kind)

def arithmetic (op : BinaryOp) (compute : Binary64 → Binary64 → Option Binary64)
    (left right : Value) : Except RuntimeError Value :=
  (operands op left right).bind fun (a, b) =>
    match compute a b with
    | some x => .ok (.number (.ofBinary64 x))
    | none => .error (.notFinite op left right)

def order (op : BinaryOp) (left right : Value) : Except RuntimeError Ordering :=
  match left, right with
  | .string a, .string b => .ok (compare a b)
  | _, _ => (operands op left right).map fun (a, b) => a.order b

def comparison (op : BinaryOp) (holds : Ordering → Bool) (left right : Value) :
    Except RuntimeError Value :=
  (order op left right).map fun o => .bool (holds o)

def BinaryOp.apply (op : BinaryOp) (left right : Value) : Except RuntimeError Value :=
  match op with
  | .add =>
    if left.isString ∨ right.isString then .ok (.string (left.plainText ++ right.plainText))
    else arithmetic op Binary64.add? left right
  | .sub => arithmetic op Binary64.sub? left right
  | .mul => arithmetic op Binary64.mul? left right
  | .div => arithmetic op Binary64.div? left right
  | .rem => arithmetic op Binary64.rem? left right
  | .less => comparison op Ordering.isLT left right
  | .lessEqual => comparison op Ordering.isLE left right
  | .greater => comparison op Ordering.isGT left right
  | .greaterEqual => comparison op Ordering.isGE left right
  | .equal => .ok (.bool (equals left right))
  | .notEqual => .ok (.bool (!equals left right))
  | .and => .ok (if left.truthy then right else left)
  | .or => .ok (if left.truthy then left else right)

def UnaryOp.apply (op : UnaryOp) (v : Value) : Except RuntimeError Value :=
  match op with
  | .not => .ok (.bool !v.truthy)
  | .negate =>
    match v.toBinary64? with
    | some x => .ok (.number (.ofBinary64 x.neg))
    | none => .error (.negate v.kind)

def maxWait : Nat := Nat.pow 2 64 - 1

/-- The wait that a value asks for, in whole milliseconds. -/
def wait? (v : Value) : Option Nat :=
  match v.toBinary64? with
  | some x => if x.negative ∧ !x.isZero then none else some (min x.truncate.toNat maxWait)
  | none => none

def delay (arguments : List Value) : Timed RuntimeError Value :=
  match arguments with
  | [ms] => (wait? ms).elim (.fail .delayTime) (.after · .null)
  | [ms, v] => (wait? ms).elim (.fail .delayTime) (.after · v)
  | _ => .fail (.arity "delay" "1 or 2" arguments.length)

def unaryFunction (name : String) (f : Value → Except RuntimeError Value)
    (arguments : List Value) : Timed RuntimeError Value :=
  match arguments with
  | [v] => .ofExcept (f v)
  | _ => .fail (.arity name "1" arguments.length)

def length : Value → Except RuntimeError Value
  | .string s => .ok (.ofInt s.toList.length)
  | .array items => .ok (.ofInt items.length)
  | .object entries => .ok (.ofInt entries.length)
  | v => .error (.lengthOf v.kind)

def keys : Value → Except RuntimeError Value
  | .object entries => .ok (.array (entries.map fun (key, _) => .string key))
  | v => .error (.keysOf v.kind)

def call (function : String) (arguments : List Value) : Timed RuntimeError Value :=
  if function = "delay" then delay arguments
  else if function = "len" then unaryFunction function length arguments
  else if function = "keys" then unaryFunction function keys arguments
  else if function = "type" then
    unaryFunction function (fun v => .ok (.string v.kind)) arguments
  else if function = "str" then
    unaryFunction function (fun v => .ok (.string v.plainText)) arguments
  else .fail (.notFunction function)

end PromptLoop.Script
