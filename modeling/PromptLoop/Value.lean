import PromptLoop.Bindings
import PromptLoop.Number

set_option autoImplicit false

namespace PromptLoop

inductive Value where
  | null
  | bool (b : Bool)
  | number (n : Number)
  | string (s : String)
  | array (items : List Value)
  | object (entries : List (String × Value))
deriving Inhabited, Repr

namespace Value

def ofInt (n : Int) : Value :=
  .number (.integer n)

/-- A result of arithmetic or a numeric literal as a value; a literal beyond the largest number is
null. -/
def ofBinary64? : Option Binary64 → Value
  | some x => .number (.ofBinary64 x)
  | none => .null

def toBinary64? : Value → Option Binary64
  | .number n => some n.toBinary64
  | _ => none

def isString : Value → Bool
  | .string _ => true
  | _ => false

/-- Null, false, zero and the empty string count as false. -/
def truthy : Value → Bool
  | .null => false
  | .bool b => b
  | .number n => !n.toBinary64.isZero
  | .string s => s != ""
  | .array _ => true
  | .object _ => true

def kind : Value → String
  | .null => "null"
  | .bool _ => "boolean"
  | .number _ => "number"
  | .string _ => "string"
  | .array _ => "array"
  | .object _ => "object"

mutual

/-- Whether two values have the same parts. Numbers have to agree in form, the order of keys does
not matter. -/
def same : Value → Value → Bool
  | .null, .null => true
  | .bool a, .bool b => a == b
  | .number a, .number b => a.same b
  | .string a, .string b => a == b
  | .array a, .array b => sameItems a b
  | .object a, .object b => a.length == b.length && sameEntries a b
  | _, _ => false
termination_by structural v => v

def sameItems : List Value → List Value → Bool
  | [], [] => true
  | a :: as, b :: bs => same a b && sameItems as bs
  | _, _ => false
termination_by structural vs => vs

def sameEntries : List (String × Value) → List (String × Value) → Bool
  | [], _ => true
  | entry :: rest, others => sameEntry entry others && sameEntries rest others
termination_by structural entries => entries

def sameEntry : String × Value → List (String × Value) → Bool
  | (key, value), others =>
    match Bindings.get? key others with
    | some other => same value other
    | none => false
termination_by structural entry => entry

end

def sameBindings (a b : Bindings Value) : Bool :=
  a.length == b.length && sameEntries a b

end Value
end PromptLoop
