import PromptLoop.Number.Notation

set_option autoImplicit false

namespace PromptLoop

inductive Number where
  | integer (n : Int)
  | real (x : Binary64)
deriving DecidableEq, Repr

namespace Number

/-- The largest integer up to which every integer is a binary64 number. -/
def maxExact : Nat := Nat.pow 2 53 - 1

def toBinary64 : Number → Binary64
  | .integer n => .ofInt n
  | .real x => x

/-- A whole result in the exact range is an integer, a zero of either sign included. -/
def ofBinary64 (x : Binary64) : Number :=
  if x.isIntegral ∧ x.truncate.natAbs ≤ maxExact then .integer x.truncate else .real x

/-- Equality of form and value; the two real zeros are the same. -/
def same : Number → Number → Bool
  | .integer a, .integer b => a == b
  | .real a, .real b => a.same b
  | _, _ => false

def integerText (n : Int) : List Char :=
  if n < 0 then '-' :: Binary64.naturalDigits n.natAbs else Binary64.naturalDigits n.natAbs

def text : Number → List Char
  | .integer n => integerText n
  | .real x => Binary64.Notation.valueText.write x

end Number
end PromptLoop
