import PromptLoop.Number.Shortest

set_option autoImplicit false

namespace PromptLoop.Binary64

structure Notation where
  /-- The decimal exponents that are written positionally; `none` for all. -/
  positional : Option (Int × Int)
  keepFraction : Bool
  tie : Tie

def zeros (n : Nat) : List Char :=
  List.replicate n '0'

def Digits.positional (d : Digits) (keepFraction : Bool) : List Char :=
  if d.exponent < 0 then
    ['0', '.'] ++ zeros (-d.exponent - 1).toNat ++ d.digits
  else
    let whole := d.exponent.toNat + 1
    if d.digits.length ≤ whole then
      d.digits ++ zeros (whole - d.digits.length) ++ (if keepFraction then ['.', '0'] else [])
    else
      d.digits.take whole ++ '.' :: d.digits.drop whole

def Digits.scientific (d : Digits) : List Char :=
  let fraction := match d.digits.drop 1 with
    | [] => []
    | rest => '.' :: rest
  let sign := if d.exponent < 0 then '-' else '+'
  d.digits.take 1 ++ fraction ++ 'e' :: sign :: naturalDigits d.exponent.natAbs

def Notation.write (n : Notation) (x : Binary64) : List Char :=
  let d := x.shortest n.tie
  let magnitude := match n.positional with
    | none => d.positional n.keepFraction
    | some (low, high) =>
      if low ≤ d.exponent ∧ d.exponent ≤ high then d.positional n.keepFraction else d.scientific
  if x.negative then '-' :: magnitude else magnitude

/-- Value text writes a number positionally from `0.00001` to below `10 ^ 16`, always with a
fraction, and a tie goes to the even digit. -/
def Notation.valueText : Notation := ⟨some (-5, 15), true, .even⟩

/-- Messages write every number positionally, a whole one without a fraction, and a tie goes up. -/
def Notation.plain : Notation := ⟨none, false, .up⟩

end PromptLoop.Binary64
