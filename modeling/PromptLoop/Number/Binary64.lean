set_option autoImplicit false

namespace PromptLoop

/-- The number `± significand * 2 ^ exponent`, with at most 53 significant bits and an exponent
from -1074 to 971. -/
structure Binary64 where
  negative : Bool
  significand : Nat
  exponent : Int
deriving DecidableEq, Repr

namespace Binary64

def zero : Binary64 := ⟨false, 0, -1074⟩

/-- The exponent of the grid on which a positive quotient is rounded: 53 significant bits, but
never finer than `2 ^ -1074`. -/
def gridExponent (num den : Nat) : Int :=
  let k : Int := (num.log2 : Int) - (den.log2 : Int)
  let log := if den * Nat.pow 2 k.toNat ≤ num * Nat.pow 2 (-k).toNat then k else k - 1
  max (log - 52) (-1074)

def nearest (num den : Nat) : Nat :=
  let q := num / den
  let r := num % den
  if den < 2 * r ∨ (2 * r = den ∧ q % 2 = 1) then q + 1 else q

def round (negative : Bool) (num den : Nat) : Binary64 :=
  if num = 0 then ⟨negative, 0, -1074⟩ else
  let e := gridExponent num den
  let q := nearest (num * Nat.pow 2 (-e).toNat) (den * Nat.pow 2 e.toNat)
  if q = Nat.pow 2 53 then ⟨negative, Nat.pow 2 52, e + 1⟩ else ⟨negative, q, e⟩

def finite? (x : Binary64) : Option Binary64 :=
  if x.exponent ≤ 971 then some x else none

def signed (x : Binary64) : Int :=
  if x.negative then -(x.significand : Int) else x.significand

/-- The integer `x / 2 ^ e`, for an `e` no larger than the exponent of `x`. -/
def scaled (x : Binary64) (e : Int) : Int :=
  x.signed * Nat.pow 2 (x.exponent - e).toNat

def ofScaled (n : Int) (e : Int) : Binary64 :=
  round (n < 0) (n.natAbs * Nat.pow 2 e.toNat) (Nat.pow 2 (-e).toNat)

def ofInt (n : Int) : Binary64 :=
  round (n < 0) n.natAbs 1

/-- The number nearest to `digits * 10 ^ exponent`. Exponents far outside the format are settled
without forming the power. -/
def ofDecimal? (digits : Nat) (exponent : Int) : Option Binary64 :=
  if digits = 0 then some zero
  else if 400 < exponent then none
  else if exponent < -(400 + (digits.log2 : Int)) then some zero
  else (round false (digits * Nat.pow 10 exponent.toNat) (Nat.pow 10 (-exponent).toNat)).finite?

def neg (x : Binary64) : Binary64 :=
  { x with negative := !x.negative }

def add? (x y : Binary64) : Option Binary64 :=
  let e := min x.exponent y.exponent
  (ofScaled (x.scaled e + y.scaled e) e).finite?

def sub? (x y : Binary64) : Option Binary64 :=
  add? x y.neg

def mul? (x y : Binary64) : Option Binary64 :=
  let e := x.exponent + y.exponent
  (round (x.negative != y.negative) (x.significand * y.significand * Nat.pow 2 e.toNat)
    (Nat.pow 2 (-e).toNat)).finite?

def div? (x y : Binary64) : Option Binary64 :=
  if y.significand = 0 then none else
  let e := x.exponent - y.exponent
  (round (x.negative != y.negative) (x.significand * Nat.pow 2 e.toNat)
    (y.significand * Nat.pow 2 (-e).toNat)).finite?

def rem? (x y : Binary64) : Option Binary64 :=
  if y.significand = 0 then none else
  let e := min x.exponent y.exponent
  let r := (x.scaled e).natAbs % (y.scaled e).natAbs
  some (round x.negative (r * Nat.pow 2 e.toNat) (Nat.pow 2 (-e).toNat))

def order (x y : Binary64) : Ordering :=
  let e := min x.exponent y.exponent
  compare (x.scaled e) (y.scaled e)

def same (x y : Binary64) : Bool :=
  order x y == .eq

def isZero (x : Binary64) : Bool :=
  x.significand = 0

def truncate (x : Binary64) : Int :=
  (x.signed * Nat.pow 2 x.exponent.toNat).tdiv (Nat.pow 2 (-x.exponent).toNat)

def isIntegral (x : Binary64) : Bool :=
  (x.significand * Nat.pow 2 x.exponent.toNat) % Nat.pow 2 (-x.exponent).toNat = 0

end Binary64
end PromptLoop
