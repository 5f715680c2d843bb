import PromptLoop.Number.Binary64

set_option autoImplicit false

/-!
# The fewest digits that read back

The reals that round to a binary64 number form an interval, with its ends exactly when the
significand is even. On the grid of one decimal digit, of two, and so on up to seventeen, the two
points next to the number are tried; the first grid with a point in the interval gives the digits.
All comparisons are between naturals.
-/
namespace PromptLoop.Binary64

structure Grid where
  scale : Int

def Grid.compareQuarter (g : Grid) (c v : Nat) (exponent : Int) : Ordering :=
  compare (4 * c * Nat.pow 10 g.scale.toNat * Nat.pow 2 (-exponent).toNat)
    (v * Nat.pow 2 exponent.toNat * Nat.pow 10 (-g.scale).toNat)

/-- Whether the number below is only half as far away as the number above. -/
def narrowBelow (x : Binary64) : Bool :=
  x.significand == Nat.pow 2 52 && decide (-1074 < x.exponent)

def readsBack (x : Binary64) (g : Grid) (c : Nat) : Bool :=
  let low := 4 * x.significand - (if x.narrowBelow then 1 else 2)
  let high := 4 * x.significand + 2
  let even := x.significand % 2 = 0
  (match g.compareQuarter c low x.exponent with
    | .lt => false
    | .eq => even
    | .gt => true) &&
  (match g.compareQuarter c high x.exponent with
    | .lt => true
    | .eq => even
    | .gt => false)

def belowPower (x : Binary64) (k : Int) : Bool :=
  x.significand * Nat.pow 2 x.exponent.toNat * Nat.pow 10 (-k).toNat <
    Nat.pow 10 k.toNat * Nat.pow 2 (-x.exponent).toNat

/-- The least `k` with the magnitude of a positive number below `10 ^ k`: an estimate from the
binary logarithm, corrected by comparison. -/
def decimalScale (x : Binary64) : Int :=
  let estimate := (((x.significand.log2 : Int) + x.exponent) * 30103).fdiv 100000
  if x.belowPower (estimate - 1) then estimate - 1
  else if x.belowPower estimate then estimate
  else if x.belowPower (estimate + 1) then estimate + 1
  else estimate + 2

inductive Tie where
  | up
  | even
deriving DecidableEq, Repr

def pointBelow (x : Binary64) (g : Grid) : Nat :=
  (x.significand * Nat.pow 2 x.exponent.toNat * Nat.pow 10 (-g.scale).toNat) /
    (Nat.pow 10 g.scale.toNat * Nat.pow 2 (-x.exponent).toNat)

def onGrid? (x : Binary64) (tie : Tie) (g : Grid) : Option Nat :=
  let c := x.pointBelow g
  match x.readsBack g c, x.readsBack g (c + 1) with
  | false, false => none
  | true, false => some c
  | false, true => some (c + 1)
  | true, true =>
    match g.compareQuarter (2 * c + 1) (8 * x.significand) x.exponent with
    | .lt => some (c + 1)
    | .gt => some c
    | .eq => match tie with
      | .up => some (c + 1)
      | .even => some (if c % 2 = 0 then c else c + 1)

def firstGrid (x : Binary64) (tie : Tie) (k : Int) : Nat → Nat → Option (Nat × Int)
  | 0, _ => none
  | fuel + 1, count =>
    let g : Grid := ⟨k - count⟩
    match x.onGrid? tie g with
    | some c => some (c, g.scale)
    | none => firstGrid x tie k fuel (count + 1)

/-- Decimal digits, the first of them not `0`, and the power of ten that the first one counts. -/
structure Digits where
  digits : List Char
  exponent : Int
deriving DecidableEq, Repr

def naturalDigits (n : Nat) : List Char :=
  Nat.toDigits 10 n

def withoutTrailingZeros (digits : List Char) : List Char :=
  (digits.reverse.dropWhile (· == '0')).reverse

/-- The fewest digits that read back as the magnitude of `x`; a zero has the one digit `0`. -/
def shortest (x : Binary64) (tie : Tie) : Digits :=
  if x.significand = 0 then ⟨['0'], 0⟩ else
  let (c, scale) := (x.firstGrid tie x.decimalScale 17 1).getD
    (x.significand * Nat.pow 2 x.exponent.toNat * Nat.pow 5 (-x.exponent).toNat, min x.exponent 0)
  let digits := naturalDigits c
  ⟨withoutTrailingZeros digits, scale + (digits.length : Int) - 1⟩

end PromptLoop.Binary64
