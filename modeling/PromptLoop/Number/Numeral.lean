import PromptLoop.Number

set_option autoImplicit false

namespace PromptLoop

structure Numeral where
  negative : Bool
  whole : List Char
  fraction : Option (List Char)
  exponent : Option (Bool × List Char)
deriving DecidableEq, Repr

namespace Numeral

def digits (s : List Char) : List Char × List Char :=
  (s.takeWhile Char.isDigit, s.dropWhile Char.isDigit)

theorem digits_append (s : List Char) : (digits s).1 ++ (digits s).2 = s :=
  List.takeWhile_append_dropWhile

def whole? (s : List Char) : Option (List Char × List Char) :=
  match digits s with
  | ([], _) => none
  | ('0' :: _ :: _, _) => none
  | (ds, rest) => some (ds, rest)

def fraction? : List Char → Option (Option (List Char) × List Char)
  | '.' :: rest =>
    match digits rest with
    | ([], _) => none
    | (ds, rest) => some (some ds, rest)
  | s => some (none, s)

def exponentDigits? (negative : Bool) (s : List Char) :
    Option (Option (Bool × List Char) × List Char) :=
  match digits s with
  | ([], _) => none
  | (ds, rest) => some (some (negative, ds), rest)

def exponent? : List Char → Option (Option (Bool × List Char) × List Char)
  | c :: rest =>
    if c = 'e' ∨ c = 'E' then
      match rest with
      | '+' :: rest => exponentDigits? false rest
      | '-' :: rest => exponentDigits? true rest
      | rest => exponentDigits? false rest
    else some (none, c :: rest)
  | [] => some (none, [])

def read? (s : List Char) : Option (Numeral × List Char) := do
  let (negative, s) := match s with
    | '-' :: rest => (true, rest)
    | s => (false, s)
  let (whole, s) ← whole? s
  let (fraction, s) ← fraction? s
  let (exponent, s) ← exponent? s
  pure (⟨negative, whole, fraction, exponent⟩, s)

def digitValue (c : Char) : Nat :=
  c.toNat - '0'.toNat

def natural (ds : List Char) : Nat :=
  ds.foldl (fun n c => n * 10 + digitValue c) 0

/-- Appends digits to a significand for as long as it fits 64 bits, and returns those left over. -/
def absorb : Nat → List Char → Nat × List Char
  | significand, [] => (significand, [])
  | significand, c :: rest =>
    let next := significand * 10 + digitValue c
    if next < Nat.pow 2 64 then absorb next rest else (significand, c :: rest)

def powerOfTen (k : Nat) : Binary64 :=
  (Binary64.ofDecimal? 1 k).getD Binary64.zero

/-- `x * 10 ^ e` by one rounded multiplication or division, after divisions by `10 ^ 308` where `e`
is below -308. Two of these bring every significand to zero, so the first argument may be 3. -/
def scaleBy? : Nat → Binary64 → Int → Option Binary64
  | 0, x, _ => some x
  | fuel + 1, x, e =>
    if e.natAbs ≤ 308 then
      if 0 ≤ e then x.mul? (powerOfTen e.toNat) else x.div? (powerOfTen (-e).toNat)
    else if x.isZero then some x
    else if 0 ≤ e then none
    else (x.div? (powerOfTen 308)).bind fun y => scaleBy? fuel y (e + 308)

def exponentValue (n : Numeral) : Int :=
  match n.exponent with
  | none => 0
  | some (true, ds) => -(natural ds : Int)
  | some (false, ds) => natural ds

def real? (n : Numeral) : Option Binary64 :=
  let (significand, dropped) := absorb 0 n.whole
  let fraction := n.fraction.getD []
  let (significand, unused) := absorb significand fraction
  let e := n.exponentValue + dropped.length - (fraction.length - unused.length : Nat)
  (scaleBy? 3 (.ofInt significand) e).map fun x => if n.negative then x.neg else x

/-- The value of a numeral; `none` beyond the largest number. A negative zero is not an integer. -/
def value? (n : Numeral) : Option Number :=
  match n.fraction, n.exponent, absorb 0 n.whole with
  | none, none, (significand, []) =>
    if n.negative then
      if 1 ≤ significand ∧ significand ≤ Nat.pow 2 63 then some (.integer (-(significand : Int)))
      else some (.real (Binary64.ofInt significand).neg)
    else some (.integer significand)
  | _, _, _ => n.real?.map .real

end Numeral
end PromptLoop
