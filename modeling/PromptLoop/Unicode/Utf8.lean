set_option autoImplicit false

/-!
# Reading UTF-8 with replacement

Every byte string is read as text. A decoder is a state and the characters so far; one byte at a
time moves it. Where a sequence cannot go on, the longest part of it that could have begun a
character is replaced by one U+FFFD, and the byte that broke it is looked at afresh.
-/
namespace PromptLoop.Utf8

/-- Where the decoder stands: between characters, or inside one with the value of the bits so
far, the number of bytes still to come and the bounds on the next of them. -/
inductive Progress where
  | start
  | inside (value remaining low high : Nat)
deriving DecidableEq, Repr

def replacement : Char := '\uFFFD'

/-- The first byte of a character. The bounds on the second byte keep out overlong forms,
surrogates and values above U+10FFFF. -/
def lead (b : Nat) : Progress × List Char :=
  if b < 0x80 then (.start, [Char.ofNat b])
  else if 0xC2 ≤ b ∧ b ≤ 0xDF then (.inside (b - 0xC0) 1 0x80 0xBF, [])
  else if b = 0xE0 then (.inside 0 2 0xA0 0xBF, [])
  else if b = 0xED then (.inside 0xD 2 0x80 0x9F, [])
  else if 0xE1 ≤ b ∧ b ≤ 0xEF then (.inside (b - 0xE0) 2 0x80 0xBF, [])
  else if b = 0xF0 then (.inside 0 3 0x90 0xBF, [])
  else if 0xF1 ≤ b ∧ b ≤ 0xF3 then (.inside (b - 0xF0) 3 0x80 0xBF, [])
  else if b = 0xF4 then (.inside 4 3 0x80 0x8F, [])
  else (.start, [replacement])

def step : Progress → Nat → Progress × List Char
  | .start, b => lead b
  | .inside value remaining low high, b =>
    if low ≤ b ∧ b ≤ high then
      let value := value * 64 + (b - 0x80)
      if remaining ≤ 1 then (.start, [Char.ofNat value])
      else (.inside value (remaining - 1) 0x80 0xBF, [])
    else
      let (progress, chars) := lead b
      (progress, replacement :: chars)

def flush : Progress → List Char
  | .start => []
  | .inside .. => [replacement]

structure Decoder where
  progress : Progress := .start
  /-- The characters so far, the last one first. -/
  reversed : List Char := []

def Decoder.push (d : Decoder) (b : UInt8) : Decoder :=
  let (progress, chars) := step d.progress b.toNat
  ⟨progress, chars.reverse ++ d.reversed⟩

def Decoder.finish (d : Decoder) : List Char :=
  d.reversed.reverse ++ flush d.progress

def decode (bytes : List UInt8) : List Char :=
  (bytes.foldl Decoder.push {}).finish

theorem decode_append (front back : List UInt8) :
    decode (front ++ back) = (back.foldl Decoder.push (front.foldl Decoder.push {})).finish := by
  simp [decode]

def toText (bytes : List UInt8) : String :=
  String.ofList (decode bytes)

end PromptLoop.Utf8
