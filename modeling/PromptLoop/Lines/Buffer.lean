import PromptLoop.Unicode.Utf8

set_option autoImplicit false

/-!
# The line buffer

Bytes arrive in chunks of any size and leave as lines. Every line ends in its separator; a last
line without one is given it when the input ends. An interrupt drops what is buffered and puts the
empty string, which is no line, in its place.

At most one read waits for an answer. It is answered by the first line, else by the failure of the
input, else, once the input has ended, by the end. A read that nobody waits for any more is
abandoned: its answer stays in the buffer, and the next read takes its place.
-/
namespace PromptLoop

def separator : UInt8 := 10

/-- What an interrupt puts in front of all later lines. -/
def interruptMarker : String := ""

/-- What a read is answered with. -/
inductive Answer where
  | line (text : String)
  | failed (message : String)
  | ended
deriving DecidableEq, Repr

inductive Slot where
  | free | awaited | abandoned
deriving DecidableEq, Repr

inductive ReadFault where
  | outstanding | afterEnd
deriving DecidableEq, Repr

def ReadFault.message : ReadFault → String
  | .outstanding => "read_line called while a previous read is still outstanding"
  | .afterEnd => "read_line called after end of input"

/-- Bytes cut at separators: the complete lines and the bytes behind the last of them, all kept
last one first. -/
structure Cut where
  lines : List (List UInt8)
  residue : List UInt8
deriving DecidableEq, Repr

def Cut.push (c : Cut) (b : UInt8) : Cut :=
  if b = separator then ⟨(b :: c.residue).reverse :: c.lines, []⟩ else ⟨c.lines, b :: c.residue⟩

structure LineBuffer where
  /-- The bytes behind the last separator, last one first. -/
  residue : List UInt8 := []
  lines : List String := []
  slot : Slot := .free
  ended : Bool := false
  failure : Option String := none
deriving DecidableEq, Repr

namespace LineBuffer

def answer? (b : LineBuffer) : Option (Answer × LineBuffer) :=
  match b.lines, b.failure with
  | line :: rest, _ => some (.line line, { b with lines := rest })
  | [], some message => some (.failed message, { b with failure := none })
  | [], none => if b.ended then some (.ended, b) else none

def settle (b : LineBuffer) : LineBuffer × Option Answer :=
  match b.slot, b.answer? with
  | .awaited, some (a, rest) => ({ rest with slot := .free }, some a)
  | .abandoned, some _ => ({ b with slot := .free }, none)
  | _, _ => (b, none)

def feed (chunk : List UInt8) (b : LineBuffer) : LineBuffer × Option Answer :=
  if b.ended then (b, none)
  else
    let cut := chunk.foldl Cut.push ⟨[], b.residue⟩
    settle
      { b with lines := b.lines ++ cut.lines.reverse.map Utf8.toText, residue := cut.residue }

def finish (b : LineBuffer) : LineBuffer × Option Answer :=
  if b.ended then (b, none)
  else
    let last := if b.residue.isEmpty then [] else [Utf8.toText (separator :: b.residue).reverse]
    settle { b with lines := b.lines ++ last, residue := [], ended := true }

def fail (message : String) (b : LineBuffer) : LineBuffer × Option Answer :=
  if b.ended then (b, none)
  else settle { b with residue := [], ended := true, failure := some message }

/-- Drops what is buffered and leaves the marker, also after the end. -/
def interrupt (b : LineBuffer) : LineBuffer × Option Answer :=
  settle { b with residue := [], lines := [interruptMarker] }

def read (b : LineBuffer) : Except ReadFault (LineBuffer × Option Answer) :=
  if b.slot = .awaited then .error .outstanding
  else match b.lines, b.failure with
    | line :: rest, _ => .ok ({ b with lines := rest, slot := .free }, some (.line line))
    | [], some message => .ok ({ b with failure := none, slot := .free }, some (.failed message))
    | [], none => if b.ended then .error .afterEnd else .ok ({ b with slot := .awaited }, none)

def abandon (b : LineBuffer) : LineBuffer :=
  if b.slot = .awaited then { b with slot := .abandoned } else b

/-- Whether the input has ended and everything in the buffer has been read. -/
def isDone (b : LineBuffer) : Bool :=
  b.ended && b.lines.isEmpty && b.failure.isNone

def buffered (b : LineBuffer) : Nat :=
  b.lines.length

end LineBuffer
end PromptLoop
