set_option autoImplicit false

namespace PromptLoop

/-- The last call that a sink gets. -/
inductive Closing where
  | flushed
  | shutDown
deriving DecidableEq, Repr

structure Sink where
  written : ByteArray := .empty
  /-- The bytes that it still accepts; `none` is no limit. -/
  room : Option Nat := none
  /-- Whether the caller has handed it over; the standard ones of the process outlive a session. -/
  owned : Bool := true
  failsToClose : Bool := false
  closeFailure : String := "close failed"
  closings : List Closing := []

namespace Sink

def writeFailure : String := "write failed"

/-- The sink behind a write, and the message if the write failed. A write that exceeds the room
leaves what fits. -/
def write (s : Sink) (text : String) : Sink × Option String :=
  let bytes := text.toUTF8
  match s.room with
  | none => ({ s with written := s.written ++ bytes }, none)
  | some room =>
    if bytes.size ≤ room then
      ({ s with written := s.written ++ bytes, room := some (room - bytes.size) }, none)
    else
      ({ s with written := s.written ++ bytes.extract 0 room, room := some 0 }, some writeFailure)

def closeFailure? (s : Sink) : Option String :=
  if s.failsToClose then some s.closeFailure else none

/-- A sink counts as closed also where that fails. -/
def finish (s : Sink) (c : Closing) : Sink × Option String :=
  ({ s with closings := s.closings ++ [c] }, s.closeFailure?)

def closing (s : Sink) : Closing :=
  if s.owned then .shutDown else .flushed

def close (s : Sink) : Sink × Option String :=
  s.finish s.closing

def closed (s : Sink) : Bool :=
  s.closings.contains .shutDown

variable (s : Sink)

theorem write_eq (text : String) : ∃ written room, (s.write text).1 = { s with written, room } := by
  unfold Sink.write
  cases s.room with
  | none => exact ⟨_, _, rfl⟩
  | some room =>
    dsimp only
    split <;> exact ⟨_, _, rfl⟩

@[simp]
theorem close_written : s.close.1.written = s.written := rfl

@[simp]
theorem close_failure : s.close.2 = s.closeFailure? := rfl

end Sink
end PromptLoop
