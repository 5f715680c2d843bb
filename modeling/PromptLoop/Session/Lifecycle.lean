import PromptLoop.Session.Error

set_option autoImplicit false

namespace PromptLoop

inductive SessionEnd where
  | endOfInput
  | interrupted
deriving DecidableEq, Repr

abbrev SessionResult := Except SessionError SessionEnd

def SessionEnd.text : SessionEnd → String
  | .endOfInput => "end-of-input"
  | .interrupted => "interrupted"

inductive SessionState where
  | pending
  | running
  | ended (e : SessionEnd)
  | failed (message : String)
deriving DecidableEq, Repr

namespace SessionState

def isEnded : SessionState → Bool
  | .ended _ => true
  | .failed _ => true
  | _ => false

def start : SessionState → SessionState
  | .pending => .running
  | s => s

def ofResult : SessionResult → SessionState
  | .ok e => .ended e
  | .error e => .failed e.message

/-- The end, and whether it was the first one; later ones change nothing. -/
def finish (s : SessionState) (r : SessionResult) : SessionState × Bool :=
  if s.isEnded then (s, false) else (ofResult r, true)

theorem isEnded_ofResult (r : SessionResult) : (ofResult r).isEnded = true := by
  cases r <;> rfl

theorem isEnded_finish (s : SessionState) (r : SessionResult) :
    (s.finish r).1.isEnded = true := by
  by_cases h : s.isEnded <;> simp [finish, h, isEnded_ofResult]

end SessionState
end PromptLoop
