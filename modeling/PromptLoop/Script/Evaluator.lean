import PromptLoop.Script.Eval
import PromptLoop.Script.Parse
import PromptLoop.Session.Evaluator

set_option autoImplicit false

namespace PromptLoop.Script

def Statement.declaration? : Statement → Option Declaration
  | .assign name _ declare => some ⟨name, declare⟩
  | _ => none

def compile (source : String) : Compilation Statement :=
  match Statement.parse source.toList with
  | .ok s => .ready s s.declaration?
  | .error .unfinished => .incomplete
  | .error (.malformed cause) => .fatal (.compile cause.message)

theorem compile_unfinished {source : String}
    (h : Statement.parse source.toList = .error .unfinished) : compile source = .incomplete := by
  simp only [compile, h]

theorem compile_unit {source : String} {unit : Statement}
    (h : Statement.parse source.toList = .ok unit) :
    compile source = .ready unit unit.declaration? := by
  simp only [compile, h]

theorem compile_malformed {source : String} {cause : Malformed}
    (h : Statement.parse source.toList = .error (.malformed cause)) :
    compile source = .fatal (.compile cause.message) := by
  simp only [compile, h]

theorem unfinished_of_compile {source : String} (h : compile source = .incomplete) :
    Statement.parse source.toList = .error .unfinished := by
  unfold compile at h
  split at h
  · cases h
  · assumption
  · cases h

/-- A run is over at once unless it takes time; one that only waits for no time takes none. -/
def execution (run : Timed RuntimeError (Option Value)) : Execution :=
  let outcome := run.outcome.mapError fun e => SessionError.runtime e.message
  if 0 < run.duration then .pending ⟨some run.duration, outcome⟩
  else match outcome with
    | .ok v => .immediate v
    | .error e => .failed e

def evaluator : Evaluator Statement where
  compile := compile
  execute s context := (execution (s.run context), context)

end PromptLoop.Script
