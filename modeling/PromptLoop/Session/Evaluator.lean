import PromptLoop.Session.Error
import PromptLoop.Value

set_option autoImplicit false

namespace PromptLoop

/-- The name that a unit binds to its value. The value of a silent declaration is not displayed. -/
structure Declaration where
  name : String
  silent : Bool
deriving DecidableEq, Repr

inductive Compilation (U : Type) where
  | ready (unit : U) (declaration : Option Declaration)
  | incomplete
  | fatal (e : SessionError)

/-- A result that is known after some milliseconds, or never. -/
structure Deferred where
  after : Option Nat
  outcome : Except SessionError (Option Value)

inductive Execution where
  | immediate (v : Option Value)
  | pending (d : Deferred)
  | failed (e : SessionError)

structure Evaluator (U : Type) where
  compile : String → Compilation U
  execute : U → Bindings Value → Execution × Bindings Value

/-- A step between a value and its display, which may take time, fail, or suppress the value. -/
abbrev Transform := Value → Deferred

end PromptLoop
