import PromptLoop.Session.Evaluator

set_option autoImplicit false

namespace PromptLoop.Transform

def known (outcome : Except SessionError (Option Value)) : Deferred :=
  ⟨some 0, outcome⟩

def identity : Transform := fun v => known (.ok (some v))

def int64? : Value → Option Int
  | .number (.integer n) => if -Nat.pow 2 63 ≤ n ∧ n < Nat.pow 2 63 then some n else none
  | _ => none

def doubled : Transform := fun v =>
  known (.ok ((int64? v).map fun n => .ofInt (n * 2)))

def wrappedAfter (ms : Nat) : Transform := fun v => ⟨some ms, .ok (some (.array [v]))⟩

def withoutStrings (e : SessionError) : Transform := fun v =>
  known (if v.isString then .error e else .ok (some v))

end PromptLoop.Transform
