import PromptLoop.Proofs.Lines.Handover
import PromptLoop.Session.Driver

set_option autoImplicit false

/-!
# Sessions as runs of events

Between two waiting points the driver of a session takes a step, and at every waiting point its
surroundings may act. A run is any list of such events.

`Terms` say what can happen in a session: which errors its evaluations report, with which results it
may end, and whether it is interrupted. `Inside` are the phases in which a line, an interrupt or a
result is handled on these terms. The driver's functions from one waiting point to the next lead
there and leave the buffer and the sinks alone (`Moves`).
-/
namespace PromptLoop

inductive SessionEvent where
  | step
  /-- The result that the driver waits for becomes known. -/
  | resolve
  | feed (chunk : List UInt8)
  | finish
  | fail (message : String)
  | interrupt
  | embed (change : Bindings Value → Bindings Value)

structure Terms where
  errors : SessionError → Prop
  results : SessionResult → Prop
  interrupts : Prop

namespace Phase

/-- The result that a session is about to end with, or has ended with. -/
def verdict? : Phase → Option SessionResult
  | .closing r => some r
  | .closingErrors r _ => some r
  | .ended r => some r
  | _ => none

def awaits : Phase → Bool
  | .awaiting none => true
  | _ => false

def Inside (terms : Terms) : Phase → Prop
  | .created => False
  | .loading => False
  | .prompting line => line.isSome = true
  | .awaiting _ => False
  | .pending _ d interrupted =>
    (interrupted = true → terms.interrupts) ∧ ∀ e, d.outcome = .error e → terms.errors e
  | .transforming d => ∀ e, d.outcome = .error e → terms.errors e
  | .reporting e => terms.errors e
  | .breaking => terms.interrupts
  | .closing r => terms.results r
  | .closingErrors r failure =>
    terms.results r ∧ ∀ message ∈ failure, terms.results (.error (.transport message))
  | .ended r => terms.results r
  | _ => True

theorem Inside.awaits {terms : Terms} {p : Phase} (h : p.Inside terms) : p.awaits = false := by
  cases p with
  | awaiting a => exact False.elim h
  | _ => rfl

end Phase

/-- An answer that a read may get: the marker only where there are interrupts, a failure only if the
session may end with it. -/
def Answer.Within (terms : Terms) : Answer → Prop
  | .line l => l = interruptMarker → terms.interrupts
  | .failed message => terms.results (.error (.transport message))
  | .ended => True

variable {U : Type}

/-- The evaluator and the transform report errors in `E` only. -/
structure Setup.Reports (setup : Setup U) (E : SessionError → Prop) : Prop where
  compile : ∀ source e, setup.evaluator.compile source = .fatal e → E e
  failed : ∀ unit context e, (setup.evaluator.execute unit context).1 = .failed e → E e
  pending : ∀ unit context d e, (setup.evaluator.execute unit context).1 = .pending d →
    d.outcome = .error e → E e
  transform : ∀ transform v e, setup.transform = some transform →
    (transform v).outcome = .error e → E e

theorem Setup.Reports.mono {setup : Setup U} {E E' : SessionError → Prop} (h : setup.Reports E)
    (hE : ∀ e, E e → E' e) : setup.Reports E' where
  compile source e he := hE e (h.compile source e he)
  failed unit context e he := hE e (h.failed unit context e he)
  pending unit context d e hd he := hE e (h.pending unit context d e hd he)
  transform transform v e ht he := hE e (h.transform transform v e ht he)

structure Terms.Cover (terms : Terms) (setup : Setup U) : Prop where
  reports : setup.Reports terms.errors
  fatal : ∀ e, terms.errors e → e.isFatal = true → terms.results (.error e)
  input_ended : terms.results (.ok .endOfInput)
  abandoned : terms.interrupts → terms.errors .interrupted
  interrupted : terms.interrupts → terms.results (.ok .interrupted)
  file : ∀ e, setup.source = .file (.error e) → terms.results (.error (.transport e.message))

namespace Session
variable (setup : Setup U)

def handle (s : Session) : SessionEvent → Session
  | .step => s.step setup
  | .resolve => s.resolve setup
  | .feed chunk => s.feed chunk
  | .finish => s.finish
  | .fail message => s.failInput message
  | .interrupt => s.interrupt
  | .embed change => s.embed change

def run (s : Session) (events : List SessionEvent) : Session :=
  events.foldl (handle setup) s

theorem run_append (s : Session) (front back : List SessionEvent) :
    s.run setup (front ++ back) = (s.run setup front).run setup back :=
  List.foldl_append

theorem run_concat (s : Session) (events : List SessionEvent) (e : SessionEvent) :
    s.run setup (events ++ [e]) = (s.run setup events).handle setup e :=
  run_append setup s events [e]

theorem ended_of_result {s : Session} {result : SessionResult} (h : s.result? = some result) :
    s.phase = .ended result := by
  unfold Session.result? at h
  split at h
  · rename_i r hp
    rw [hp, Option.some.inj h]
  · cases h

/-- `t` is `s` further on: in a phase inside an iteration, with the same buffer and sinks. -/
structure Moves (terms : Terms) (s t : Session) : Prop where
  phase : t.phase.Inside terms
  buffer : t.buffer = s.buffer
  output : t.output = s.output
  errors : t.errors = s.errors

section Moves
variable {setup} {terms : Terms} (ht : terms.Cover setup) (s : Session)

theorem Moves.of_eq {s s' t : Session} (h : Moves terms s' t) (hb : s'.buffer = s.buffer)
    (ho : s'.output = s.output) (he : s'.errors = s.errors) : Moves terms s t :=
  ⟨h.phase, h.buffer.trans hb, h.output.trans ho, h.errors.trans he⟩

theorem close_moves {result : SessionResult} (h : terms.results result) :
    Moves terms s (s.close result) :=
  ⟨h, rfl, rfl, rfl⟩

theorem yield_moves : Moves terms s s.yield :=
  ⟨trivial, rfl, rfl, rfl⟩

include ht

theorem fail_moves {e : SessionError} (he : terms.errors e) : Moves terms s (s.fail e) := by
  unfold Session.fail
  split
  · rename_i hf
    exact close_moves s (ht.fatal e he hf)
  · exact ⟨he, rfl, rfl, rfl⟩

theorem transformed_moves {outcome : Except SessionError (Option Value)}
    (ho : ∀ e, outcome = .error e → terms.errors e) : Moves terms s (s.transformed outcome) := by
  cases outcome with
  | error e => exact fail_moves ht s (ho e rfl)
  | ok v =>
    cases v with
    | none => exact yield_moves s
    | some v => exact ⟨trivial, rfl, rfl, rfl⟩

theorem present_moves (v : Option Value) : Moves terms s (s.present setup v) := by
  unfold Session.present
  split
  · exact yield_moves s
  · exact ⟨trivial, rfl, rfl, rfl⟩
  · rename_i v transform htransform
    have ho : ∀ e, (transform v).outcome = .error e → terms.errors e :=
      fun e => ht.reports.transform transform v e htransform
    dsimp only
    split
    · exact transformed_moves ht s ho
    · exact ⟨ho, rfl, rfl, rfl⟩

theorem settled_moves (declaration : Option Declaration)
    {outcome : Except SessionError (Option Value)}
    (ho : ∀ e, outcome = .error e → terms.errors e) :
    Moves terms s (s.settled setup declaration outcome) := by
  unfold Session.settled
  split
  · rename_i e
    exact fail_moves ht s (ho e rfl)
  · exact present_moves ht s _
  · rename_i v d
    dsimp only
    split
    · exact (yield_moves _).of_eq rfl rfl rfl
    · exact (present_moves ht _ _).of_eq rfl rfl rfl

theorem evaluate_moves (line : String) : Moves terms s (s.evaluate setup line) := by
  cases hc : setup.evaluator.compile (s.accumulated ++ line) with
  | incomplete =>
    simp only [Session.evaluate, hc]
    exact (yield_moves _).of_eq rfl rfl rfl
  | fatal e =>
    simp only [Session.evaluate, hc]
    exact (fail_moves ht _ (ht.reports.compile _ e hc)).of_eq rfl rfl rfl
  | ready unit declaration =>
    cases hx : setup.evaluator.execute unit s.context with
    | mk execution context =>
      have hx1 : (setup.evaluator.execute unit s.context).1 = execution := by rw [hx]
      unfold Session.evaluate
      simp only [hc, hx]
      cases execution with
      | immediate v => exact (settled_moves ht _ declaration (by simp)).of_eq rfl rfl rfl
      | failed e => exact (fail_moves ht _ (ht.reports.failed _ _ e hx1)).of_eq rfl rfl rfl
      | pending d => exact ⟨⟨by simp, fun e => ht.reports.pending _ _ d e hx1⟩, rfl, rfl, rfl⟩

theorem receive_moves {a : Answer} (ha : a.Within terms) : Moves terms s (s.receive setup a) := by
  cases a with
  | line l =>
    simp only [Session.receive]
    split
    · rename_i hm
      exact ⟨ha hm, rfl, rfl, rfl⟩
    · split
      · exact ⟨rfl, rfl, rfl, rfl⟩
      · exact evaluate_moves ht s l
  | failed message => exact close_moves s ha
  | ended => exact yield_moves s

theorem afterBreak_moves (hi : terms.interrupts) : Moves terms s s.afterBreak := by
  unfold Session.afterBreak
  split
  · exact close_moves s (ht.interrupted hi)
  · exact (yield_moves _).of_eq rfl rfl rfl

end Moves

/-- A write either goes on with what was to come next or closes the session. -/
theorem write_cases (text : String) (next : Session → Session) (s : Session) :
    ((s.output.write text).2 = none ∧
      s.write text next = next { s with output := (s.output.write text).1 }) ∨
    ∃ message, (s.output.write text).2 = some message ∧
      s.write text next =
        close (.error (.transport message)) { s with output := (s.output.write text).1 } := by
  unfold Session.write
  cases h : s.output.write text with
  | mk output failure =>
    cases failure with
    | none => exact .inl ⟨rfl, rfl⟩
    | some message => exact .inr ⟨message, rfl, rfl⟩

theorem writeError_cases (text : String) (next : Session → Session) (s : Session) :
    ((s.errors.write text).2 = none ∧
      s.writeError text next = next { s with errors := (s.errors.write text).1 }) ∨
    ∃ message, (s.errors.write text).2 = some message ∧
      s.writeError text next =
        close (.error (.transport message)) { s with errors := (s.errors.write text).1 } := by
  unfold Session.writeError
  cases h : s.errors.write text with
  | mk errors failure =>
    cases failure with
    | none => exact .inl ⟨rfl, rfl⟩
    | some message => exact .inr ⟨message, rfl, rfl⟩

end Session
end PromptLoop
