import PromptLoop.Proofs.Session.Invariant

set_option autoImplicit false

namespace PromptLoop

variable {U : Type}

def Execution.outcome : Execution → Except SessionError (Option Value)
  | .immediate v => .ok v
  | .pending d => d.outcome
  | .failed e => .error e

structure Transcript where
  output : String := ""
  errors : String := ""
  context : Bindings Value := []
  accumulated : String := ""

namespace Transcript
variable (setup : Setup U)

def write (text : String) (t : Transcript) : Transcript :=
  { t with output := t.output ++ text }

def report (e : SessionError) (t : Transcript) : Transcript :=
  { t with errors := t.errors ++ Session.errorText setup e }

def display (v : Value) (t : Transcript) : Transcript :=
  t.write (setup.format v ++ "\n")

def promptText (t : Transcript) : String :=
  let prompt := if t.accumulated = "" then setup.prompt else setup.continuation
  String.ofList (Terminal.paintIf setup.styled [.blue, .bold] prompt.toList)

def transformed (outcome : Except SessionError (Option Value)) (t : Transcript) : Transcript :=
  match outcome with
  | .error e => t.report setup e
  | .ok none => t
  | .ok (some v) => t.display setup v

def present (v : Option Value) (t : Transcript) : Transcript :=
  match v, setup.transform with
  | none, _ => t
  | some v, none => t.display setup v
  | some v, some transform => t.transformed setup (transform v).outcome

def settled (declaration : Option Declaration) (outcome : Except SessionError (Option Value))
    (t : Transcript) : Transcript :=
  match outcome, declaration with
  | .error e, _ => t.report setup e
  | .ok v, none => t.present setup v
  | .ok v, some d =>
    let t := { t with context := t.context.insert d.name (v.getD .null) }
    if d.silent then t else t.present setup (some (v.getD .null))

def evaluate (line : String) (t : Transcript) : Transcript :=
  let source := t.accumulated ++ line
  match setup.evaluator.compile source with
  | .incomplete => { t with accumulated := source }
  | .fatal e => { t with accumulated := "" }.report setup e
  | .ready unit declaration =>
    let (execution, context) := setup.evaluator.execute unit t.context
    { t with accumulated := "", context }.settled setup declaration execution.outcome

def line (t : Transcript) (l : String) : Transcript :=
  (t.write (t.promptText setup ++ l)).evaluate setup l

end Transcript

def Phase.ahead : Phase → Nat
  | .ended _ => 0
  | .closingErrors _ _ => 1
  | .closing _ => 2
  | .awaiting none => 2
  | .awaiting (some (.line _)) => 3
  | .yielding => 3
  | .loading => 3
  | .awaiting (some _) => 4
  | .created => 4
  | .printing _ => 4
  | .reporting _ => 4
  | .breaking => 4
  | .transforming _ => 5
  | .pending _ _ _ => 6
  | .echoing _ => 7
  | .prompting _ => 8

def Phase.complete (setup : Setup U) (p : Phase) (t : Transcript) : Transcript :=
  match p with
  | .prompting (some l) => t.line setup l
  | .echoing l => (t.write l).evaluate setup l
  | .pending declaration d _ => t.settled setup declaration d.outcome
  | .transforming d => t.transformed setup d.outcome
  | .printing v => t.display setup v
  | .reporting e => t.report setup e
  | _ => t

namespace Session

structure Shows (s origin : Session) (t : Transcript) : Prop where
  output : s.output.written = origin.output.written ++ t.output.toUTF8
  errors : s.errors.written = origin.errors.written ++ t.errors.toUTF8
  context : s.context = t.context
  accumulated : s.accumulated = t.accumulated

def Comes (setup : Setup U) (s origin : Session) (t : Transcript) : Prop :=
  ∃ now, s.Shows origin now ∧ s.phase.complete setup now = t

/-- `s` comes to `t` and is inside its iteration, at most `n` events ahead of its end. -/
structure ComesWithin (setup : Setup U) (s origin : Session) (t : Transcript) (n : Nat) :
    Prop where
  comes : s.Comes setup origin t
  running : 3 ≤ s.phase.ahead
  within : s.phase.ahead ≤ n

variable {setup : Setup U} {origin s : Session} {t : Transcript}

theorem ComesWithin.mono {n m : Nat} (h : s.ComesWithin setup origin t n) (hle : n ≤ m) :
    s.ComesWithin setup origin t m :=
  ⟨h.comes, h.running, Nat.le_trans h.within hle⟩

theorem Shows.phase (h : s.Shows origin t) (p : Phase) : Shows { s with phase := p } origin t :=
  ⟨h.output, h.errors, h.context, h.accumulated⟩

theorem Shows.yield (h : s.Shows origin t) : s.yield.ComesWithin setup origin t 3 :=
  ⟨⟨t, h.phase .yielding, rfl⟩, Nat.le_refl 3, Nat.le_refl 3⟩

theorem Shows.reporting (h : s.Shows origin t) (e : SessionError) :
    ComesWithin setup { s with phase := .reporting e } origin (t.report setup e) 4 :=
  ⟨⟨t, h.phase (.reporting e), rfl⟩, by simp [Phase.ahead], Nat.le_refl 4⟩

theorem Shows.printing (h : s.Shows origin t) (v : Value) :
    ComesWithin setup { s with phase := .printing v } origin (t.display setup v) 4 :=
  ⟨⟨t, h.phase (.printing v), rfl⟩, by simp [Phase.ahead], Nat.le_refl 4⟩

theorem Shows.transforming (h : s.Shows origin t) (d : Deferred) :
    ComesWithin setup { s with phase := .transforming d } origin
      (t.transformed setup d.outcome) 5 :=
  ⟨⟨t, h.phase (.transforming d), rfl⟩, by simp [Phase.ahead], Nat.le_refl 5⟩

theorem Shows.pending (h : s.Shows origin t) (declaration : Option Declaration) (d : Deferred) :
    ComesWithin setup { s with phase := .pending declaration d false } origin
      (t.settled setup declaration d.outcome) 6 :=
  ⟨⟨t, h.phase (.pending declaration d false), rfl⟩, by simp [Phase.ahead], Nat.le_refl 6⟩

theorem Shows.fail {e : SessionError} (h : s.Shows origin t) (he : e.isFatal = false) :
    (s.fail e).ComesWithin setup origin (t.report setup e) 4 := by
  unfold Session.fail
  rw [if_neg (by simp [he])]
  exact h.reporting e

theorem Shows.transformed {outcome : Except SessionError (Option Value)}
    (h : s.Shows origin t) (ho : ∀ e, outcome = .error e → e.isFatal = false) :
    (s.transformed outcome).ComesWithin setup origin (t.transformed setup outcome) 4 := by
  cases outcome with
  | error e => exact h.fail (ho e rfl)
  | ok v =>
    cases v with
    | none => exact h.yield.mono (by decide)
    | some v => exact h.printing v

section Reports
variable (hr : setup.Reports fun e => e.isFatal = false)
include hr

theorem Shows.present (h : s.Shows origin t) (v : Option Value) :
    (s.present setup v).ComesWithin setup origin (t.present setup v) 5 := by
  cases v with
  | none => exact h.yield.mono (by decide)
  | some v =>
    cases ht : setup.transform with
    | none =>
      simp only [Session.present, Transcript.present, ht]
      exact (h.printing v).mono (by decide)
    | some transform =>
      have ho : ∀ e, (transform v).outcome = .error e → e.isFatal = false :=
        fun e => hr.transform transform v e ht
      simp only [Session.present, Transcript.present, ht]
      split
      · exact (h.transformed ho).mono (by decide)
      · exact h.transforming (transform v)

theorem Shows.settled (h : s.Shows origin t) (declaration : Option Declaration)
    {outcome : Except SessionError (Option Value)}
    (ho : ∀ e, outcome = .error e → e.isFatal = false) :
    (s.settled setup declaration outcome).ComesWithin setup origin
      (t.settled setup declaration outcome) 5 := by
  cases outcome with
  | error e => exact (h.fail (ho e rfl)).mono (by decide)
  | ok v =>
    cases declaration with
    | none => exact h.present hr v
    | some d =>
      have hbound : Shows { s with context := s.context.insert d.name (v.getD .null) } origin
          { t with context := t.context.insert d.name (v.getD .null) } :=
        ⟨h.output, h.errors, by rw [h.context], h.accumulated⟩
      simp only [Session.settled, Transcript.settled]
      split
      · exact hbound.yield.mono (by decide)
      · exact hbound.present hr _

theorem Shows.evaluate (h : s.Shows origin t) (line : String) :
    (s.evaluate setup line).ComesWithin setup origin (t.evaluate setup line) 6 := by
  obtain ⟨output, errors, context, accumulated⟩ := t
  obtain rfl : s.context = context := h.context
  obtain rfl : s.accumulated = accumulated := h.accumulated
  unfold Session.evaluate Transcript.evaluate
  cases hc : setup.evaluator.compile (s.accumulated ++ line) with
  | incomplete =>
    simp only [hc]
    have hkept : Shows { s with accumulated := s.accumulated ++ line } origin
        ⟨output, errors, s.context, s.accumulated ++ line⟩ :=
      ⟨h.output, h.errors, rfl, rfl⟩
    exact hkept.yield.mono (by decide)
  | fatal e =>
    simp only [hc]
    have hdropped : Shows { s with accumulated := "" } origin ⟨output, errors, s.context, ""⟩ :=
      ⟨h.output, h.errors, rfl, rfl⟩
    exact (hdropped.fail (hr.compile _ e hc)).mono (by decide)
  | ready unit declaration =>
    cases hx : setup.evaluator.execute unit s.context with
    | mk execution context =>
      have hx1 : (setup.evaluator.execute unit s.context).1 = execution := by rw [hx]
      simp only [hc, hx]
      have hrun :
          Shows { s with accumulated := "", context } origin ⟨output, errors, context, ""⟩ :=
        ⟨h.output, h.errors, rfl, rfl⟩
      cases execution with
      | immediate v => exact (hrun.settled hr declaration (by simp)).mono (by decide)
      | failed e => exact (hrun.fail (hr.failed _ _ e hx1)).mono (by decide)
      | pending d => exact hrun.pending declaration d

end Reports

theorem promptText_eq (h : s.accumulated = t.accumulated) :
    s.promptText setup = t.promptText setup := by
  simp only [Session.promptText, Transcript.promptText, h]

theorem Shows.write (h : s.Shows origin t) (hs : s.output.room = none) (text : String)
    (next : Session → Session) :
    s.write text next = next { s with output := (s.output.write text).1 } ∧
      Shows { s with output := (s.output.write text).1 } origin (t.write text) := by
  have hw : s.output.write text =
      ({ s.output with written := s.output.written ++ text.toUTF8 }, none) := by
    simp only [Sink.write, hs]
  refine ⟨by simp [Session.write, hw], ?_, h.errors, h.context, h.accumulated⟩
  simp [hw, Transcript.write, h.output, ByteArray.append_assoc]

theorem Shows.report (h : s.Shows origin t) (hs : s.errors.room = none) (e : SessionError)
    (next : Session → Session) :
    s.writeError (errorText setup e) next =
        next { s with errors := (s.errors.write (errorText setup e)).1 } ∧
      Shows { s with errors := (s.errors.write (errorText setup e)).1 } origin
        (t.report setup e) := by
  have hw : s.errors.write (errorText setup e) =
      ({ s.errors with written := s.errors.written ++ (errorText setup e).toUTF8 }, none) := by
    simp only [Sink.write, hs]
  refine ⟨by simp [Session.writeError, hw], h.output, ?_, h.context, h.accumulated⟩
  simp [hw, Transcript.report, h.errors, ByteArray.append_assoc]

end Session
end PromptLoop
