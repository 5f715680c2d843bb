import PromptLoop.Proofs.Session.Deeds

set_option autoImplicit false

/-!
# What a session has ahead of it

A session whose input is complete from the beginning, and that nothing disturbs, has its whole
course ahead of it: `Setup.outlook` is the log that it will have, the texts that it will compile,
and its bindings and its result at the end, as a function of the lines, the bindings and the
unfinished text. A result that has to be waited for counts like one that is there at once.
`Session.outlook` is what is left of this at a waiting point. It includes the failures of evaluators
that end a session, and both orders of prompting and reading.
-/
namespace PromptLoop

variable {U : Type}

structure Outlook where
  log : List Deed
  compiled : List String
  context : Bindings Value
  result : SessionResult

namespace Outlook

def after (deeds : List Deed) (compiled : List String) (k : Outlook) : Outlook :=
  { k with log := deeds ++ k.log, compiled := compiled ++ k.compiled }

@[simp] theorem after_after (deeds deeds' : List Deed) (compiled compiled' : List String)
    (k : Outlook) : (k.after deeds' compiled').after deeds compiled =
      k.after (deeds ++ deeds') (compiled ++ compiled') := by
  simp [after]

def ended (context : Bindings Value) (result : SessionResult) : Outlook :=
  ⟨[], [], context, result⟩

def closing (context : Bindings Value) (result : SessionResult) : Outlook :=
  ⟨[.closed .output none, .closed .errors none], [], context, result⟩

end Outlook

namespace Setup
variable (setup : Setup U)

def promptAt (accumulated : String) : String :=
  Session.promptText setup { accumulated }

def conveyed (v : Option Value) : Except SessionError (Option Value) :=
  match v, setup.transform with
  | none, _ => .ok none
  | some v, none => .ok (some v)
  | some v, some f => (f v).outcome

def shown (declaration : Option Declaration) (outcome : Except SessionError (Option Value)) :
    Except SessionError (Option Value) :=
  match outcome, declaration with
  | .error e, _ => .error e
  | .ok v, none => setup.conveyed v
  | .ok v, some d => if d.silent then .ok none else setup.conveyed (some (v.getD .null))

def display (shown : Except SessionError (Option Value)) (context : Bindings Value)
    (next : Outlook) : Outlook :=
  match shown with
  | .error e =>
    if e.isFatal then .closing context (.error e)
    else next.after [.wrote .report (Session.errorText setup e) none] []
  | .ok none => next
  | .ok (some v) => next.after [.wrote .result (setup.format v ++ "\n") none] []

def concluded (declaration : Option Declaration) (outcome : Except SessionError (Option Value))
    (context : Bindings Value) (next : Bindings Value → Outlook) : Outlook :=
  setup.display (setup.shown declaration outcome) (Declaration.bindings declaration outcome context)
    (next (Declaration.bindings declaration outcome context))

def handled (source : String) (context : Bindings Value)
    (next : Bindings Value → String → Outlook) : Outlook :=
  match setup.evaluator.compile source with
  | .incomplete => next context source
  | .fatal e => setup.display (.error e) context (next context "")
  | .ready unit declaration =>
    let (execution, context) := setup.evaluator.execute unit context
    setup.concluded declaration execution.outcome context fun context => next context ""

def opening (accumulated line : String) : List Deed :=
  .wrote .prompt (setup.promptAt accumulated) none ::
    if setup.echo then [.wrote .echo line none] else []

def outlook : List String → Bindings Value → String → Outlook
  | [], context, _ => .closing context (.ok .endOfInput)
  | line :: rest, context, accumulated =>
    (setup.handled (accumulated ++ line) context (outlook rest)).after
      (setup.opening accumulated line) [accumulated ++ line]

end Setup

def Source.content : Source → Except FileError (List UInt8)
  | .text bytes => .ok bytes
  | .file content => content
  | .stream => .ok []

def Source.lines (source : Source) : List String :=
  match source.content with
  | .ok bytes => logicalLines bytes
  | .error _ => []

namespace Session

def rest (setup : Setup U) (s : Session) : Outlook :=
  setup.outlook s.buffer.lines s.context s.accumulated

def outlook (setup : Setup U) (s : Session) : Outlook :=
  match s.phase with
  | .created | .loading =>
    match setup.source.content with
    | .ok bytes => setup.outlook (logicalLines bytes) s.context s.accumulated
    | .error e => .closing s.context (.error (.transport e.message))
  | .prompting (some line) =>
    setup.outlook (line :: s.buffer.lines) s.context s.accumulated
  | .echoing line =>
    (setup.handled (s.accumulated ++ line) s.context (setup.outlook s.buffer.lines)).after
      [.wrote .echo line none] [s.accumulated ++ line]
  | .pending declaration d _ =>
    setup.concluded declaration d.outcome s.context fun context =>
      setup.outlook s.buffer.lines context s.accumulated
  | .transforming d => setup.display d.outcome s.context (s.rest setup)
  | .printing v =>
    (s.rest setup).after [.wrote .result (setup.format v ++ "
") none] []
  | .reporting e => (s.rest setup).after [.wrote .report (errorText setup e) none] []
  | .closing result => .closing s.context result
  | .closingErrors result failure =>
    ⟨[.closed .errors none], [], s.context, finalResult result failure none⟩
  | .ended result => .ended s.context result
  | _ => s.rest setup

section Landing
variable {setup : Setup U} {s : Session}

theorem behindError_outlook (setup : Setup U) (s : Session) (e : SessionError) :
    outlook setup { s with phase := .behindError e } =
      setup.display (.error e) s.context (s.rest setup) := by
  unfold Phase.behindError Setup.display
  dsimp only
  split <;> rfl

theorem behindTransform_outlook (outcome : Except SessionError (Option Value)) :
    outlook setup { s with phase := .behindTransform outcome } =
      setup.display outcome s.context (s.rest setup) := by
  cases outcome with
  | error e => exact behindError_outlook setup s e
  | ok v => cases v <;> rfl

theorem behindValue_outlook (v : Option Value) :
    outlook setup { s with phase := .behindValue setup.transform v } =
      setup.display (setup.conveyed v) s.context (s.rest setup) := by
  cases v with
  | none => rfl
  | some v =>
    unfold Phase.behindValue Setup.conveyed
    cases setup.transform with
    | none => rfl
    | some f =>
      dsimp only
      split
      · exact behindTransform_outlook _
      · rfl

theorem behindUnit_outlook (declaration : Option Declaration)
    (outcome : Except SessionError (Option Value)) :
    outlook setup { s with phase := .behindUnit setup.transform declaration outcome } =
      setup.display (setup.shown declaration outcome) s.context (s.rest setup) := by
  cases outcome with
  | error e => cases declaration <;> exact behindError_outlook setup s e
  | ok v =>
    cases declaration with
    | none => exact behindValue_outlook v
    | some d =>
      unfold Phase.behindUnit Setup.shown
      dsimp only
      split
      · rfl
      · exact behindValue_outlook _

/-- Where the handling of a text leads, the same is left as is said of the text. -/
theorem land_outlook (source : String) :
    (s.land (setup.landing source s.context)).outlook setup =
      setup.handled source s.context (setup.outlook s.buffer.lines) := by
  cases hc : setup.evaluator.compile source with
  | incomplete =>
    simp only [Setup.landing, Setup.handled, hc]
    rfl
  | fatal e =>
    simp only [Setup.landing, Setup.handled, hc]
    exact behindError_outlook setup { s with accumulated := "" } e
  | ready unit declaration =>
    cases hx : setup.evaluator.execute unit s.context with
    | mk execution context =>
      cases execution with
      | immediate v =>
        simp only [Setup.landing, Setup.handled, hc, hx]
        exact behindUnit_outlook (s := { s with
          context := Declaration.bindings declaration (.ok v) context, accumulated := "" })
          declaration (.ok v)
      | failed e =>
        simp only [Setup.landing, Setup.handled, hc, hx]
        have hreported := behindError_outlook setup { s with context, accumulated := "" } e
        cases declaration <;> exact hreported
      | pending d =>
        simp only [Setup.landing, Setup.handled, hc, hx]
        rfl

end Landing

end Session
end PromptLoop
