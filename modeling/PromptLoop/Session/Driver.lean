import PromptLoop.Lines.Buffer
import PromptLoop.Session.Context
import PromptLoop.Session.Lifecycle
import PromptLoop.Session.Options
import PromptLoop.Session.Sink

set_option autoImplicit false

/-!
# The driver of a session

A session reads lines, collects them until they make a unit, executes the unit, and displays its
value. The driver goes from one point where it has to wait to the next; a phase names the point
where it stands. Between two steps the surroundings may act: bytes arrive, the input ends or fails,
an interrupt comes, the context is changed, or a result becomes known.

Where both ends are terminals the prompt is written before a line is read. Otherwise the line is
read first and echoed behind the prompt, so that an input that ends leaves no prompt behind.
-/
namespace PromptLoop

inductive FileError where
  | missing
  | directory
  | other (message : String)
deriving DecidableEq, Repr

def FileError.message : FileError → String
  | .missing => "No such file or directory (os error 2)"
  | .directory => "Is a directory (os error 21)"
  | .other m => m

/-- The input of a session: known text, a file that is read as a whole, or bytes that arrive while
the session runs. -/
inductive Source where
  | text (bytes : List UInt8)
  | file (content : Except FileError (List UInt8))
  | stream

/-- What does not change while a session runs. -/
structure Setup (U : Type) where
  evaluator : Evaluator U
  source : Source
  prompt : String
  continuation : String
  /-- Whether lines are echoed behind their prompts. -/
  echo : Bool
  styled : Bool
  errorsStyled : Bool
  format : Value → String
  transform : Option Transform

inductive Phase where
  | created
  | loading
  | prompting (line : Option String)
  | echoing (line : String)
  /-- A read has been started, and perhaps been answered. -/
  | awaiting (answer : Option Answer)
  /-- A result is not known yet; `interrupted` tells of an interrupt since the wait began. -/
  | pending (declaration : Option Declaration) (d : Deferred) (interrupted : Bool)
  | transforming (d : Deferred)
  | printing (v : Value)
  | reporting (e : SessionError)
  /-- The line that answers an interrupt is being written. -/
  | breaking
  | yielding
  | closing (result : SessionResult)
  | closingErrors (result : SessionResult) (outputFailure : Option String)
  | ended (result : SessionResult)

structure Session where
  phase : Phase := .created
  buffer : LineBuffer := {}
  output : Sink := {}
  errors : Sink := {}
  context : Bindings Value := []
  accumulated : String := ""
  state : SessionState := .pending

namespace Session

def close (result : SessionResult) (s : Session) : Session :=
  { s with phase := .closing result }

def fail (e : SessionError) (s : Session) : Session :=
  if e.isFatal then s.close (.error e) else { s with phase := .reporting e }

def write (text : String) (next : Session → Session) (s : Session) : Session :=
  let (output, failure) := s.output.write text
  let s := { s with output }
  match failure with
  | none => next s
  | some message => s.close (.error (.transport message))

def writeError (text : String) (next : Session → Session) (s : Session) : Session :=
  let (errors, failure) := s.errors.write text
  let s := { s with errors }
  match failure with
  | none => next s
  | some message => s.close (.error (.transport message))

def yield (s : Session) : Session :=
  { s with phase := .yielding }

def enterPrompt (line : Option String) (s : Session) : Session :=
  { s with phase := .prompting line, state := s.state.start }

variable {U : Type} (setup : Setup U)

def promptText (s : Session) : String :=
  let prompt := if s.accumulated = "" then setup.prompt else setup.continuation
  String.ofList (Terminal.paintIf setup.styled [.blue, .bold] prompt.toList)

def errorText (e : SessionError) : String :=
  String.ofList (Terminal.paintIf setup.errorsStyled [.red, .bold] e.message.toList) ++ "\n"

def transformed (outcome : Except SessionError (Option Value)) (s : Session) : Session :=
  match outcome with
  | .error e => s.fail e
  | .ok none => s.yield
  | .ok (some v) => { s with phase := .printing v }

def present (v : Option Value) (s : Session) : Session :=
  match v, setup.transform with
  | none, _ => s.yield
  | some v, none => { s with phase := .printing v }
  | some v, some transform =>
    let d := transform v
    if d.after = some 0 then s.transformed d.outcome else { s with phase := .transforming d }

/-- The outcome of a unit. A declared name is bound now, to null if there is no value. -/
def settled (declaration : Option Declaration) (outcome : Except SessionError (Option Value))
    (s : Session) : Session :=
  match outcome, declaration with
  | .error e, _ => s.fail e
  | .ok v, none => s.present setup v
  | .ok v, some d =>
    let v := v.getD .null
    let s := { s with context := s.context.insert d.name v }
    if d.silent then s.yield else s.present setup (some v)

def evaluate (line : String) (s : Session) : Session :=
  let source := s.accumulated ++ line
  match setup.evaluator.compile source with
  | .incomplete => { s with accumulated := source }.yield
  | .fatal e => { s with accumulated := "" }.fail e
  | .ready unit declaration =>
    let (execution, context) := setup.evaluator.execute unit s.context
    let s := { s with accumulated := "", context }
    match execution with
    | .immediate v => s.settled setup declaration (.ok v)
    | .failed e => s.fail e
    | .pending d => { s with phase := .pending declaration d false }

def receive (a : Answer) (s : Session) : Session :=
  match a with
  | .line l =>
    if l = interruptMarker then { s with phase := .breaking }
    else if setup.echo then s.enterPrompt (some l)
    else s.evaluate setup l
  | .ended => s.yield
  | .failed message => s.close (.error (.transport message))

def read (s : Session) : Session :=
  match s.buffer.read with
  | .ok (buffer, some a) => { s with buffer }.receive setup a
  | .ok (buffer, none) => { s with buffer, phase := .awaiting none }
  | .error fault => s.close (.error (.protocolViolation fault.message))

def iterate (s : Session) : Session :=
  if s.buffer.isDone then s.close (.ok .endOfInput)
  else if setup.echo then s.read setup
  else s.enterPrompt none

def load (bytes : List UInt8) (s : Session) : Session :=
  { s with buffer := ((s.buffer.feed bytes).1.finish).1 }

/-- The end of an interrupt: it drops the unfinished unit, or ends a session without one. -/
def afterBreak (s : Session) : Session :=
  if s.accumulated = "" then s.close (.ok .interrupted) else { s with accumulated := "" }.yield

def finalResult (result : SessionResult) (outputFailure errorsFailure : Option String) :
    SessionResult :=
  match result, outputFailure, errorsFailure with
  | .error e, _, _ => .error e
  | .ok _, some message, _ => .error (.transport message)
  | .ok _, none, some message => .error (.transport message)
  | .ok e, none, none => .ok e

/-- From one waiting point to the next. A session that has to wait for its surroundings stays. -/
def step (s : Session) : Session :=
  match s.phase with
  | .created =>
    match setup.source with
    | .text bytes => (s.load bytes).iterate setup
    | .stream => s.iterate setup
    | .file _ => { s with phase := .loading }
  | .loading =>
    match setup.source with
    | .file (.ok bytes) => (s.load bytes).iterate setup
    | .file (.error e) => s.close (.error (.transport e.message))
    | _ => s
  | .prompting line =>
    s.write (s.promptText setup) fun s =>
      match line with
      | some l => { s with phase := .echoing l }
      | none => s.read setup
  | .echoing line => s.write line (evaluate setup line)
  | .awaiting (some a) => s.receive setup a
  | .awaiting none => s
  | .pending _ _ true => s.fail .interrupted
  | .pending _ _ false => s
  | .transforming _ => s
  | .printing v => s.write (setup.format v ++ "\n") yield
  | .reporting e => s.writeError (errorText setup e) yield
  | .breaking => s.write "\n" afterBreak
  | .yielding => s.iterate setup
  | .closing result =>
    let (output, failure) := s.output.close
    { s with output, phase := .closingErrors result failure }
  | .closingErrors result outputFailure =>
    let (errors, failure) := s.errors.close
    let result := finalResult result outputFailure failure
    { s with errors, phase := .ended result, state := (s.state.finish result).1 }
  | .ended _ => s

/-- A change of the buffer; the answer that it releases reaches the read that waits. -/
def supply (r : LineBuffer × Option Answer) (s : Session) : Session :=
  match r.2, s.phase with
  | some a, .awaiting none => { s with buffer := r.1, phase := .awaiting (some a) }
  | _, _ => { s with buffer := r.1 }

def feed (chunk : List UInt8) (s : Session) : Session :=
  s.supply (s.buffer.feed chunk)

def finish (s : Session) : Session :=
  s.supply s.buffer.finish

def failInput (message : String) (s : Session) : Session :=
  s.supply (s.buffer.fail message)

/-- An interrupt reaches the reader and a result that is not known yet. -/
def interrupt (s : Session) : Session :=
  let s := s.supply s.buffer.interrupt
  match s.phase with
  | .pending declaration d _ => { s with phase := .pending declaration d true }
  | _ => s

def resolve (s : Session) : Session :=
  match s.phase with
  | .pending declaration d _ => s.settled setup declaration d.outcome
  | .transforming d => s.transformed d.outcome
  | _ => s

def embed (change : Bindings Value → Bindings Value) (s : Session) : Session :=
  { s with context := change s.context }

def result? (s : Session) : Option SessionResult :=
  match s.phase with
  | .ended r => some r
  | _ => none

end Session

/-- What a session can see of its terminals. -/
structure Surroundings where
  inputIsTerminal : Bool := false
  outputIsTerminal : Bool := false
  errorsIsTerminal : Bool := false
  /-- Whether styling is wanted at all on the output, and on the error sink. -/
  colorsEnabled : Bool := false
  errorColorsEnabled : Bool := false
  host : Host := {}

/-- The setup that options make, if they are valid. Only the standard input and output of the
process can be terminals, unless the options say so. -/
def Options.setup? {U : Type} (o : Options) (surroundings : Surroundings) (source : Source)
    (evaluator : Evaluator U) : Except SessionError (Setup U) :=
  o.validate.map fun _ =>
    let input := o.inputIsTerminal.getD (o.input = .standard && surroundings.inputIsTerminal)
    let output := o.outputIsTerminal.getD (o.output.isDefault && surroundings.outputIsTerminal)
    let styled := o.colors.getD (output && surroundings.colorsEnabled)
    { evaluator
      source
      prompt := o.prompt
      continuation := o.continuation
      echo := !(input && output)
      styled
      errorsStyled := o.colors.getD (o.errors.isDefault && surroundings.errorsIsTerminal &&
        surroundings.errorColorsEnabled)
      format := o.formatter.getD (Value.displayText styled)
      transform := o.transform }

def Destination.attach (d : Destination) (s : Sink) : Sink :=
  { s with owned := !d.isDefault }

def Session.create (o : Options) (host : Host) (output errors : Sink) : Session :=
  { output := o.output.attach output
    errors := o.errors.attach errors
    context := host.seeds.extend o.bindings }

end PromptLoop
