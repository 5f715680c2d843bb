import PromptLoop.Session.Driver

set_option autoImplicit false

namespace PromptLoop

inductive Supply where
  | chunk (bytes : List UInt8)
  | finish
  /-- A failed read of the stream; one that was merely interrupted is tried again. -/
  | failure (transient : Bool) (message : String)

/-- An upper bound on the lines that a supply completes. -/
def Supply.size : Supply → Nat
  | .chunk bytes => bytes.length
  | _ => 1

def Session.take (s : Session) : Supply → Session
  | .chunk bytes => s.feed bytes
  | .finish => s.finish
  | .failure true _ => s
  | .failure false message => s.failInput message

def Source.size : Source → Nat
  | .text bytes => bytes.length
  | .file (.ok bytes) => bytes.length
  | _ => 0

structure Timeline (U : Type) where
  setup : Setup U
  session : Session
  /-- What was sent and has not been taken in, the latest first. -/
  sent : List Supply := []
  now : Nat := 0
  /-- When the result that the session waits for becomes known. -/
  due : Option Nat := none

namespace Timeline
variable {U : Type}

def takeIn (t : Timeline U) : Timeline U :=
  match t.setup.source with
  | .stream => { t with session := t.sent.reverse.foldl Session.take t.session, sent := [] }
  | _ => t

def step (t : Timeline U) : Timeline U :=
  { t with session := t.session.step t.setup, due := none }

def resolve (t : Timeline U) : Timeline U :=
  { t with session := t.session.resolve t.setup, due := none }

def expect (t : Timeline U) (d : Deferred) : Timeline U :=
  { t with due := t.due.or (d.after.map (t.now + ·)) }

def isDue (t : Timeline U) : Bool :=
  match t.due with
  | some due => due ≤ t.now
  | none => false

def runWithin : Nat → Timeline U → Timeline U
  | 0, t => t
  | fuel + 1, t =>
    match t.session.phase with
    | .ended _ => t
    | .yielding | .loading => runWithin fuel t.takeIn.step
    | .awaiting none =>
      let t := t.takeIn
      match t.session.phase with
      | .awaiting none => t
      | _ => runWithin fuel t
    | .pending _ d interrupted =>
      let t := t.takeIn.expect d
      if interrupted then runWithin fuel t.step
      else if t.isDue then runWithin fuel t.resolve
      else t
    | .transforming d =>
      let t := t.takeIn.expect d
      if t.isDue then runWithin fuel t.resolve else t
    | _ => runWithin fuel t.step

/-- More steps than the session can make without new input: every iteration but the last two
takes a line, and none has ten waiting points. -/
def budget (t : Timeline U) : Nat :=
  10 * (t.session.buffer.lines.length + t.session.buffer.residue.length +
    t.sent.foldr (fun supply n => supply.size + n) t.setup.source.size + 4)

def run (t : Timeline U) : Timeline U :=
  t.runWithin t.budget

def elapseWithin (target : Nat) : Nat → Timeline U → Timeline U
  | 0, t => { t with now := target }
  | fuel + 1, t =>
    let t := t.run
    match t.due with
    | some due =>
      if due ≤ target then elapseWithin target fuel { t with now := max t.now due }
      else { t with now := target }
    | none => { t with now := target }

def elapse (ms : Nat) (t : Timeline U) : Timeline U :=
  elapseWithin (t.now + ms) t.budget t

def send (supply : Supply) (t : Timeline U) : Timeline U :=
  { t with sent := supply :: t.sent }

def interrupt (t : Timeline U) : Timeline U :=
  { t with session := t.session.interrupt }

def embed (change : Bindings Value → Bindings Value) (t : Timeline U) : Timeline U :=
  { t with session := t.session.embed change }

def completeWithin : Nat → Timeline U → Timeline U
  | 0, t => t
  | fuel + 1, t =>
    let t := t.run
    match t.due with
    | some due => completeWithin fuel { t with now := max t.now due }
    | none => t

def complete (t : Timeline U) : Timeline U :=
  let t := t.send .finish
  t.completeWithin t.budget

end Timeline
end PromptLoop
