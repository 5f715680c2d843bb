import PromptLoop.Lines.Buffer

set_option autoImplicit false

namespace PromptLoop

inductive ReadState where
  | waiting
  | answered (a : Answer)
  | over
deriving DecidableEq, Repr

inductive Reply where
  | waiting
  | answer (a : Answer)
  | fault (f : ReadFault)
  /-- There is no such read, or not any more. -/
  | absent
deriving DecidableEq, Repr

structure LineReader where
  buffer : LineBuffer := {}
  reads : List ReadState := []
deriving DecidableEq, Repr

namespace LineReader

def deliver (reads : List ReadState) (a : Option Answer) : List ReadState :=
  match a with
  | none => reads
  | some a => reads.map fun r => if r = .waiting then .answered a else r

def change (r : LineReader) (f : LineBuffer → LineBuffer × Option Answer) : LineReader :=
  let (buffer, a) := f r.buffer
  ⟨buffer, deliver r.reads a⟩

def feed (r : LineReader) (chunk : List UInt8) : LineReader :=
  r.change (LineBuffer.feed chunk)

def finish (r : LineReader) : LineReader :=
  r.change LineBuffer.finish

def fail (r : LineReader) (message : String) : LineReader :=
  r.change (LineBuffer.fail message)

def interrupt (r : LineReader) : LineReader :=
  r.change LineBuffer.interrupt

def ofBytes (bytes : List UInt8) : LineReader :=
  ((⟨{}, []⟩ : LineReader).feed bytes).finish

def start (r : LineReader) : LineReader × Reply :=
  match r.buffer.read with
  | .ok (buffer, some a) => (⟨buffer, r.reads ++ [.over]⟩, .answer a)
  | .ok (buffer, none) => (⟨buffer, r.reads ++ [.waiting]⟩, .waiting)
  | .error fault => (⟨r.buffer, r.reads ++ [.over]⟩, .fault fault)

def poll (r : LineReader) (i : Nat) : LineReader × Reply :=
  match r.reads[i]? with
  | some .waiting => (r, .waiting)
  | some (.answered a) => ({ r with reads := r.reads.set i .over }, .answer a)
  | _ => (r, .absent)

def drop (r : LineReader) (i : Nat) : LineReader :=
  match r.reads[i]? with
  | some .waiting => ⟨r.buffer.abandon, r.reads.set i .over⟩
  | some (.answered _) => { r with reads := r.reads.set i .over }
  | _ => r

def drainWithin : Nat → LineReader → LineReader × List Reply
  | 0, r => (r, [])
  | fuel + 1, r =>
    if r.buffer.isDone || r.buffer.lines.isEmpty then (r, [])
    else match r.buffer.read with
      | .ok (buffer, some (.line l)) =>
        let (r, replies) := drainWithin fuel { r with buffer }
        (r, .answer (.line l) :: replies)
      | .ok (buffer, some a) => ({ r with buffer }, [.answer a])
      | .ok (_, none) => (r, [.waiting])
      | .error fault => (r, [.fault fault])

def drain (r : LineReader) : LineReader × List Reply :=
  drainWithin r.buffer.buffered r

end LineReader
end PromptLoop
