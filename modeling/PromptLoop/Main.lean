import PromptLoop.CommandLine.Program

set_option autoImplicit false

namespace PromptLoop.CommandLine

def readContent (path : String) : IO (Except FileError (List UInt8)) := do
  try
    pure (.ok (← IO.FS.readBinFile path).toList)
  catch
    | .noFileOrDirectory .. => pure (.error .missing)
    | .inappropriateType .. => pure (.error .directory)
    | e => pure (.error (.other (toString e)))

partial def readLine (input : IO.FS.Stream) (line : ByteArray) : IO ByteArray := do
  let byte ← input.read 1
  if byte.isEmpty then pure line
  else if byte[0]? = some separator then pure (line ++ byte)
  else readLine input (line ++ byte)

def print (stream : IO.FS.Stream) (s : Sink) : IO Sink := do
  if !s.written.isEmpty then
    stream.write s.written
    stream.flush
  pure { s with written := .empty }

partial def waitFor (after : Option Nat) : IO Unit :=
  match after with
  | some ms => IO.sleep (min ms 0xFFFFFFFF).toUInt32
  | none => do
    IO.sleep 1000
    waitFor none

partial def drive {U : Type} (setup : Setup U) (s : Session) : IO SessionResult := do
  let output ← print (← IO.getStdout) s.output
  let errors ← print (← IO.getStderr) s.errors
  let s := { s with output, errors }
  match s.phase with
  | .ended result => pure result
  | .awaiting none => do
    let line ← readLine (← IO.getStdin) .empty
    drive setup (if line.isEmpty then s.finish else s.feed line.toList)
  | .pending _ d _ => do
    waitFor d.after
    drive setup (s.resolve setup)
  | .transforming d => do
    waitFor d.after
    drive setup (s.resolve setup)
  | _ => drive setup (s.step setup)

def surroundings : IO Surroundings := do
  let plain := (← IO.getEnv "NO_COLOR").isSome
  let inputIsTerminal ← (← IO.getStdin).isTty
  let outputIsTerminal ← (← IO.getStdout).isTty
  let errorsIsTerminal ← (← IO.getStderr).isTty
  pure { inputIsTerminal, outputIsTerminal, errorsIsTerminal,
         colorsEnabled := outputIsTerminal && !plain,
         errorColorsEnabled := errorsIsTerminal && !plain }

def fail (e : ProgramError) : IO UInt32 := do
  (← IO.getStderr).putStr (failureText e)
  pure 1

def runProgram (arguments : List String) : IO UInt32 := do
  match Arguments.parse arguments with
  | .error e => do
    let outcome := e.outcome
    (← IO.getStdout).putStr outcome.output
    (← IO.getStderr).putStr outcome.errors
    pure outcome.code.toUInt32
  | .ok a => do
    let logFilter ← IO.getEnv "PREPL_LOG"
    let content ← match a.file with
      | some path => readContent path
      | none => pure (.error .missing)
    let i : Invocation :=
      { arguments, input := [], files := fun _ => content, logFilter,
        surroundings := ← surroundings }
    match (prepare a logFilter).bind (begin · i) with
    | .error e => fail e
    | .ok t => do
      let result ← drive t.setup t.session
      let (code, errors) := conclusion result
      (← IO.getStderr).putStr errors
      pure code.toUInt32

end PromptLoop.CommandLine

def main (arguments : List String) : IO UInt32 :=
  PromptLoop.CommandLine.runProgram arguments
