import PromptLoop.CommandLine.Arguments
import PromptLoop.CommandLine.LogFilter
import PromptLoop.Script.Evaluator
import PromptLoop.Session.Timeline

set_option autoImplicit false

namespace PromptLoop.CommandLine

inductive ProgramError where
  | session (e : SessionError)
  | io (message : String)
  | binding (message : String)
  | logging (message : String)
deriving DecidableEq, Repr

def ProgramError.message : ProgramError → String
  | .session e => e.message
  | .io m => "IO error: " ++ m
  | .binding m => "Invalid binding: " ++ m
  | .logging m => "Logging setup failed: " ++ m

structure Invocation where
  arguments : List String
  input : List UInt8
  files : String → Except FileError (List UInt8)
  /-- The log filter of the environment, which wins over the argument if it is one. -/
  logFilter : Option String
  surroundings : Surroundings := {}

structure Outcome where
  code : Nat
  output : String
  errors : String
deriving Repr

def versionText : String := "prepl " ++ version ++ "\n"

def helpText : String :=
  "Usage: prepl [OPTIONS] [FILE]\n\n" ++
  "  FILE                              read input lines from FILE\n" ++
  "  -p, --prompt <PROMPT>             primary prompt\n" ++
  "      --continuation-prompt <PROMPT> prompt while an input is incomplete\n" ++
  "  -b, --bind <NAME=JSON>            initial binding, repeatable\n" ++
  "      --bindings <JSON|K:V,...>     initial bindings\n" ++
  "      --no-color                    disable coloured output\n" ++
  "      --log-level <FILTER>          log filter used when PREPL_LOG is not set\n" ++
  "  -h, --help                        print this text\n" ++
  "  -V, --version                     print the version\n"

def UsageError.message : UsageError → String
  | .unknownArgument => "unexpected argument"
  | .invalidValue => "a value is required"
  | .argumentConflict => "an argument is used more than once"
  | .tooManyValues => "unexpected value"
  | .displayHelp => helpText
  | .displayVersion => versionText

def UsageError.outcome (e : UsageError) : Outcome :=
  match e with
  | .displayHelp => ⟨0, helpText, ""⟩
  | .displayVersion => ⟨0, versionText, ""⟩
  | e => ⟨2, "", "error: " ++ e.message ++ "\n"⟩

def failureText (e : ProgramError) : String :=
  "prepl: " ++ e.message ++ "\n"

def checkLogFilter (environment : Option String) (argument : String) : Except ProgramError Unit :=
  if environment.any LogFilter.isValid || LogFilter.isValid argument then .ok ()
  else .error (.logging "invalid filter directive")

def prepare (a : Arguments) (logFilter : Option String) : Except ProgramError Options := do
  checkLogFilter logFilter a.logFilter
  a.toOptions.mapError fun e => .binding e.message

def InputSource.source (files : String → Except FileError (List UInt8)) :
    InputSource → Source
  | .file path => .file (files path)
  | .text text => .text text.toUTF8.toList
  | .standard => .stream
  | .stream => .stream

def conclusion : SessionResult → Nat × String
  | .ok .endOfInput => (0, "")
  | .ok .interrupted => (130, "")
  | .error e => (1, failureText (.session e))

def begin (options : Options) (i : Invocation) :
    Except ProgramError (Timeline Script.Statement) :=
  let source := InputSource.source i.files options.input
  (options.setup? i.surroundings source Script.evaluator).mapError .session |>.map fun setup =>
    { setup, session := Session.create options i.surroundings.host {} {} }

def run (i : Invocation) : Outcome :=
  match Arguments.parse i.arguments with
  | .error e => e.outcome
  | .ok a =>
    match (prepare a i.logFilter).bind (begin · i) with
    | .error e => ⟨1, "", failureText e⟩
    | .ok t =>
      let s := ((t.send (.chunk i.input)).complete).session
      let (code, errors) := conclusion (s.result?.getD (.ok .endOfInput))
      let text (sink : Sink) := Utf8.toText sink.written.toList
      ⟨code, text s.output, text s.errors ++ errors⟩

end PromptLoop.CommandLine
