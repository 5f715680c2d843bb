import PromptLoop.Session.Evaluator
import PromptLoop.Terminal.Style
import PromptLoop.Value.Display
import PromptLoop.Value.Outline

set_option autoImplicit false

namespace PromptLoop

inductive InputSource where
  | standard
  | stream
  | file (path : String)
  | text (text : String)
deriving DecidableEq, Repr

inductive Destination where
  | standardOutput
  | standardError
  | stream
deriving DecidableEq, Repr

def Destination.isDefault : Destination → Bool
  | .stream => false
  | _ => true

structure Options where
  input : InputSource := .standard
  output : Destination := .standardOutput
  errors : Destination := .standardError
  prompt : String := "> "
  continuation : String := "... "
  bindings : Bindings Value := []
  formatter : Option (Value → String) := none
  transform : Option Transform := none
  /-- Whether the ends are terminals, where the caller knows better. -/
  inputIsTerminal : Option Bool := none
  outputIsTerminal : Option Bool := none
  colors : Option Bool := none

namespace Options

def withBinding (o : Options) (name : String) (v : Value) : Options :=
  { o with bindings := o.bindings.insert name v }

def withBindings (o : Options) (b : Bindings Value) : Options :=
  { o with bindings := o.bindings.extend b }

def withTerminal (o : Options) (input output : Bool) : Options :=
  { o with inputIsTerminal := some input, outputIsTerminal := some output }

def validate (o : Options) : Except SessionError Unit :=
  if o.prompt = "" then .error (.invalidConfiguration "prompt must not be empty") else .ok ()

end Options

def InputSource.outline : InputSource → String
  | .standard => "Stdin"
  | .stream => "Stream(..)"
  | .file path => "File(" ++ String.ofList (Visible.encode path.toList) ++ ")"
  | .text t => "Text(" ++ String.ofList (Number.integerText t.utf8ByteSize) ++ ")"

def Destination.outline : Destination → String
  | .standardOutput => "Stdout"
  | .standardError => "Stderr"
  | .stream => "Stream(..)"

def outlineFlag (b : Bool) : String :=
  if b then "true" else "false"

def Options.outline (o : Options) : String :=
  "ReplOptions \x7b input: " ++ o.input.outline ++
  ", output: " ++ o.output.outline ++
  ", errors: " ++ o.errors.outline ++
  ", prompt: " ++ String.ofList (Visible.encode o.prompt.toList) ++
  ", continuation_prompt: " ++ String.ofList (Visible.encode o.continuation.toList) ++
  ", initial_bindings: " ++ String.ofList (Value.outlineBindings o.bindings) ++
  ", formatter: " ++ outlineFlag o.formatter.isSome ++
  ", transform: " ++ outlineFlag o.transform.isSome ++
  ", colors: " ++ (match o.colors with
    | none => "None"
    | some b => "Some(" ++ outlineFlag b ++ ")") ++ " \x7d"

end PromptLoop
