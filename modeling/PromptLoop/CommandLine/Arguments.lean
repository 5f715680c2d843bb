import PromptLoop.CommandLine.BindingText
import PromptLoop.Session.Options

set_option autoImplicit false

namespace PromptLoop.CommandLine

inductive UsageError where
  | unknownArgument
  /-- A value is missing, or it is a file with an empty name. -/
  | invalidValue
  /-- An argument that must not be repeated stands there twice. -/
  | argumentConflict
  /-- A value for an option that takes none. -/
  | tooManyValues
  | displayHelp
  | displayVersion
deriving DecidableEq, Repr

structure Arguments where
  file : Option String := none
  prompt : Option String := none
  continuation : Option String := none
  bind : List String := []
  bindings : Option String := none
  noColor : Bool := false
  logLevel : Option String := none
deriving DecidableEq, Repr

inductive Valued where
  | file | prompt | continuation | bind | bindings | logLevel
deriving DecidableEq, Repr

inductive OptionName where
  | valued (v : Valued)
  | noColor
  | help
  | version
deriving DecidableEq, Repr

def OptionName.ofLong? (name : String) : Option OptionName :=
  match name with
  | "prompt" => some (.valued .prompt)
  | "continuation-prompt" => some (.valued .continuation)
  | "bind" => some (.valued .bind)
  | "bindings" => some (.valued .bindings)
  | "no-color" => some .noColor
  | "log-level" => some (.valued .logLevel)
  | "help" => some .help
  | "version" => some .version
  | _ => none

def OptionName.ofShort? (c : Char) : Option OptionName :=
  match c with
  | 'p' => some (.valued .prompt)
  | 'b' => some (.valued .bind)
  | 'h' => some .help
  | 'V' => some .version
  | _ => none

def setOnce (field : Option String) (value : String) : Except UsageError (Option String) :=
  match field with
  | none => .ok (some value)
  | some _ => .error .argumentConflict

namespace Arguments

def set (a : Arguments) (target : Valued) (value : String) : Except UsageError Arguments :=
  match target with
  | .file =>
    if value = "" then .error .invalidValue
    else (setOnce a.file value).map ({ a with file := · })
  | .prompt => (setOnce a.prompt value).map ({ a with prompt := · })
  | .continuation => (setOnce a.continuation value).map ({ a with continuation := · })
  | .bind => .ok { a with bind := a.bind ++ [value] }
  | .bindings => (setOnce a.bindings value).map ({ a with bindings := · })
  | .logLevel => (setOnce a.logLevel value).map ({ a with logLevel := · })

end Arguments

structure Parsing where
  arguments : Arguments := {}
  /-- An option or the file that is not settled, and its value if it has one. -/
  unsettled : Option (Valued × Option String) := none
  fileSeen : Bool := false
  optionsOver : Bool := false

namespace Parsing

def settle (p : Parsing) : Except UsageError Parsing :=
  match p.unsettled with
  | none => .ok p
  | some (_, none) => .error .invalidValue
  | some (target, some value) =>
    (p.arguments.set target value).map fun arguments => { p with arguments, unsettled := none }

def attached (p : Parsing) (target : Valued) (value : String) : Except UsageError Parsing := do
  let p ← p.settle
  pure { p with arguments := (← p.arguments.set target value) }

def awaitValue (p : Parsing) (target : Valued) : Except UsageError Parsing := do
  let p ← p.settle
  pure { p with unsettled := some (target, none) }

def flag (p : Parsing) (name : OptionName) : Except UsageError Parsing := do
  let p ← p.settle
  match name with
  | .help => .error .displayHelp
  | .version => .error .displayVersion
  | _ =>
    if p.arguments.noColor then .error .argumentConflict
    else pure { p with arguments := { p.arguments with noColor := true } }

def long (p : Parsing) (text : List Char) : Except UsageError Parsing :=
  let (name, value) := match Text.splitFirst? '=' text with
    | some (name, value) => (name, some (String.ofList value))
    | none => (text, none)
  match OptionName.ofLong? (String.ofList name), value with
  | none, _ => .error .unknownArgument
  | some (.valued target), some value => p.attached target value
  | some (.valued target), none => p.awaitValue target
  | some _, some _ => .error .tooManyValues
  | some name, none => p.flag name

/-- Short options in one argument; the first that takes a value takes the rest. -/
def short (p : Parsing) : List Char → Except UsageError Parsing
  | [] => .ok p
  | c :: rest =>
    match OptionName.ofShort? c with
    | none => .error .unknownArgument
    | some (.valued target) =>
      match rest with
      | [] => p.awaitValue target
      | '=' :: value => p.attached target (String.ofList value)
      | value => p.attached target (String.ofList value)
    | some name => (p.flag name).bind (short · rest)

def positional (p : Parsing) (argument : String) : Except UsageError Parsing :=
  if p.fileSeen then .error .unknownArgument
  else p.settle.map fun p =>
    { p with unsettled := some (.file, some argument), fileSeen := true }

def push (p : Parsing) (argument : String) : Except UsageError Parsing :=
  if p.optionsOver then p.positional argument
  else match argument.toList with
    | ['-', '-'] => .ok { p with optionsOver := true }
    | '-' :: '-' :: text => p.long text
    | '-' :: c :: rest => p.short (c :: rest)
    | _ =>
      match p.unsettled with
      | some (target, none) => .ok { p with unsettled := some (target, some argument) }
      | _ => p.positional argument

end Parsing

def Arguments.parse (argv : List String) : Except UsageError Arguments := do
  let p ← argv.foldlM Parsing.push {}
  pure (← p.settle).arguments

namespace Arguments

def logFilter (a : Arguments) : String :=
  a.logLevel.getD "warn"

/-- The session options that arguments choose. Single bindings come after those of a list. -/
def toOptions (a : Arguments) : Except BindingError Options := do
  let options : Options := {}
  let options := { options with
    input := (a.file.map InputSource.file).getD options.input
    prompt := a.prompt.getD options.prompt
    continuation := a.continuation.getD options.continuation }
  let options ← match a.bindings with
    | none => pure options
    | some text => pure (options.withBindings (← readBindings text))
  let options ← a.bind.foldlM (fun (options : Options) text => do
    let (name, v) ← readBinding text
    pure (options.withBinding name v)) options
  pure (if a.noColor then { options with colors := some false } else options)

end Arguments
end PromptLoop.CommandLine
