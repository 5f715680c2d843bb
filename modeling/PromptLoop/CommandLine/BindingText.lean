import PromptLoop.Text.Split
import PromptLoop.Value.Reader

set_option autoImplicit false

namespace PromptLoop.CommandLine

inductive BindingError where
  | pair (text : String)
  | binding (text : String)
  | emptyName
deriving DecidableEq, Repr

def BindingError.message : BindingError → String
  | .pair text => "invalid key-value pair: " ++ text
  | .binding text => "expected name=value, got " ++ text
  | .emptyName => "binding name is empty"

def boundValue (text : List Char) : Value :=
  (Value.read? text).getD (.string (String.ofList text))

def checkedName (name : List Char) : Except BindingError String :=
  match Text.trim name with
  | [] => .error .emptyName
  | name => .ok (String.ofList name)

def namedValue (name value : List Char) : Except BindingError (String × Value) :=
  (checkedName name).map fun name => (name, boundValue (Text.trim value))

def readPair (text : List Char) : Except BindingError (String × Value) :=
  let text := Text.trim text
  match Text.splitFirst? ':' text with
  | some (name, value) => namedValue name value
  | none => .error (.pair (String.ofList text))

def readBinding (text : String) : Except BindingError (String × Value) :=
  match Text.splitFirst? '=' text.toList with
  | some (name, value) => namedValue name value
  | none => .error (.binding text)

/-- Reads an object, or names and values with commas between them. -/
def readBindings (text : String) : Except BindingError (Bindings Value) :=
  if (Text.trim text.toList).isEmpty then .ok []
  else match Value.ofText? text with
    | some (.object entries) => .ok entries
    | _ => ((Text.splitAll ',' text.toList).mapM readPair).map Bindings.ofList

end PromptLoop.CommandLine
