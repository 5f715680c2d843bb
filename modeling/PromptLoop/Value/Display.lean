import PromptLoop.Script.Word
import PromptLoop.Terminal.Style
import PromptLoop.Value.Text

set_option autoImplicit false

namespace PromptLoop.Value

def displayKey (key : String) : List Char :=
  if Script.isWord key.toList then key.toList else Quoted.encode key.toList

mutual

def display (styled : Bool) : Value → List Char
  | .null => Terminal.paintIf styled [.dim] (chars .null)
  | .bool b => Terminal.paintIf styled [.magenta] (chars (.bool b))
  | .number n => Terminal.paintIf styled [.yellow] (chars (.number n))
  | .string s => Terminal.paintIf styled [.green] (chars (.string s))
  | .array [] => ['[', ']']
  | .array (item :: rest) =>
    '[' :: ' ' :: display styled item ++ displayItems styled rest ++ [' ', ']']
  | .object [] => ['\x7b', '\x7d']
  | .object (entry :: rest) =>
    '\x7b' :: ' ' :: displayEntry styled entry ++ displayEntries styled rest ++ [' ', '\x7d']
termination_by structural v => v

def displayItems (styled : Bool) : List Value → List Char
  | [] => []
  | item :: rest => ',' :: ' ' :: display styled item ++ displayItems styled rest
termination_by structural items => items

def displayEntries (styled : Bool) : List (String × Value) → List Char
  | [] => []
  | entry :: rest => ',' :: ' ' :: displayEntry styled entry ++ displayEntries styled rest
termination_by structural entries => entries

def displayEntry (styled : Bool) : String × Value → List Char
  | (key, value) => displayKey key ++ ':' :: ' ' :: display styled value
termination_by structural entry => entry

end

def displayText (styled : Bool) (v : Value) : String :=
  String.ofList (v.display styled)

end PromptLoop.Value
