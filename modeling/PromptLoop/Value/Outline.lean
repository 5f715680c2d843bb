import PromptLoop.Text.Visible
import PromptLoop.Value.Text

set_option autoImplicit false

namespace PromptLoop.Value

def joinParts : List (List Char) → List Char
  | [] => []
  | part :: rest => part ++ (if rest.isEmpty then [] else ", ".toList ++ joinParts rest)

mutual

def outline : Value → List Char
  | .null => "Null".toList
  | .bool b => (if b then "Bool(true)" else "Bool(false)").toList
  | .number n => "Number(".toList ++ n.text ++ [')']
  | .string s => "String(".toList ++ Visible.encode s.toList ++ [')']
  | .array items => "Array [".toList ++ joinParts (outlineItems items) ++ [']']
  | .object entries => "Object \x7b".toList ++ joinParts (outlineEntries entries) ++ ['\x7d']
termination_by structural v => v

def outlineItems : List Value → List (List Char)
  | [] => []
  | item :: rest => outline item :: outlineItems rest
termination_by structural items => items

def outlineEntries : List (String × Value) → List (List Char)
  | [] => []
  | entry :: rest => outlineEntry entry :: outlineEntries rest
termination_by structural entries => entries

def outlineEntry : String × Value → List Char
  | (key, value) => Visible.encode key.toList ++ ": ".toList ++ outline value
termination_by structural entry => entry

end

def outlineBindings (b : Bindings Value) : List Char :=
  '\x7b' :: joinParts (outlineEntries b) ++ ['\x7d']

end PromptLoop.Value
