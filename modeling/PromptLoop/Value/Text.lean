import PromptLoop.Text.Quoted
import PromptLoop.Value

set_option autoImplicit false

namespace PromptLoop.Value

mutual

def chars : Value → List Char
  | .null => "null".toList
  | .bool b => (if b then "true" else "false").toList
  | .number n => n.text
  | .string s => Quoted.encode s.toList
  | .array items => '[' :: charsOfItems items ++ [']']
  | .object entries => '\x7b' :: charsOfEntries entries ++ ['\x7d']
termination_by structural v => v

def charsOfItems : List Value → List Char
  | [] => []
  | item :: rest =>
    chars item ++ (if rest.isEmpty then [] else ',' :: charsOfItems rest)
termination_by structural items => items

def charsOfEntries : List (String × Value) → List Char
  | [] => []
  | entry :: rest =>
    charsOfEntry entry ++ (if rest.isEmpty then [] else ',' :: charsOfEntries rest)
termination_by structural entries => entries

def charsOfEntry : String × Value → List Char
  | (key, value) => Quoted.encode key.toList ++ ':' :: chars value
termination_by structural entry => entry

end

def text (v : Value) : String :=
  String.ofList v.chars

/-- The text that a value contributes when it is joined to a string: a string itself, without
quotes, and value text for the others. -/
def plainText : Value → String
  | .string s => s
  | v => v.text

end PromptLoop.Value
