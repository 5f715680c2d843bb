import PromptLoop.Unicode.Alphabetic
import PromptLoop.Unicode.Numeric

set_option autoImplicit false

namespace PromptLoop.Script

def isWordStart (c : Char) : Bool :=
  Unicode.isAlphabetic c || c == '_' || c == '$'

def isWordPart (c : Char) : Bool :=
  Unicode.isAlphabetic c || Unicode.isNumeric c || c == '_' || c == '$'

def isWord : List Char → Bool
  | [] => false
  | c :: rest => isWordStart c && rest.all isWordPart

def isKeyword (word : String) : Bool :=
  word == "let" || word == "true" || word == "false" || word == "null"

end PromptLoop.Script
