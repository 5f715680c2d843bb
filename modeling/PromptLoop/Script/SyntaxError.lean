import PromptLoop.Script.Token

set_option autoImplicit false

namespace PromptLoop.Script

inductive Malformed where
  /-- A character that starts no token, or a string that does not end on its line. -/
  | strayCharacter
  | number (text : String)
  | escape
  | unexpected (token : Token)
  /-- An assignment to a keyword. -/
  | target
  | tooDeep
deriving DecidableEq, Repr

/-- The message for nesting beyond the limit, in the text of a unit or in a tree. -/
def tooDeepMessage : String := "Maximum nesting depth exceeded"

def Malformed.message : Malformed → String
  | .strayCharacter => "Invalid or unexpected token"
  | .number text => "Invalid number '" ++ text ++ "'"
  | .escape => "Invalid Unicode escape sequence"
  | .unexpected token => "Unexpected token '" ++ token.text ++ "'"
  | .target => "Invalid left-hand side in assignment"
  | .tooDeep => tooDeepMessage

inductive SyntaxError where
  | unfinished
  | malformed (cause : Malformed)
deriving DecidableEq, Repr

def SyntaxError.message : SyntaxError → String
  | .unfinished => "Unexpected end of input"
  | .malformed cause => cause.message

end PromptLoop.Script
