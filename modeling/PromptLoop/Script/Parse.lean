import PromptLoop.Script.Fragment
import PromptLoop.Script.Token.Scan

set_option autoImplicit false

namespace PromptLoop.Script

def Statement.ofTokensWithin (limit : Nat) (tokens : List Token) : Except SyntaxError Statement :=
  match tokens.foldlM (Fragment.push limit) .start with
  | .ok f => f.finish limit
  | .error cause => .error (.malformed cause)

def Statement.ofTokens (tokens : List Token) : Except SyntaxError Statement :=
  Statement.ofTokensWithin maxDepth tokens

def Statement.parse (text : List Char) : Except SyntaxError Statement :=
  match Token.scan text with
  | .ok tokens => Statement.ofTokens tokens
  | .error cause => .error (.malformed cause)

end PromptLoop.Script
