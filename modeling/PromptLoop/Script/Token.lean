import PromptLoop.Number.Notation
import PromptLoop.Text.Visible

set_option autoImplicit false

namespace PromptLoop.Script

inductive Symbol where
  | openParen | closeParen | openBracket | closeBracket | openBrace | closeBrace
  | comma | colon | semicolon | dot
  | plus | minus | star | slash | percent | bang
  | assign | equal | notEqual | less | lessEqual | greater | greaterEqual | both | either
deriving DecidableEq, Repr

def Symbol.text : Symbol → String
  | .openParen => "("
  | .closeParen => ")"
  | .openBracket => "["
  | .closeBracket => "]"
  | .openBrace => "\x7b"
  | .closeBrace => "\x7d"
  | .comma => ","
  | .colon => ":"
  | .semicolon => ";"
  | .dot => "."
  | .plus => "+"
  | .minus => "-"
  | .star => "*"
  | .slash => "/"
  | .percent => "%"
  | .bang => "!"
  | .assign => "="
  | .equal => "=="
  | .notEqual => "!="
  | .less => "<"
  | .lessEqual => "<="
  | .greater => ">"
  | .greaterEqual => ">="
  | .both => "&&"
  | .either => "||"

inductive Token where
  /-- A numeric literal; `none` stands for one beyond the largest number. -/
  | number (value : Option Binary64)
  | string (s : String)
  | word (w : String)
  | symbol (s : Symbol)
deriving DecidableEq, Repr

def Token.text : Token → String
  | .number (some x) => String.ofList (Binary64.Notation.plain.write x)
  | .number none => "inf"
  | .string s => String.ofList (Visible.encode s.toList)
  | .word w => w
  | .symbol s => s.text

end PromptLoop.Script
