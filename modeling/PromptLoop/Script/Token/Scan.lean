import PromptLoop.Number.Numeral
import PromptLoop.Script.SyntaxError
import PromptLoop.Script.Word
import PromptLoop.Text.Hex
import PromptLoop.Unicode.WhiteSpace

set_option autoImplicit false

namespace PromptLoop.Script

inductive NumeralPart where
  | whole | fraction
  | mark
  | exponent
deriving DecidableEq, Repr

/-- The piece of text that the scanner is inside of. Characters are kept last one first. -/
inductive Piece where
  | none
  | word (reversed : List Char)
  | numeral (part : NumeralPart) (reversed : List Char)
  | string (quote : Char) (reversed : List Char)
  | escape (quote : Char) (reversed : List Char)
  /-- Behind a backslash and `u`, with fewer than four characters so far. -/
  | codePoint (quote : Char) (reversed : List Char) (digits : List Char)
  | slash
  | comment
  | symbol (first : Char)
deriving DecidableEq, Repr

structure Scanner where
  reversed : List Token := []
  piece : Piece := .none
deriving DecidableEq, Repr

def literal? (text : List Char) : Option Token :=
  let (whole, rest) := Numeral.digits text
  let (fraction, rest) := match rest with
    | '.' :: rest => Numeral.digits rest
    | rest => ([], rest)
  let significand := Numeral.natural (whole ++ fraction)
  let value (e : Int) := Token.number (Binary64.ofDecimal? significand (e - fraction.length))
  match rest with
  | [] => some (value 0)
  | _ :: '+' :: [] | _ :: '-' :: [] | [_] => none
  | _ :: '+' :: ds => some (value (Numeral.natural ds))
  | _ :: '-' :: ds => some (value (-(Numeral.natural ds : Int)))
  | _ :: ds => some (value (Numeral.natural ds))

def NumeralPart.next? (part : NumeralPart) (c : Char) : Option NumeralPart :=
  match part with
  | .whole =>
    if c.isDigit then some .whole
    else if c = '.' then some .fraction
    else if c = 'e' ∨ c = 'E' then some .mark
    else none
  | .fraction =>
    if c.isDigit then some .fraction
    else if c = 'e' ∨ c = 'E' then some .mark
    else none
  | .mark => if c.isDigit ∨ c = '+' ∨ c = '-' then some .exponent else none
  | .exponent => if c.isDigit then some .exponent else none

/-- The character that four characters behind `\u` name. A plus sign may stand for the first
digit; surrogates are no characters. -/
def codePoint? (ds : List Char) : Option Char :=
  let n? := match ds with
    | '+' :: ds => Hex.number? ds
    | ds => Hex.number? ds
  match n? with
  | some n => if n.isValidChar then some (Char.ofNat n) else none
  | none => none

def escaped (c : Char) : Char :=
  if c = 'n' then '\n'
  else if c = 't' then '\t'
  else if c = 'r' then '\r'
  else if c = '0' then '\x00'
  else c

def single? (c : Char) : Option Symbol :=
  if c = '(' then some .openParen
  else if c = ')' then some .closeParen
  else if c = '[' then some .openBracket
  else if c = ']' then some .closeBracket
  else if c = '\x7b' then some .openBrace
  else if c = '\x7d' then some .closeBrace
  else if c = ',' then some .comma
  else if c = ':' then some .colon
  else if c = ';' then some .semicolon
  else if c = '.' then some .dot
  else if c = '+' then some .plus
  else if c = '-' then some .minus
  else if c = '*' then some .star
  else if c = '%' then some .percent
  else none

def isPairStart (c : Char) : Bool :=
  c == '!' || c == '=' || c == '<' || c == '>' || c == '&' || c == '|'

def pair? (first second : Char) : Option Symbol :=
  if second = '=' then
    if first = '!' then some .notEqual
    else if first = '=' then some .equal
    else if first = '<' then some .lessEqual
    else if first = '>' then some .greaterEqual
    else none
  else if first = '&' ∧ second = '&' then some .both
  else if first = '|' ∧ second = '|' then some .either
  else none

def alone? (first : Char) : Option Symbol :=
  if first = '!' then some .bang
  else if first = '=' then some .assign
  else if first = '<' then some .less
  else if first = '>' then some .greater
  else none

namespace Scanner

def emit (s : Scanner) (t : Token) : Scanner :=
  ⟨t :: s.reversed, .none⟩

def start (s : Scanner) (c : Char) : Except Malformed Scanner :=
  if Unicode.isWhiteSpace c then .ok { s with piece := .none }
  else if c.isDigit then .ok { s with piece := .numeral .whole [c] }
  else if c = '"' ∨ c = '\'' then .ok { s with piece := .string c [] }
  else if isWordStart c then .ok { s with piece := .word [c] }
  else if c = '/' then .ok { s with piece := .slash }
  else if isPairStart c then .ok { s with piece := .symbol c }
  else match single? c with
    | some symbol => .ok (s.emit (.symbol symbol))
    | none => .error .strayCharacter

def endNumeral (s : Scanner) (reversed : List Char) : Except Malformed Scanner :=
  match literal? reversed.reverse with
  | some t => .ok (s.emit t)
  | none => .error (.number (String.ofList reversed.reverse))

def endSymbol (s : Scanner) (first : Char) : Except Malformed Scanner :=
  match alone? first with
  | some symbol => .ok (s.emit (.symbol symbol))
  | none => .error .strayCharacter

def push (s : Scanner) (c : Char) : Except Malformed Scanner :=
  match s.piece with
  | .none => s.start c
  | .word reversed =>
    if isWordPart c then .ok { s with piece := .word (c :: reversed) }
    else (s.emit (.word (String.ofList reversed.reverse))).start c
  | .numeral part reversed =>
    match part.next? c with
    | some part => .ok { s with piece := .numeral part (c :: reversed) }
    | none =>
      if Unicode.isAlphabetic c ∨ c = '_' then .error .strayCharacter
      else (s.endNumeral reversed).bind (·.start c)
  | .string quote reversed =>
    if c = quote then .ok (s.emit (.string (String.ofList reversed.reverse)))
    else if c = '\n' then .error .strayCharacter
    else if c = '\\' then .ok { s with piece := .escape quote reversed }
    else .ok { s with piece := .string quote (c :: reversed) }
  | .escape quote reversed =>
    if c = 'u' then .ok { s with piece := .codePoint quote reversed [] }
    else .ok { s with piece := .string quote (escaped c :: reversed) }
  | .codePoint quote reversed digits =>
    if digits.length < 3 then .ok { s with piece := .codePoint quote reversed (c :: digits) }
    else match codePoint? (c :: digits).reverse with
      | some c => .ok { s with piece := .string quote (c :: reversed) }
      | none => .error .escape
  | .slash =>
    if c = '/' then .ok { s with piece := .comment }
    else (s.emit (.symbol .slash)).start c
  | .comment => .ok (if c = '\n' then { s with piece := .none } else s)
  | .symbol first =>
    match pair? first c with
    | some symbol => .ok (s.emit (.symbol symbol))
    | none => (s.endSymbol first).bind (·.start c)

def finish (s : Scanner) : Except Malformed (List Token) :=
  match s.piece with
  | .none | .comment => .ok s.reversed.reverse
  | .word reversed => .ok (s.emit (.word (String.ofList reversed.reverse))).reversed.reverse
  | .numeral _ reversed => (s.endNumeral reversed).map (·.reversed.reverse)
  | .string .. | .escape .. => .error .strayCharacter
  | .codePoint .. => .error .escape
  | .slash => .ok (s.emit (.symbol .slash)).reversed.reverse
  | .symbol first => (s.endSymbol first).map (·.reversed.reverse)

end Scanner

def Token.scan (text : List Char) : Except Malformed (List Token) :=
  (text.foldlM Scanner.push {}).bind Scanner.finish

theorem Token.scan_append (front back : List Char) :
    Token.scan (front ++ back) = (front.foldlM Scanner.push {}).bind fun s =>
      (back.foldlM Scanner.push s).bind Scanner.finish := by
  unfold Token.scan
  rw [List.foldlM_append]
  cases front.foldlM Scanner.push {} <;> rfl

end PromptLoop.Script
