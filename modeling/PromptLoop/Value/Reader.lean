import PromptLoop.Number.Numeral
import PromptLoop.Text.Hex
import PromptLoop.Value

set_option autoImplicit false

namespace PromptLoop.Value

inductive Lexeme where
  | openArray | closeArray | openObject | closeObject | comma | colon
  | scalar (v : Value)
  | text (s : String)
deriving Repr

namespace Lexeme

def isBlank (c : Char) : Bool :=
  c == ' ' || c == '\t' || c == '\n' || c == '\r'

def unit? (a b c d : Char) : Option Nat :=
  Hex.number? [a, b, c, d]

def isHigh (u : Nat) : Bool :=
  0xD800 ≤ u && u < 0xDC00

def isLow (u : Nat) : Bool :=
  0xDC00 ≤ u && u < 0xE000

def short? (c : Char) : Option Char :=
  if c = '"' ∨ c = '\\' ∨ c = '/' then some c
  else if c = 'b' then some '\x08'
  else if c = 'f' then some '\x0c'
  else if c = 'n' then some '\n'
  else if c = 'r' then some '\r'
  else if c = 't' then some '\t'
  else none

def body? (reversed : List Char) : List Char → Option (List Char × List Char)
  | [] => none
  | '"' :: rest => some (reversed, rest)
  | '\\' :: 'u' :: a :: b :: c :: d :: '\\' :: 'u' :: e :: f :: g :: h :: rest =>
    match unit? a b c d with
    | none => none
    | some u =>
      if isHigh u then
        match unit? e f g h with
        | none => none
        | some l =>
          if isLow l then
            body? (Char.ofNat (0x10000 + (u - 0xD800) * 0x400 + (l - 0xDC00)) :: reversed) rest
          else none
      else if isLow u then none
      else body? (Char.ofNat u :: reversed) ('\\' :: 'u' :: e :: f :: g :: h :: rest)
  | '\\' :: 'u' :: a :: b :: c :: d :: rest =>
    match unit? a b c d with
    | none => none
    | some u => if isHigh u || isLow u then none else body? (Char.ofNat u :: reversed) rest
  | '\\' :: c :: rest =>
    match short? c with
    | none => none
    | some c => body? (c :: reversed) rest
  | c :: rest => if c.toNat < 0x20 ∨ c = '\\' then none else body? (c :: reversed) rest

def read? : List Char → Option (Lexeme × List Char)
  | '[' :: rest => some (.openArray, rest)
  | ']' :: rest => some (.closeArray, rest)
  | '\x7b' :: rest => some (.openObject, rest)
  | '\x7d' :: rest => some (.closeObject, rest)
  | ',' :: rest => some (.comma, rest)
  | ':' :: rest => some (.colon, rest)
  | '"' :: rest => (body? [] rest).map fun (s, rest) => (.text (String.ofList s.reverse), rest)
  | 'n' :: 'u' :: 'l' :: 'l' :: rest => some (.scalar .null, rest)
  | 't' :: 'r' :: 'u' :: 'e' :: rest => some (.scalar (.bool true), rest)
  | 'f' :: 'a' :: 'l' :: 's' :: 'e' :: rest => some (.scalar (.bool false), rest)
  | s => do
    let (n, rest) ← Numeral.read? s
    let v ← n.value?
    pure (.scalar (.number v), rest)

def readAll? : Nat → List Char → Option (List Lexeme)
  | 0, s => if s.all isBlank then some [] else none
  | fuel + 1, s =>
    match s.dropWhile isBlank with
    | [] => some []
    | c :: rest => do
      let (lexeme, rest) ← read? (c :: rest)
      pure (lexeme :: (← readAll? fuel rest))

end Lexeme

inductive OpenPart where
  | array (reversed : List Value)
  | object (entries : Bindings Value) (key : String)
deriving Repr

inductive Expected where
  /-- A value, and after an opening bracket also the closing one. -/
  | value (orClose : Bool)
  /-- A key, and after an opening brace also the closing one. -/
  | key (entries : Bindings Value) (orClose : Bool)
  | colon (entries : Bindings Value) (key : String)
  | separator (v : Value)
deriving Repr

structure Partial where
  parts : List OpenPart
  expected : Expected
deriving Repr

namespace Partial

/-- The largest number of arrays and objects inside one another. -/
def maxNesting : Nat := 127

def start : Partial := ⟨[], .value false⟩

/-- One lexeme. The entries of an object whose key is awaited are part of what is expected. -/
def push? (p : Partial) (lexeme : Lexeme) : Option Partial :=
  match p.expected, lexeme with
  | .value _, .scalar v => some { p with expected := .separator v }
  | .value _, .text s => some { p with expected := .separator (.string s) }
  | .value _, .openArray =>
    if p.parts.length < maxNesting then some ⟨.array [] :: p.parts, .value true⟩ else none
  | .value _, .openObject =>
    if p.parts.length < maxNesting then some { p with expected := .key [] true } else none
  | .value true, .closeArray =>
    match p.parts with
    | .array _ :: rest => some ⟨rest, .separator (.array [])⟩
    | _ => none
  | .key entries _, .text s => some { p with expected := .colon entries s }
  | .key _ true, .closeObject => some { p with expected := .separator (.object []) }
  | .colon entries key, .colon => some ⟨.object entries key :: p.parts, .value false⟩
  | .separator v, .comma =>
    match p.parts with
    | .array items :: rest => some ⟨.array (v :: items) :: rest, .value false⟩
    | .object entries key :: rest => some ⟨rest, .key (entries.insert key v) false⟩
    | [] => none
  | .separator v, .closeArray =>
    match p.parts with
    | .array items :: rest => some ⟨rest, .separator (.array (v :: items).reverse)⟩
    | _ => none
  | .separator v, .closeObject =>
    match p.parts with
    | .object entries key :: rest => some ⟨rest, .separator (.object (entries.insert key v))⟩
    | _ => none
  | _, _ => none

def finish? (p : Partial) : Option Value :=
  match p.parts, p.expected with
  | [], .separator v => some v
  | _, _ => none

end Partial

def read? (s : List Char) : Option Value := do
  let lexemes ← Lexeme.readAll? s.length s
  (← lexemes.foldlM Partial.push? .start).finish?

def ofText? (s : String) : Option Value :=
  read? s.toList

end PromptLoop.Value
