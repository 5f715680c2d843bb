import PromptLoop.Script.Expr
import PromptLoop.Script.SyntaxError
import PromptLoop.Script.Word
import PromptLoop.Value.Text

set_option autoImplicit false

/-!
# Fragments of units

A fragment is what the tokens read so far have built: the constructs that are still open, the
innermost first, and what may come next. Tokens are pushed one by one, so whatever makes a text
malformed shows at the first token that cannot follow, and a text that ends early is a fragment
that has no statement yet.

Nesting is limited. Every expression inside another construct, every operand of a prefix operator,
every operator of a chain and every postfix step counts one level for as long as it is open.
-/
namespace PromptLoop.Script

def BinaryOp.ofSymbol? : Symbol → Option BinaryOp
  | .star => some .mul
  | .slash => some .div
  | .percent => some .rem
  | .plus => some .add
  | .minus => some .sub
  | .less => some .less
  | .lessEqual => some .lessEqual
  | .greater => some .greater
  | .greaterEqual => some .greaterEqual
  | .equal => some .equal
  | .notEqual => some .notEqual
  | .both => some .and
  | .either => some .or
  | _ => none

inductive ListKind where
  | array
  | call (function : String)
deriving DecidableEq, Repr

def ListKind.close : ListKind → Symbol
  | .array => .closeBracket
  | .call _ => .closeParen

def ListKind.build (kind : ListKind) (items : List Expr) : Expr :=
  match kind with
  | .array => .array items
  | .call function => .call function items

/-- A construct whose operand or inner expression is being read. -/
inductive Frame where
  | group
  /-- The items in front of the one being read, last one first. -/
  | item (kind : ListKind) (reversed : List Expr)
  /-- The entries in front of the one being read, last one first, and its key. -/
  | entry (reversed : List (String × Expr)) (key : String)
  /-- The target of the position being read, reached by so many postfix steps. -/
  | position (target : Expr) (steps : Nat)
  | unary (op : UnaryOp)
  /-- An operator and its left operand, which ends a chain of so many operators of one level. -/
  | chain (left : Expr) (op : BinaryOp) (length : Nat)
deriving Repr

def Frame.levels : Frame → Nat
  | .group => 1
  | .item _ _ => 1
  | .entry _ _ => 1
  | .position _ steps => steps + 2
  | .unary _ => 1
  | .chain _ _ length => length

/-- What may come next inside a statement. -/
inductive Awaiting where
  | operand
  | item (kind : ListKind) (reversed : List Expr)
  | key (reversed : List (String × Expr))
  | colon (reversed : List (String × Expr)) (key : String)
  /-- The name of a member of a target reached by so many postfix steps. -/
  | member (target : Expr) (steps : Nat)
  /-- Whatever may follow a name that is not in parentheses; a call, for one. -/
  | afterName (name : String)
  /-- Whatever may follow an operand reached by so many postfix steps. -/
  | afterOperand (e : Expr) (steps : Nat)
deriving Repr

def Awaiting.levels : Awaiting → Nat
  | .member _ steps => steps + 1
  | .afterOperand _ steps => steps
  | _ => 0

inductive Purpose where
  | result
  | assign (name : String) (declare : Bool)
deriving DecidableEq, Repr

def Purpose.build (purpose : Purpose) (e : Expr) : Statement :=
  match purpose with
  | .result => .expr e
  | .assign name declare => .assign name e declare

inductive Fragment where
  | start
  /-- One keyword that is a value; it may not be assigned to. -/
  | keyword (value : Value)
  | declaration
  | declared (name : String)
  | inside (purpose : Purpose) (frames : List Frame) (awaiting : Awaiting)
  | closed (s : Statement)
deriving Repr

def keywordValue? (word : String) : Option Value :=
  if word = "true" then some (.bool true)
  else if word = "false" then some (.bool false)
  else if word = "null" then some .null
  else none

def depth (frames : List Frame) : Nat :=
  frames.foldr (fun frame n => n + frame.levels) 1

/-- Ends the prefix operators and the chains that bind more tightly than `level`. -/
def reduce (level : Nat) (e : Expr) : List Frame → Expr × List Frame
  | .unary op :: frames => reduce level (.unary op e) frames
  | .chain left op length :: frames =>
    if level < op.level then reduce level (.binary op left e) frames
    else (e, .chain left op length :: frames)
  | frames => (e, frames)

def reduceAll (e : Expr) : List Frame → Expr × List Frame
  | .unary op :: frames => reduceAll (.unary op e) frames
  | .chain left op _ :: frames => reduceAll (.binary op left e) frames
  | frames => (e, frames)

/-- An operand in front of an operator: a chain of the operator's own level goes on, and is one
longer, or a new one begins. -/
def extendChain (op : BinaryOp) (e : Expr) (frames : List Frame) : List Frame :=
  match reduce op.level e frames with
  | (e, .chain left previous length :: frames) =>
    if previous.level = op.level then .chain (.binary previous left e) op (length + 1) :: frames
    else .chain e op 1 :: .chain left previous length :: frames
  | (e, frames) => .chain e op 1 :: frames

namespace Fragment

/-- The statement under way, if its levels are within the limit. -/
def enter (limit : Nat) (purpose : Purpose) (frames : List Frame) (awaiting : Awaiting) :
    Except Malformed Fragment :=
  if depth frames + awaiting.levels ≤ limit then .ok (.inside purpose frames awaiting)
  else .error .tooDeep

def pushOperand (limit : Nat) (purpose : Purpose) (frames : List Frame) (t : Token) :
    Except Malformed Fragment :=
  match t with
  | .number x => .ok (.inside purpose frames (.afterOperand (.literal (.ofBinary64? x)) 0))
  | .string s => .ok (.inside purpose frames (.afterOperand (.literal (.string s)) 0))
  | .word w =>
    match keywordValue? w with
    | some v => .ok (.inside purpose frames (.afterOperand (.literal v) 0))
    | none =>
      if w = "let" then .error (.unexpected t) else .ok (.inside purpose frames (.afterName w))
  | .symbol .minus => enter limit purpose (.unary .negate :: frames) .operand
  | .symbol .bang => enter limit purpose (.unary .not :: frames) .operand
  | .symbol .openParen => enter limit purpose (.group :: frames) .operand
  | .symbol .openBracket => .ok (.inside purpose frames (.item .array []))
  | .symbol .openBrace => .ok (.inside purpose frames (.key []))
  | .symbol _ => .error (.unexpected t)

def pushAfter (limit : Nat) (purpose : Purpose) (frames : List Frame) (e : Expr) (steps : Nat)
    (t : Token) : Except Malformed Fragment :=
  match t with
  | .symbol .dot => enter limit purpose frames (.member e steps)
  | .symbol .openBracket => enter limit purpose (.position e steps :: frames) .operand
  | .symbol symbol =>
    match BinaryOp.ofSymbol? symbol with
    | some op => enter limit purpose (extendChain op e frames) .operand
    | none =>
      match symbol, reduceAll e frames with
      | .closeParen, (e, .group :: frames) => .ok (.inside purpose frames (.afterOperand e 0))
      | .closeBracket, (position, .position target steps :: frames) =>
        .ok (.inside purpose frames (.afterOperand (.index target position) (steps + 1)))
      | .comma, (e, .item kind reversed :: frames) =>
        .ok (.inside purpose frames (.item kind (e :: reversed)))
      | .comma, (e, .entry reversed key :: frames) =>
        .ok (.inside purpose frames (.key ((key, e) :: reversed)))
      | .closeBrace, (e, .entry reversed key :: frames) =>
        .ok (.inside purpose frames (.afterOperand (.object ((key, e) :: reversed).reverse) 0))
      | .semicolon, (e, []) => .ok (.closed (purpose.build e))
      | _, (e, .item kind reversed :: frames) =>
        if symbol = kind.close then
          .ok (.inside purpose frames (.afterOperand (kind.build (e :: reversed).reverse) 0))
        else .error (.unexpected t)
      | _, _ => .error (.unexpected t)
  | _ => .error (.unexpected t)

def pushInside (limit : Nat) (purpose : Purpose) (frames : List Frame) (awaiting : Awaiting)
    (t : Token) : Except Malformed Fragment :=
  match awaiting with
  | .operand => pushOperand limit purpose frames t
  | .item kind reversed =>
    if t = .symbol kind.close then
      .ok (.inside purpose frames (.afterOperand (kind.build reversed.reverse) 0))
    else (enter limit purpose (.item kind reversed :: frames) .operand).bind fun _ =>
      pushOperand limit purpose (.item kind reversed :: frames) t
  | .key reversed =>
    match t with
    | .symbol .closeBrace =>
      .ok (.inside purpose frames (.afterOperand (.object reversed.reverse) 0))
    | .word w => .ok (.inside purpose frames (.colon reversed w))
    | .string s => .ok (.inside purpose frames (.colon reversed s))
    | .number x => .ok (.inside purpose frames (.colon reversed (Value.ofBinary64? x).text))
    | .symbol _ => .error (.unexpected t)
  | .colon reversed key =>
    if t = .symbol .colon then enter limit purpose (.entry reversed key :: frames) .operand
    else .error (.unexpected t)
  | .member target steps =>
    match t with
    | .word w => .ok (.inside purpose frames (.afterOperand (.member target w) (steps + 1)))
    | _ => .error (.unexpected t)
  | .afterName name =>
    if t = .symbol .openParen then .ok (.inside purpose frames (.item (.call name) []))
    else pushAfter limit purpose frames (.name name) 0 t
  | .afterOperand e steps => pushAfter limit purpose frames e steps t

def push (limit : Nat) (f : Fragment) (t : Token) : Except Malformed Fragment :=
  match f with
  | .start =>
    match t with
    | .symbol .semicolon => .ok (.closed .empty)
    | .word w =>
      if w = "let" then .ok .declaration
      else match keywordValue? w with
        | some v => .ok (.keyword v)
        | none => .ok (.inside .result [] (.afterName w))
    | _ => (enter limit .result [] .operand).bind fun _ => pushOperand limit .result [] t
  | .keyword v =>
    if t = .symbol .assign then .error .target else pushAfter limit .result [] (.literal v) 0 t
  | .declaration =>
    match t with
    | .word w => if isKeyword w then .error (.unexpected t) else .ok (.declared w)
    | _ => .error (.unexpected t)
  | .declared name =>
    if t = .symbol .assign then enter limit (.assign name true) [] .operand
    else .error (.unexpected t)
  | .inside .result [] (.afterName name) =>
    if t = .symbol .assign then enter limit (.assign name false) [] .operand
    else pushInside limit .result [] (.afterName name) t
  | .inside purpose frames awaiting => pushInside limit purpose frames awaiting t
  | .closed _ => .error (.unexpected t)

def finishAfter (purpose : Purpose) (frames : List Frame) (e : Expr) :
    Except SyntaxError Statement :=
  match reduceAll e frames with
  | (e, []) => .ok (purpose.build e)
  | _ => .error .unfinished

/-- The end of the text. Where an item would exceed the limit no text can help. -/
def finish (limit : Nat) : Fragment → Except SyntaxError Statement
  | .start => .ok .empty
  | .keyword v => .ok (.expr (.literal v))
  | .declaration => .error .unfinished
  | .declared _ => .error .unfinished
  | .inside purpose frames (.afterName name) => finishAfter purpose frames (.name name)
  | .inside purpose frames (.afterOperand e _) => finishAfter purpose frames e
  | .inside _ frames (.item kind reversed) =>
    if depth (.item kind reversed :: frames) ≤ limit then .error .unfinished
    else .error (.malformed .tooDeep)
  | .inside _ _ _ => .error .unfinished
  | .closed s => .ok s

end Fragment

end PromptLoop.Script
