import PromptLoop.Script.Parse

set_option autoImplicit false

/-!
# Reading by descent

The same tokens are read by routines that call one another, one for each kind of construct. They
share a place among the tokens and a depth, the number of levels that are entered and not left. A
routine counts the level of what it reads for as long as it reads it: it leaves the level again, or
goes back to the depth that it began at, which ends every level of a chain at once. A descent has
no outcome where it would leave a level that nothing has entered.
-/
namespace PromptLoop.Script

structure Place where
  position : Nat := 0
  depth : Nat := 0
deriving DecidableEq, Repr

/-- Where a descent is, and where it has been, the last place first. -/
structure Trail where
  place : Place := {}
  passed : List Place := []
deriving DecidableEq, Repr

namespace Trail

def places (t : Trail) : List Place :=
  t.place :: t.passed

def moveTo (t : Trail) (p : Place) : Trail :=
  ⟨p, t.places⟩

def advance (t : Trail) : Trail :=
  t.moveTo { t.place with position := t.place.position + 1 }

def deepen (t : Trail) : Trail :=
  t.moveTo { t.place with depth := t.place.depth + 1 }

def restore (t : Trail) (depth : Nat) : Trail :=
  t.moveTo { t.place with depth }

end Trail

abbrev Descent (α : Type) := ExceptT SyntaxError (StateT Trail Option) α

namespace Descent
variable (limit : Nat) (tokens : List Token)

/-- What a descent comes to from a place on, and where it ends. -/
def outcome {α : Type} (m : Descent α) (t : Trail) : Option (Except SyntaxError α × Trail) :=
  m.run.run t

def peek : Descent (Option Token) := do
  return tokens[(← get).place.position]?

def next : Descent Token := do
  match ← peek tokens with
  | some t =>
    modify Trail.advance
    pure t
  | none => throw .unfinished

def eat (expected : Token) : Descent Bool := do
  if (← peek tokens) = some expected then
    modify Trail.advance
    pure true
  else pure false

def expect (expected : Token) : Descent Unit := do
  let t ← next tokens
  if t = expected then pure () else throw (.malformed (.unexpected t))

def enter : Descent Unit := do
  if (← get).place.depth < limit then modify Trail.deepen else throw (.malformed .tooDeep)

def leave : Descent Unit := do
  match (← get).place.depth with
  | 0 => liftM (none : Option Unit)
  | depth + 1 => modify (·.restore depth)

end Descent

inductive Routine where
  | expression
  /-- The binary operators of a level, and those that bind more tightly. -/
  | level (n : Nat)
  /-- The operators of a level behind an operand, in a chain that began at depth `base`. -/
  | operators (n base : Nat) (left : Expr)
  | unary
  | access
  /-- Further postfix steps of a target, in a chain that began at depth `base`. -/
  | steps (base : Nat) (target : Expr)
  | primary
  /-- A list behind some of its items, last one first. -/
  | list (kind : ListKind) (reversed : List Expr)
  /-- An object behind some of its entries, last one first. -/
  | object (reversed : List (String × Expr))

def Routine.operand (n : Nat) : Routine :=
  if n < 5 then .level (n + 1) else .unary

def Token.binaryOp? (n : Nat) : Token → Option BinaryOp
  | .symbol s => (BinaryOp.ofSymbol? s).filter fun op => op.level = n
  | _ => none

def Token.unaryOp? : Token → Option UnaryOp
  | .symbol .minus => some .negate
  | .symbol .bang => some .not
  | _ => none

def Token.key? : Token → Option String
  | .word w => some w
  | .string s => some s
  | .number x => some (Value.ofBinary64? x).text
  | .symbol _ => none

namespace Descent

/-- One call of a routine, with the calls that it makes itself left open. -/
def body (limit : Nat) (tokens : List Token) (call : Routine → Descent Expr) :
    Routine → Descent Expr
  | .expression => do
    enter limit
    let e ← call (.level 0)
    leave
    pure e
  | .level n => do
    let base := (← get).place.depth
    let left ← call (.operand n)
    call (.operators n base left)
  | .operators n base left => do
    match (← peek tokens).bind (Token.binaryOp? n) with
    | some op =>
      modify Trail.advance
      enter limit
      let right ← call (.operand n)
      call (.operators n base (.binary op left right))
    | none =>
      modify (·.restore base)
      pure left
  | .unary => do
    match (← peek tokens).bind Token.unaryOp? with
    | some op =>
      modify Trail.advance
      enter limit
      let operand ← call .unary
      leave
      pure (.unary op operand)
    | none => call .access
  | .access => do
    let base := (← get).place.depth
    let target ← call .primary
    call (.steps base target)
  | .steps base target => do
    if ← eat tokens (.symbol .dot) then
      enter limit
      match ← next tokens with
      | .word name => call (.steps base (.member target name))
      | t => throw (.malformed (.unexpected t))
    else if ← eat tokens (.symbol .openBracket) then
      enter limit
      let position ← call .expression
      expect tokens (.symbol .closeBracket)
      call (.steps base (.index target position))
    else
      modify (·.restore base)
      pure target
  | .primary => do
    match ← next tokens with
    | .number x => pure (.literal (.ofBinary64? x))
    | .string s => pure (.literal (.string s))
    | .word w =>
      match keywordValue? w with
      | some v => pure (.literal v)
      | none =>
        if w = "let" then throw (.malformed (.unexpected (.word w)))
        else if ← eat tokens (.symbol .openParen) then call (.list (.call w) [])
        else pure (.name w)
    | .symbol .openParen => do
      let e ← call .expression
      expect tokens (.symbol .closeParen)
      pure e
    | .symbol .openBracket => call (.list .array [])
    | .symbol .openBrace => call (.object [])
    | t => throw (.malformed (.unexpected t))
  | .list kind reversed => do
    if ← eat tokens (.symbol kind.close) then pure (kind.build reversed.reverse)
    else
      let e ← call .expression
      if ← eat tokens (.symbol .comma) then call (.list kind (e :: reversed))
      else
        expect tokens (.symbol kind.close)
        pure (kind.build (e :: reversed).reverse)
  | .object reversed => do
    if ← eat tokens (.symbol .closeBrace) then pure (.object reversed.reverse)
    else
      let t ← next tokens
      match t.key? with
      | none => throw (.malformed (.unexpected t))
      | some key =>
        expect tokens (.symbol .colon)
        let e ← call .expression
        if ← eat tokens (.symbol .comma) then call (.object ((key, e) :: reversed))
        else
          expect tokens (.symbol .closeBrace)
          pure (.object ((key, e) :: reversed).reverse)

def callWithin (limit : Nat) (tokens : List Token) : Nat → Routine → Descent Expr
  | 0, _ => liftM (none : Option Expr)
  | calls + 1, r => body limit tokens (callWithin limit tokens calls) r

/-- Each token is read through no more than eleven calls inside one another. -/
def call (limit : Nat) (tokens : List Token) : Routine → Descent Expr :=
  callWithin limit tokens (11 * (tokens.length + 1))

variable (limit : Nat) (tokens : List Token)

def statement : Descent Statement := do
  let p := (← get).place.position
  match tokens[p]? with
  | none => pure .empty
  | some (.symbol .semicolon) => pure .empty
  | some (.word w) =>
    if w = "let" then
      modify Trail.advance
      match ← next tokens with
      | .word name =>
        if isKeyword name then throw (.malformed (.unexpected (.word name)))
        else
          expect tokens (.symbol .assign)
          return .assign name (← call limit tokens .expression) true
      | t => throw (.malformed (.unexpected t))
    else if tokens[p + 1]? = some (.symbol .assign) then
      if isKeyword w then throw (.malformed .target)
      else
        modify (·.advance.advance)
        return .assign w (← call limit tokens .expression) false
    else return .expr (← call limit tokens .expression)
  | some _ => return .expr (← call limit tokens .expression)

def unit : Descent Statement := do
  let s ← statement limit tokens
  let _ ← eat tokens (.symbol .semicolon)
  match ← peek tokens with
  | none => pure s
  | some t => throw (.malformed (.unexpected t))

end Descent

end PromptLoop.Script
