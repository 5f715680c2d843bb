import PromptLoop.Script.Builtin

set_option autoImplicit false

namespace PromptLoop.Script

/-- Whether a depth is beyond the limit; `none` is no limit. -/
def beyond (limit : Option Nat) (depth : Nat) : Bool :=
  match limit with
  | some limit => limit < depth
  | none => false

mutual

def Expr.evalWithin (limit : Option Nat) (scope : Bindings Value) :
    Expr → Nat → Timed RuntimeError Value
  | .literal v, depth => if beyond limit depth then .fail .tooDeep else .ok v
  | .name n, depth =>
    if beyond limit depth then .fail .tooDeep
    else match Bindings.get? n scope with
      | some v => .ok v
      | none => .fail (.undefined n)
  | .array items, depth =>
    if beyond limit depth then .fail .tooDeep
    else do
      let values ← evalItems limit scope items (depth + 1)
      pure (.array values)
  | .object entries, depth =>
    if beyond limit depth then .fail .tooDeep
    else do
      let values ← evalEntries limit scope entries (depth + 1)
      pure (.object (Bindings.ofList values))
  | .member target name, depth =>
    if beyond limit depth then .fail .tooDeep
    else do
      let target ← target.evalWithin limit scope (depth + 1)
      .ofExcept (member target name)
  | .index target position, depth =>
    if beyond limit depth then .fail .tooDeep
    else do
      let target ← target.evalWithin limit scope (depth + 1)
      let position ← position.evalWithin limit scope (depth + 1)
      .ofExcept (item target position)
  | .unary op operand, depth =>
    if beyond limit depth then .fail .tooDeep
    else do
      let v ← operand.evalWithin limit scope (depth + 1)
      .ofExcept (op.apply v)
  | .binary op left right, depth =>
    if beyond limit depth then .fail .tooDeep
    else do
      let l ← left.evalWithin limit scope (depth + 1)
      if (op = .and ∧ l.truthy = false) ∨ (op = .or ∧ l.truthy = true) then pure l
      else do
        let r ← right.evalWithin limit scope (depth + 1)
        .ofExcept (op.apply l r)
  | .call function arguments, depth =>
    if beyond limit depth then .fail .tooDeep
    else do
      let values ← evalItems limit scope arguments (depth + 1)
      call function values
termination_by structural e => e

def evalItems (limit : Option Nat) (scope : Bindings Value) :
    List Expr → Nat → Timed RuntimeError (List Value)
  | [], _ => pure []
  | e :: rest, depth => do
    let v ← e.evalWithin limit scope depth
    let values ← evalItems limit scope rest depth
    pure (v :: values)
termination_by structural items => items

def evalEntries (limit : Option Nat) (scope : Bindings Value) :
    List (String × Expr) → Nat → Timed RuntimeError (List (String × Value))
  | [], _ => pure []
  | entry :: rest, depth => do
    let v ← evalEntry limit scope entry depth
    let values ← evalEntries limit scope rest depth
    pure (v :: values)
termination_by structural entries => entries

def evalEntry (limit : Option Nat) (scope : Bindings Value) :
    String × Expr → Nat → Timed RuntimeError (String × Value)
  | (key, e), depth => do
    let v ← e.evalWithin limit scope depth
    pure (key, v)
termination_by structural entry => entry

end

def Expr.eval (scope : Bindings Value) (e : Expr) : Timed RuntimeError Value :=
  e.evalWithin (some maxDepth) scope 0

def Statement.run (scope : Bindings Value) : Statement → Timed RuntimeError (Option Value)
  | .empty => pure none
  | .expr e => do pure (some (← e.eval scope))
  | .assign _ e _ => do pure (some (← e.eval scope))

end PromptLoop.Script
