import Mathlib.Logic.Function.Iterate
import PromptLoop.Script.Eval

set_option autoImplicit false

/-!
# Evaluation that goes on in pieces

A resumption is an evaluation that stands still wherever its surroundings could come in between:
where it is about to look up a name, and where it waits. Nothing in it knows the bindings. If every
name is looked up in one scope, whatever happens between the look-ups, a resumption comes to what
evaluation in that scope gives in one go (`Statement.resumption_within`).
-/
namespace PromptLoop.Script

inductive Resumption (α : Type) where
  | done (outcome : Except RuntimeError α)
  | look (name : String) (next : Option Value → Resumption α)
  | wait (ms : Nat) (next : Resumption α)

namespace Resumption
variable {α β : Type}

def fail (e : RuntimeError) : Resumption α := done (.error e)

def ofTimed (x : Timed RuntimeError α) : Resumption α :=
  x.waits.foldr wait (done x.outcome)

def bind (x : Resumption α) (f : α → Resumption β) : Resumption β :=
  match x with
  | done (.ok a) => f a
  | done (.error e) => done (.error e)
  | look name next => look name fun v => (next v).bind f
  | wait ms next => wait ms (next.bind f)

instance : Monad Resumption where
  pure a := done (.ok a)
  bind := bind

def within (scope : Bindings Value) : Resumption α → Timed RuntimeError α
  | done outcome => ⟨[], outcome⟩
  | look name next => (next (Bindings.get? name scope)).within scope
  | wait ms next => ⟨ms :: (next.within scope).waits, (next.within scope).outcome⟩

def advance (scope : Bindings Value) : Resumption α → Resumption α
  | done outcome => done outcome
  | look name next => next (Bindings.get? name scope)
  | wait _ next => next

def stops (scope : Bindings Value) : Resumption α → Nat
  | done _ => 0
  | look name next => (next (Bindings.get? name scope)).stops scope + 1
  | wait _ next => next.stops scope + 1

end Resumption

mutual

def Expr.resumption (limit : Option Nat) : Expr → Nat → Resumption Value
  | .literal v, depth => if beyond limit depth then .fail .tooDeep else pure v
  | .name n, depth =>
    if beyond limit depth then .fail .tooDeep
    else .look n fun
      | some v => pure v
      | none => .fail (.undefined n)
  | .array items, depth =>
    if beyond limit depth then .fail .tooDeep
    else do
      let values ← itemsResumption limit items (depth + 1)
      pure (.array values)
  | .object entries, depth =>
    if beyond limit depth then .fail .tooDeep
    else do
      let values ← entriesResumption limit entries (depth + 1)
      pure (.object (Bindings.ofList values))
  | .member target name, depth =>
    if beyond limit depth then .fail .tooDeep
    else do
      let target ← target.resumption limit (depth + 1)
      .done (member target name)
  | .index target position, depth =>
    if beyond limit depth then .fail .tooDeep
    else do
      let target ← target.resumption limit (depth + 1)
      let position ← position.resumption limit (depth + 1)
      .done (item target position)
  | .unary op operand, depth =>
    if beyond limit depth then .fail .tooDeep
    else do
      let v ← operand.resumption limit (depth + 1)
      .done (op.apply v)
  | .binary op left right, depth =>
    if beyond limit depth then .fail .tooDeep
    else do
      let l ← left.resumption limit (depth + 1)
      if (op = .and ∧ l.truthy = false) ∨ (op = .or ∧ l.truthy = true) then pure l
      else do
        let r ← right.resumption limit (depth + 1)
        .done (op.apply l r)
  | .call function arguments, depth =>
    if beyond limit depth then .fail .tooDeep
    else do
      let values ← itemsResumption limit arguments (depth + 1)
      .ofTimed (call function values)
termination_by structural e => e

def itemsResumption (limit : Option Nat) : List Expr → Nat → Resumption (List Value)
  | [], _ => pure []
  | e :: rest, depth => do
    let v ← e.resumption limit depth
    let values ← itemsResumption limit rest depth
    pure (v :: values)
termination_by structural items => items

def entriesResumption (limit : Option Nat) :
    List (String × Expr) → Nat → Resumption (List (String × Value))
  | [], _ => pure []
  | entry :: rest, depth => do
    let v ← entryResumption limit entry depth
    let values ← entriesResumption limit rest depth
    pure (v :: values)
termination_by structural entries => entries

def entryResumption (limit : Option Nat) : String × Expr → Nat → Resumption (String × Value)
  | (key, e), depth => do
    let v ← e.resumption limit depth
    pure (key, v)
termination_by structural entry => entry

end

def Statement.resumption : Statement → Resumption (Option Value)
  | .empty => pure none
  | .expr e => do pure (some (← e.resumption (some maxDepth) 0))
  | .assign _ e _ => do pure (some (← e.resumption (some maxDepth) 0))

namespace Resumption
variable {α β : Type} (scope : Bindings Value)

theorem pure_within (a : α) : (pure a : Resumption α).within scope = pure a := rfl

theorem bind_within (x : Resumption α) (f : α → Resumption β) :
    (x >>= f).within scope = x.within scope >>= fun a => (f a).within scope := by
  change (x.bind f).within scope = (x.within scope).bind fun a => (f a).within scope
  induction x with
  | done outcome => cases outcome <;> rfl
  | look name next ih => exact ih _
  | wait ms next ih =>
    simp only [bind, within, ih]
    unfold Timed.bind
    cases (next.within scope).outcome <;> rfl

theorem ofTimed_within (x : Timed RuntimeError α) : (ofTimed x).within scope = x := by
  obtain ⟨waits, outcome⟩ := x
  induction waits with
  | nil => rfl
  | cons ms rest ih =>
    change (wait ms (ofTimed ⟨rest, outcome⟩)).within scope = _
    simp only [within, ih]

end Resumption

section
variable (limit : Option Nat) (scope : Bindings Value)

mutual

theorem Expr.resumption_within (e : Expr) (depth : Nat) :
    (e.resumption limit depth).within scope = e.evalWithin limit scope depth := by
  by_cases hb : beyond limit depth = true
  · cases e <;> simp only [Expr.resumption, Expr.evalWithin, if_pos hb] <;> rfl
  · cases e with
    | literal v =>
      simp only [Expr.resumption, Expr.evalWithin, if_neg hb]
      rfl
    | name n =>
      simp only [Expr.resumption, Expr.evalWithin, if_neg hb, Resumption.within]
      cases Bindings.get? n scope <;> rfl
    | array items =>
      simp only [Expr.resumption, Expr.evalWithin, if_neg hb, Resumption.bind_within,
        itemsResumption_within items]
      rfl
    | object entries =>
      simp only [Expr.resumption, Expr.evalWithin, if_neg hb, Resumption.bind_within,
        entriesResumption_within entries]
      rfl
    | member target name =>
      simp only [Expr.resumption, Expr.evalWithin, if_neg hb, Resumption.bind_within,
        Expr.resumption_within target]
      rfl
    | index target position =>
      simp only [Expr.resumption, Expr.evalWithin, if_neg hb, Resumption.bind_within,
        Expr.resumption_within target, Expr.resumption_within position]
      rfl
    | unary op operand =>
      simp only [Expr.resumption, Expr.evalWithin, if_neg hb, Resumption.bind_within,
        Expr.resumption_within operand]
      rfl
    | binary op left right =>
      simp only [Expr.resumption, Expr.evalWithin, if_neg hb, Resumption.bind_within,
        Expr.resumption_within left]
      congr 1
      funext l
      split
      · rfl
      · simp only [Resumption.bind_within, Expr.resumption_within right]
        rfl
    | call function arguments =>
      simp only [Expr.resumption, Expr.evalWithin, if_neg hb, Resumption.bind_within,
        itemsResumption_within arguments, Resumption.ofTimed_within]
termination_by structural e

theorem itemsResumption_within (items : List Expr) (depth : Nat) :
    (itemsResumption limit items depth).within scope = evalItems limit scope items depth := by
  cases items with
  | nil => rfl
  | cons e rest =>
    simp only [itemsResumption, evalItems, Resumption.bind_within, Resumption.pure_within,
      Expr.resumption_within e, itemsResumption_within rest]
termination_by structural items

theorem entriesResumption_within (entries : List (String × Expr)) (depth : Nat) :
    (entriesResumption limit entries depth).within scope =
      evalEntries limit scope entries depth := by
  cases entries with
  | nil => rfl
  | cons entry rest =>
    simp only [entriesResumption, evalEntries, Resumption.bind_within, Resumption.pure_within,
      entryResumption_within entry, entriesResumption_within rest]
termination_by structural entries

theorem entryResumption_within (entry : String × Expr) (depth : Nat) :
    (entryResumption limit entry depth).within scope = evalEntry limit scope entry depth := by
  cases entry with
  | mk key e =>
    simp only [entryResumption, evalEntry, Resumption.bind_within, Resumption.pure_within,
      Expr.resumption_within e]
termination_by structural entry

end

end

/-- Evaluation in pieces comes to what a run in one go gives, after the same waits. -/
theorem Statement.resumption_within (scope : Bindings Value) (unit : Statement) :
    unit.resumption.within scope = unit.run scope := by
  cases unit with
  | empty => rfl
  | expr e =>
    simp only [Statement.resumption, Statement.run, Expr.eval, Resumption.bind_within,
      Resumption.pure_within, Expr.resumption_within]
  | assign name e declare =>
    simp only [Statement.resumption, Statement.run, Expr.eval, Resumption.bind_within,
      Resumption.pure_within, Expr.resumption_within]

namespace Resumption
variable {α : Type} (scope : Bindings Value)

theorem advance_outcome (x : Resumption α) :
    ((x.advance scope).within scope).outcome = (x.within scope).outcome := by
  cases x <;> rfl

theorem advance_stops (x : Resumption α) : (x.advance scope).stops scope = x.stops scope - 1 := by
  cases x <;> rfl

theorem eq_done {x : Resumption α} (h : x.stops scope = 0) :
    x = done (x.within scope).outcome := by
  cases x with
  | done outcome => rfl
  | _ => cases h

/-- Going on does not change what an evaluation comes to, and it comes to it. -/
theorem iterate_advance (x : Resumption α) (n : Nat) :
    (((advance scope)^[n] x).within scope).outcome = (x.within scope).outcome ∧
      ((advance scope)^[n] x).stops scope = x.stops scope - n := by
  induction n generalizing x with
  | zero => exact ⟨rfl, rfl⟩
  | succ n ih =>
    obtain ⟨houtcome, hstops⟩ := ih (x.advance scope)
    rw [Function.iterate_succ_apply]
    refine ⟨houtcome.trans (x.advance_outcome scope), hstops.trans ?_⟩
    rw [advance_stops]
    omega

end Resumption
end PromptLoop.Script
