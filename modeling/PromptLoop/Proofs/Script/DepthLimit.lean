import PromptLoop.Script.Eval

set_option autoImplicit false

namespace PromptLoop.Script

variable {ε α β : Type}

theorem Timed.pure_eq (a : α) : (pure a : Timed ε α) = .ok a := rfl

theorem Timed.bind_eq (x : Timed ε α) (f : α → Timed ε β) : x >>= f = x.bind f := rfl

def Timed.behind (x : Timed ε α) (f : α → Nat) : Nat :=
  match x.outcome with
  | .ok a => f a
  | .error _ => 0

theorem Timed.behind_ok {x : Timed ε α} {a : α} (h : x.outcome = .ok a) (f : α → Nat) :
    x.behind f = f a := by
  simp only [behind, h]

theorem Timed.behind_error {x : Timed ε α} {e : ε} (h : x.outcome = .error e) (f : α → Nat) :
    x.behind f = 0 := by
  simp only [behind, h]

mutual

def Expr.reach (scope : Bindings Value) : Expr → Nat
  | .literal _ => 0
  | .name _ => 0
  | .array items => reachItems scope items
  | .object entries => reachEntries scope entries
  | .member target _ => target.reach scope + 1
  | .index target position =>
    max (target.reach scope + 1)
      ((target.evalWithin none scope 0).behind fun _ => position.reach scope + 1)
  | .unary _ operand => operand.reach scope + 1
  | .binary op left right =>
    max (left.reach scope + 1)
      ((left.evalWithin none scope 0).behind fun l =>
        if (op = .and ∧ l.truthy = false) ∨ (op = .or ∧ l.truthy = true) then 0
        else right.reach scope + 1)
  | .call _ arguments => reachItems scope arguments
termination_by structural e => e

def reachItems (scope : Bindings Value) : List Expr → Nat
  | [] => 0
  | e :: rest =>
    max (e.reach scope + 1) ((e.evalWithin none scope 0).behind fun _ => reachItems scope rest)
termination_by structural items => items

def reachEntries (scope : Bindings Value) : List (String × Expr) → Nat
  | [] => 0
  | entry :: rest =>
    max (reachEntry scope entry + 1)
      ((evalEntry none scope entry 0).behind fun _ => reachEntries scope rest)
termination_by structural entries => entries

def reachEntry (scope : Bindings Value) : String × Expr → Nat
  | (_, e) => e.reach scope
termination_by structural entry => entry

end

/-- `x` is `y` where the limit suffices and fails for its depth where it does not. -/
structure Timed.Limited (x y : Timed RuntimeError α) (enough : Prop) : Prop where
  same : enough → x = y
  exceeded : ¬ enough → x.outcome = .error .tooDeep

theorem Timed.Limited.iff {x y : Timed RuntimeError α} {p q : Prop} (h : x.Limited y p)
    (hpq : p ↔ q) : x.Limited y q :=
  ⟨fun hq => h.same (hpq.2 hq), fun hq => h.exceeded fun hp => hq (hpq.1 hp)⟩

theorem Timed.Limited.refl (x : Timed RuntimeError α) {p : Prop} (h : p) : x.Limited x p :=
  ⟨fun _ => rfl, fun hn => absurd h hn⟩

/-- The second computation starts at depth `d` and so does the first: the depths that they reach
join. -/
theorem Timed.Limited.bind {x y : Timed RuntimeError α} {f g : α → Timed RuntimeError β}
    {limit d r : Nat} {s : α → Nat} (h : x.Limited y (d + r ≤ limit))
    (hf : ∀ a, y.outcome = .ok a → d ≤ limit → (f a).Limited (g a) (d + s a ≤ limit)) :
    (x.bind f).Limited (y.bind g) (d + max r (y.behind s) ≤ limit) where
  same hle := by
    have hx : x = y := h.same (by omega)
    subst hx
    unfold Timed.bind
    cases ho : x.outcome with
    | error e => rfl
    | ok a =>
      have hs : x.behind s = s a := behind_ok ho s
      have heq := (hf a ho (by omega)).same (by omega)
      simp only [heq]
  exceeded hn := by
    by_cases hr : d + r ≤ limit
    · have hx : x = y := h.same hr
      subst hx
      cases ho : x.outcome with
      | error e =>
        have hs : x.behind s = 0 := behind_error ho s
        omega
      | ok a =>
        have hs : x.behind s = s a := behind_ok ho s
        have heq := (hf a ho (by omega)).exceeded (by omega)
        rw [bind_outcome, ho]
        exact heq
    · rw [bind_outcome, h.exceeded hr]
      rfl

theorem Timed.Limited.last {x y : Timed RuntimeError α} {limit d : Nat}
    (h : x.Limited y (d ≤ limit)) (f : α → Timed RuntimeError β) :
    (x.bind f).Limited (y.bind f) (d ≤ limit) where
  same hle := by rw [h.same hle]
  exceeded hn := by
    rw [bind_outcome, h.exceeded hn]
    rfl

section
variable (scope : Bindings Value)

theorem beyond_none (d : Nat) : beyond none d = false := rfl

mutual

theorem Expr.evalWithin_none (e : Expr) (d : Nat) :
    e.evalWithin none scope d = e.evalWithin none scope 0 := by
  cases e with
  | literal v => rfl
  | name n => rfl
  | array items => simp only [Expr.evalWithin, beyond_none, evalItems_none items (_ + 1)]
  | object entries => simp only [Expr.evalWithin, beyond_none, evalEntries_none entries (_ + 1)]
  | member target name =>
    simp only [Expr.evalWithin, beyond_none, Expr.evalWithin_none target (_ + 1)]
  | index target position =>
    simp only [Expr.evalWithin, beyond_none, Expr.evalWithin_none target (_ + 1),
      Expr.evalWithin_none position (_ + 1)]
  | unary op operand =>
    simp only [Expr.evalWithin, beyond_none, Expr.evalWithin_none operand (_ + 1)]
  | binary op left right =>
    simp only [Expr.evalWithin, beyond_none, Expr.evalWithin_none left (_ + 1),
      Expr.evalWithin_none right (_ + 1)]
  | call function arguments =>
    simp only [Expr.evalWithin, beyond_none, evalItems_none arguments (_ + 1)]
termination_by structural e

theorem evalItems_none (items : List Expr) (d : Nat) :
    evalItems none scope items d = evalItems none scope items 0 := by
  cases items with
  | nil => rfl
  | cons e rest => simp only [evalItems, Expr.evalWithin_none e d, evalItems_none rest d]
termination_by structural items

theorem evalEntries_none (entries : List (String × Expr)) (d : Nat) :
    evalEntries none scope entries d = evalEntries none scope entries 0 := by
  cases entries with
  | nil => rfl
  | cons entry rest =>
    simp only [evalEntries, evalEntry_none entry d, evalEntries_none rest d]
termination_by structural entries

theorem evalEntry_none (entry : String × Expr) (d : Nat) :
    evalEntry none scope entry d = evalEntry none scope entry 0 := by
  cases entry with
  | mk key e => simp only [evalEntry, Expr.evalWithin_none e d]
termination_by structural entry

end

mutual

theorem Expr.evalWithin_limited (limit : Nat) (e : Expr) (d : Nat) :
    (e.evalWithin (some limit) scope d).Limited (e.evalWithin none scope 0)
      (d + e.reach scope ≤ limit) := by
  by_cases hd : d ≤ limit
  · have hb : beyond (some limit) d = false := by simp [beyond, hd]
    cases e with
    | literal v =>
      simp only [Expr.evalWithin, hb, beyond_none, Expr.reach]
      exact .refl _ hd
    | name n =>
      simp only [Expr.evalWithin, hb, beyond_none, Expr.reach]
      exact .refl _ hd
    | array items =>
      simp only [Expr.evalWithin, hb, beyond_none, Expr.reach, evalItems_none]
      exact (evalItems_limited limit items d hd).last _
    | object entries =>
      simp only [Expr.evalWithin, hb, beyond_none, Expr.reach, evalEntries_none]
      exact (evalEntries_limited limit entries d hd).last _
    | member target name =>
      simp only [Expr.evalWithin, hb, beyond_none, Expr.reach, Expr.evalWithin_none]
      exact ((Expr.evalWithin_limited limit target (d + 1)).iff (by omega)).last _
    | index target position =>
      simp only [Expr.evalWithin, hb, beyond_none, Expr.reach, Expr.evalWithin_none]
      refine Timed.Limited.bind ((Expr.evalWithin_limited limit target (d + 1)).iff (by omega)) ?_
      intro _ _ _
      exact ((Expr.evalWithin_limited limit position (d + 1)).iff (by omega)).last _
    | unary op operand =>
      simp only [Expr.evalWithin, hb, beyond_none, Expr.reach, Expr.evalWithin_none]
      exact ((Expr.evalWithin_limited limit operand (d + 1)).iff (by omega)).last _
    | binary op left right =>
      simp only [Expr.evalWithin, hb, beyond_none, Expr.reach, Expr.evalWithin_none]
      refine Timed.Limited.bind ((Expr.evalWithin_limited limit left (d + 1)).iff (by omega)) ?_
      intro l _ hl
      by_cases hdecided : (op = .and ∧ l.truthy = false) ∨ (op = .or ∧ l.truthy = true)
      · rw [if_pos hdecided, if_pos hdecided, if_pos hdecided]
        exact .refl _ hl
      · rw [if_neg hdecided, if_neg hdecided, if_neg hdecided]
        exact ((Expr.evalWithin_limited limit right (d + 1)).iff (by omega)).last _
    | call function arguments =>
      simp only [Expr.evalWithin, hb, beyond_none, Expr.reach, evalItems_none]
      exact (evalItems_limited limit arguments d hd).last _
  · -- The expression itself is beyond the limit, so it is not looked at.
    have hb : beyond (some limit) d = true := by simp [beyond]; omega
    refine ⟨fun h => absurd h (by omega), fun _ => ?_⟩
    cases e <;> simp [Expr.evalWithin, hb, Timed.fail]
termination_by structural e

theorem evalItems_limited (limit : Nat) (items : List Expr) (d : Nat) (hd : d ≤ limit) :
    (evalItems (some limit) scope items (d + 1)).Limited (evalItems none scope items 0)
      (d + reachItems scope items ≤ limit) := by
  cases items with
  | nil => exact .refl _ hd
  | cons e rest =>
    simp only [evalItems, reachItems]
    refine Timed.Limited.bind ((Expr.evalWithin_limited limit e (d + 1)).iff (by omega)) ?_
    intro _ _ hd
    exact (evalItems_limited limit rest d hd).last _
termination_by structural items

theorem evalEntries_limited (limit : Nat) (entries : List (String × Expr)) (d : Nat)
    (hd : d ≤ limit) :
    (evalEntries (some limit) scope entries (d + 1)).Limited (evalEntries none scope entries 0)
      (d + reachEntries scope entries ≤ limit) := by
  cases entries with
  | nil => exact .refl _ hd
  | cons entry rest =>
    simp only [evalEntries, reachEntries]
    refine Timed.Limited.bind ((evalEntry_limited limit entry (d + 1)).iff (by omega)) ?_
    intro _ _ hd
    exact (evalEntries_limited limit rest d hd).last _
termination_by structural entries

theorem evalEntry_limited (limit : Nat) (entry : String × Expr) (d : Nat) :
    (evalEntry (some limit) scope entry d).Limited (evalEntry none scope entry 0)
      (d + reachEntry scope entry ≤ limit) := by
  cases entry with
  | mk key e =>
    simp only [evalEntry, reachEntry]
    exact (Expr.evalWithin_limited limit e d).last _
termination_by structural entry

end

end

theorem member_ne_tooDeep (target : Value) (name : String) :
    member target name ≠ .error .tooDeep := by
  cases target <;> simp [member]

theorem item_ne_tooDeep (target position : Value) : item target position ≠ .error .tooDeep := by
  cases target <;> simp [item]

theorem UnaryOp.apply_ne_tooDeep (op : UnaryOp) (v : Value) : op.apply v ≠ .error .tooDeep := by
  cases op with
  | not => simp [UnaryOp.apply]
  | negate => cases h : v.toBinary64? <;> simp [UnaryOp.apply, h]

theorem operands_ne_tooDeep (op : BinaryOp) (left right : Value) :
    operands op left right ≠ .error .tooDeep := by
  unfold operands
  split <;> simp

theorem arithmetic_ne_tooDeep (op : BinaryOp) (compute : Binary64 → Binary64 → Option Binary64)
    (left right : Value) : arithmetic op compute left right ≠ .error .tooDeep := by
  unfold arithmetic
  cases h : operands op left right with
  | error e =>
    rintro ⟨rfl⟩
    exact operands_ne_tooDeep op left right h
  | ok pair => cases hc : compute pair.1 pair.2 <;> simp [Except.bind, hc]

theorem comparison_ne_tooDeep (op : BinaryOp) (holds : Ordering → Bool) (left right : Value) :
    comparison op holds left right ≠ .error .tooDeep := by
  have ho : order op left right ≠ .error .tooDeep := by
    unfold order
    split
    · simp
    · cases h : operands op left right with
      | error e =>
        rintro ⟨rfl⟩
        exact operands_ne_tooDeep op left right h
      | ok pair => simp [Except.map]
  unfold comparison
  cases h : order op left right with
  | error e =>
    rintro ⟨rfl⟩
    exact ho h
  | ok o => simp [Except.map]

theorem BinaryOp.apply_ne_tooDeep (op : BinaryOp) (left right : Value) :
    op.apply left right ≠ .error .tooDeep := by
  unfold BinaryOp.apply
  split
  · split
    · simp
    · exact arithmetic_ne_tooDeep _ _ _ _
  all_goals first
    | exact arithmetic_ne_tooDeep _ _ _ _
    | exact comparison_ne_tooDeep _ _ _ _
    | simp

theorem delay_ne_tooDeep (arguments : List Value) :
    (delay arguments).outcome ≠ .error .tooDeep := by
  unfold delay
  split
  · rename_i ms
    cases h : wait? ms <;> simp [Timed.fail, Timed.after]
  · rename_i ms v
    cases h : wait? ms <;> simp [Timed.fail, Timed.after]
  · simp [Timed.fail]

theorem unaryFunction_ne_tooDeep (name : String) {f : Value → Except RuntimeError Value}
    (hf : ∀ v, f v ≠ .error .tooDeep) (arguments : List Value) :
    (unaryFunction name f arguments).outcome ≠ .error .tooDeep := by
  unfold unaryFunction
  split
  · exact hf _
  · simp [Timed.fail]

theorem call_ne_tooDeep (function : String) (arguments : List Value) :
    (call function arguments).outcome ≠ .error .tooDeep := by
  unfold call
  split
  · exact delay_ne_tooDeep arguments
  · split
    · exact unaryFunction_ne_tooDeep _ (fun v => by cases v <;> simp [length]) arguments
    · split
      · exact unaryFunction_ne_tooDeep _ (fun v => by cases v <;> simp [keys]) arguments
      · split
        · exact unaryFunction_ne_tooDeep _ (by simp) arguments
        · split
          · exact unaryFunction_ne_tooDeep _ (by simp) arguments
          · simp [Timed.fail]

theorem Timed.bind_ne_tooDeep {x : Timed RuntimeError α} {f : α → Timed RuntimeError β}
    (hx : x.outcome ≠ .error .tooDeep) (hf : ∀ a, (f a).outcome ≠ .error .tooDeep) :
    (x >>= f).outcome ≠ .error .tooDeep := by
  rw [bind_eq, bind_outcome]
  cases ho : x.outcome with
  | error e =>
    rintro ⟨rfl⟩
    exact hx ho
  | ok a => exact hf a

section
variable (scope : Bindings Value)

mutual

/-- No operator and no function fails for its depth: only the limit does. -/
theorem Expr.evalWithin_ne_tooDeep (e : Expr) (d : Nat) :
    (e.evalWithin none scope d).outcome ≠ .error .tooDeep := by
  cases e with
  | literal v => simp [Expr.evalWithin, beyond_none, Timed.ok]
  | name n =>
    cases h : Bindings.get? n scope <;>
      simp [Expr.evalWithin, beyond_none, h, Timed.ok, Timed.fail]
  | array items =>
    exact Timed.bind_ne_tooDeep (evalItems_ne_tooDeep items _) (by simp [Timed.pure_eq, Timed.ok])
  | object entries =>
    exact Timed.bind_ne_tooDeep (evalEntries_ne_tooDeep entries _)
      (by simp [Timed.pure_eq, Timed.ok])
  | member target name =>
    exact Timed.bind_ne_tooDeep (Expr.evalWithin_ne_tooDeep target _)
      fun v => member_ne_tooDeep v name
  | index target position =>
    exact Timed.bind_ne_tooDeep (Expr.evalWithin_ne_tooDeep target _) fun v =>
      Timed.bind_ne_tooDeep (Expr.evalWithin_ne_tooDeep position _) fun p =>
        item_ne_tooDeep v p
  | unary op operand =>
    exact Timed.bind_ne_tooDeep (Expr.evalWithin_ne_tooDeep operand _) fun v =>
      op.apply_ne_tooDeep v
  | binary op left right =>
    refine Timed.bind_ne_tooDeep (Expr.evalWithin_ne_tooDeep left _) fun l => ?_
    split
    · simp [Timed.pure_eq, Timed.ok]
    · exact Timed.bind_ne_tooDeep (Expr.evalWithin_ne_tooDeep right _) fun r =>
        op.apply_ne_tooDeep l r
  | call function arguments =>
    exact Timed.bind_ne_tooDeep (evalItems_ne_tooDeep arguments _)
      fun values => call_ne_tooDeep function values
termination_by structural e

theorem evalItems_ne_tooDeep (items : List Expr) (d : Nat) :
    (evalItems none scope items d).outcome ≠ .error .tooDeep := by
  cases items with
  | nil => simp [evalItems, Timed.pure_eq, Timed.ok]
  | cons e rest =>
    exact Timed.bind_ne_tooDeep (Expr.evalWithin_ne_tooDeep e d) fun _ =>
      Timed.bind_ne_tooDeep (evalItems_ne_tooDeep rest d) (by simp [Timed.pure_eq, Timed.ok])
termination_by structural items

theorem evalEntries_ne_tooDeep (entries : List (String × Expr)) (d : Nat) :
    (evalEntries none scope entries d).outcome ≠ .error .tooDeep := by
  cases entries with
  | nil => simp [evalEntries, Timed.pure_eq, Timed.ok]
  | cons entry rest =>
    exact Timed.bind_ne_tooDeep (evalEntry_ne_tooDeep entry d) fun _ =>
      Timed.bind_ne_tooDeep (evalEntries_ne_tooDeep rest d) (by simp [Timed.pure_eq, Timed.ok])
termination_by structural entries

theorem evalEntry_ne_tooDeep (entry : String × Expr) (d : Nat) :
    (evalEntry none scope entry d).outcome ≠ .error .tooDeep := by
  cases entry with
  | mk key e =>
    exact Timed.bind_ne_tooDeep (Expr.evalWithin_ne_tooDeep e d) (by simp [Timed.pure_eq, Timed.ok])
termination_by structural entry

end

/-- An evaluation fails for its depth exactly if it reaches beyond the limit. -/
theorem Expr.evalWithin_tooDeep_iff (limit : Nat) (e : Expr) :
    (e.evalWithin (some limit) scope 0).outcome = .error .tooDeep ↔ limit < e.reach scope := by
  have h := Expr.evalWithin_limited scope limit e 0
  constructor
  · intro ho
    refine Nat.lt_of_not_le fun hle => ?_
    rw [h.same (by omega)] at ho
    exact Expr.evalWithin_ne_tooDeep scope e 0 ho
  · intro hlt
    exact h.exceeded (by omega)

end

mutual

def Expr.height : Expr → Nat
  | .literal _ => 0
  | .name _ => 0
  | .array items => itemsHeight items
  | .object entries => entriesHeight entries
  | .member target _ => target.height + 1
  | .index target position => max target.height position.height + 1
  | .unary _ operand => operand.height + 1
  | .binary _ left right => max left.height right.height + 1
  | .call _ arguments => itemsHeight arguments
termination_by structural e => e

def itemsHeight : List Expr → Nat
  | [] => 0
  | e :: rest => max (e.height + 1) (itemsHeight rest)
termination_by structural items => items

def entriesHeight : List (String × Expr) → Nat
  | [] => 0
  | entry :: rest => max (entryHeight entry + 1) (entriesHeight rest)
termination_by structural entries => entries

def entryHeight : String × Expr → Nat
  | (_, e) => e.height
termination_by structural entry => entry

end

theorem Timed.behind_le (x : Timed ε α) {f : α → Nat} {n : Nat} (h : ∀ a, f a ≤ n) :
    x.behind f ≤ n := by
  unfold behind
  split
  · exact h _
  · exact Nat.zero_le n

section
variable (scope : Bindings Value)

mutual

theorem Expr.reach_le_height (e : Expr) : e.reach scope ≤ e.height := by
  cases e with
  | literal v => exact Nat.le_refl 0
  | name n => exact Nat.le_refl 0
  | array items => exact reachItems_le_height items
  | object entries => exact reachEntries_le_height entries
  | member target name => exact Nat.succ_le_succ (Expr.reach_le_height target)
  | index target position =>
    have ht := Expr.reach_le_height target
    have hp := Expr.reach_le_height position
    refine Nat.max_le.2 ⟨?_, Timed.behind_le _ fun _ => ?_⟩ <;> simp only [Expr.height] <;> omega
  | unary op operand => exact Nat.succ_le_succ (Expr.reach_le_height operand)
  | binary op left right =>
    have hl := Expr.reach_le_height left
    have hr := Expr.reach_le_height right
    refine Nat.max_le.2 ⟨?_, Timed.behind_le _ fun _ => ?_⟩
    · simp only [Expr.height]
      omega
    · simp only [Expr.height]
      split <;> omega
  | call function arguments => exact reachItems_le_height arguments
termination_by structural e

theorem reachItems_le_height (items : List Expr) : reachItems scope items ≤ itemsHeight items := by
  cases items with
  | nil => exact Nat.le_refl 0
  | cons e rest =>
    have he := Expr.reach_le_height e
    have hr := reachItems_le_height rest
    refine Nat.max_le.2 ⟨?_, Timed.behind_le _ fun _ => ?_⟩ <;> simp only [itemsHeight] <;> omega
termination_by structural items

theorem reachEntries_le_height (entries : List (String × Expr)) :
    reachEntries scope entries ≤ entriesHeight entries := by
  cases entries with
  | nil => exact Nat.le_refl 0
  | cons entry rest =>
    have he := reachEntry_le_height entry
    have hr := reachEntries_le_height rest
    refine Nat.max_le.2 ⟨?_, Timed.behind_le _ fun _ => ?_⟩ <;> simp only [entriesHeight] <;> omega
termination_by structural entries

theorem reachEntry_le_height (entry : String × Expr) :
    reachEntry scope entry ≤ entryHeight entry := by
  cases entry with
  | mk key e => exact Expr.reach_le_height e
termination_by structural entry

end

end

def Statement.height : Statement → Nat
  | .empty => 0
  | .expr e => e.height
  | .assign _ e _ => e.height

def Statement.reach (scope : Bindings Value) : Statement → Nat
  | .empty => 0
  | .expr e => e.reach scope
  | .assign _ e _ => e.reach scope

theorem Statement.reach_le_height (scope : Bindings Value) (s : Statement) :
    s.reach scope ≤ s.height := by
  cases s with
  | empty => exact Nat.le_refl 0
  | expr e => exact e.reach_le_height scope
  | assign name e declare => exact e.reach_le_height scope

theorem Statement.run_tooDeep_iff (scope : Bindings Value) (s : Statement) :
    (s.run scope).outcome = .error .tooDeep ↔ maxDepth < s.reach scope := by
  have hsome : ∀ e : Expr, ((e.eval scope).bind fun v => .ok (some v)).outcome = .error .tooDeep ↔
      (e.eval scope).outcome = .error .tooDeep := by
    intro e
    rw [Timed.bind_outcome]
    cases (e.eval scope).outcome <;> simp [Except.bind, Timed.ok]
  cases s with
  | empty => simp [Statement.run, Statement.reach, Timed.pure_eq, Timed.ok]
  | expr e => exact (hsome e).trans (e.evalWithin_tooDeep_iff scope maxDepth)
  | assign name e declare => exact (hsome e).trans (e.evalWithin_tooDeep_iff scope maxDepth)

end PromptLoop.Script
