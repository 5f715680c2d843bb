import Mathlib.Data.List.Chain
import PromptLoop.Proofs.Script.DepthLimit

set_option autoImplicit false

namespace PromptLoop.Script

/-- The value of an expression however deep its tree is. -/
def Expr.evalUnlimited (scope : Bindings Value) (e : Expr) : Timed RuntimeError Value :=
  e.evalWithin none scope 0

def Expr.parts : Expr → List Expr
  | .literal _ => []
  | .name _ => []
  | .array items => items
  | .object entries => entries.map (·.2)
  | .member target _ => [target]
  | .index target position => [target, position]
  | .unary _ operand => [operand]
  | .binary _ left right => [left, right]
  | .call _ arguments => arguments

def Expr.HasPart (e part : Expr) : Prop :=
  part ∈ e.parts

def Succeeds (scope : Bindings Value) (e : Expr) : Prop :=
  ∃ v, (e.evalUnlimited scope).outcome = .ok v

/-- The first operand of `&&` or `||` is the result. -/
def Decides (scope : Bindings Value) : Expr → Prop
  | .binary op left _ => ∃ l, (left.evalUnlimited scope).outcome = .ok l ∧
      ((op = .and ∧ l.truthy = false) ∨ (op = .or ∧ l.truthy = true))
  | _ => False

/-- The evaluation of an expression without a limit evaluates the second one, a part of it. -/
def Evaluates (scope : Bindings Value) (e part : Expr) : Prop :=
  ∃ front back, e.parts = front ++ part :: back ∧ (∀ earlier ∈ front, Succeeds scope earlier) ∧
    (front ≠ [] → ¬ Decides scope e)

section
variable {scope : Bindings Value} {e part : Expr} {items front back : List Expr}

theorem reachItems_of_succeeds (h : Succeeds scope e) :
    reachItems scope (e :: items) = max (e.reach scope + 1) (reachItems scope items) := by
  obtain ⟨v, hv⟩ := h
  exact congrArg (max _) (Timed.behind_ok hv _)

theorem reach_lt_reachItems (hfront : ∀ earlier ∈ front, Succeeds scope earlier) :
    part.reach scope < reachItems scope (front ++ part :: back) := by
  induction front with
  | nil => exact Nat.le_max_left _ _
  | cons first rest ih =>
    rw [List.cons_append, reachItems_of_succeeds (hfront first List.mem_cons_self)]
    have hrest := ih fun earlier hm => hfront earlier (List.mem_cons_of_mem first hm)
    omega

theorem exists_of_reachItems (h : 0 < reachItems scope items) :
    ∃ front part back, items = front ++ part :: back ∧
      (∀ earlier ∈ front, Succeeds scope earlier) ∧
      reachItems scope items = part.reach scope + 1 := by
  induction items with
  | nil => exact absurd h (Nat.lt_irrefl 0)
  | cons e rest ih =>
    by_cases hdeeper : e.reach scope + 1 < reachItems scope (e :: rest)
    · -- Something behind the first item is deeper, so the first item succeeds.
      have hsucceeds : Succeeds scope e := by
        cases ho : (e.evalUnlimited scope).outcome with
        | ok v => exact ⟨v, ho⟩
        | error err =>
          have hnone : (e.evalWithin none scope 0).behind (fun _ => reachItems scope rest) = 0 :=
            Timed.behind_error ho _
          simp only [reachItems, hnone] at hdeeper
          omega
      rw [reachItems_of_succeeds hsucceeds] at hdeeper ⊢
      obtain ⟨front, part, back, rfl, hfront, hreach⟩ := ih (by omega)
      refine ⟨e :: front, part, back, rfl, ?_, by omega⟩
      exact List.forall_mem_cons.2 ⟨hsucceeds, hfront⟩
    · have hle : e.reach scope + 1 ≤ reachItems scope (e :: rest) := Nat.le_max_left _ _
      exact ⟨[], e, rest, rfl, by simp, by omega⟩

theorem reachEntries_eq (entries : List (String × Expr)) :
    reachEntries scope entries = reachItems scope (entries.map (·.2)) := by
  induction entries with
  | nil => rfl
  | cons entry rest ih =>
    obtain ⟨key, e⟩ := entry
    have hbehind : (evalEntry none scope (key, e) 0).behind (fun _ => reachEntries scope rest) =
        (e.evalWithin none scope 0).behind fun _ => reachEntries scope rest := by
      cases ho : (e.evalWithin none scope 0).outcome with
      | ok v =>
        simp [evalEntry, Timed.behind, Timed.bind_eq, Timed.bind, Timed.pure_eq, Timed.ok, ho]
      | error err => simp [evalEntry, Timed.behind, Timed.bind_eq, Timed.bind, ho]
    rw [reachEntries, hbehind, ih]
    rfl

theorem Timed.behind_zero {α : Type} (x : Timed RuntimeError α) : x.behind (fun _ => 0) = 0 := by
  unfold behind
  split <;> rfl

theorem reach_eq_reachItems (h : ¬ Decides scope e) :
    e.reach scope = reachItems scope e.parts := by
  cases e with
  | literal v => rfl
  | name n => rfl
  | array items => rfl
  | object entries => exact reachEntries_eq entries
  | member target name => simp [Expr.reach, Expr.parts, reachItems, Timed.behind_zero]
  | index target position => simp [Expr.reach, Expr.parts, reachItems, Timed.behind_zero]
  | unary op operand => simp [Expr.reach, Expr.parts, reachItems, Timed.behind_zero]
  | binary op left right =>
    cases ho : (left.evalWithin none scope 0).outcome with
    | error err =>
      simp only [Expr.reach, Expr.parts, reachItems, Timed.behind_error ho]
    | ok l =>
      have hopen : ¬ ((op = .and ∧ l.truthy = false) ∨ (op = .or ∧ l.truthy = true)) :=
        fun hdecided => h ⟨l, ho, hdecided⟩
      simp only [Expr.reach, Expr.parts, reachItems, Timed.behind_ok ho, if_neg hopen,
        Timed.behind_zero, Nat.max_zero]
  | call function arguments => rfl

theorem reach_of_decides (h : Decides scope e) :
    ∃ first rest, e.parts = first :: rest ∧ e.reach scope = first.reach scope + 1 := by
  cases e with
  | binary op left right =>
    obtain ⟨l, hl, hdecided⟩ := h
    refine ⟨left, [right], rfl, ?_⟩
    have hbehind := Timed.behind_ok hl fun l =>
      if (op = .and ∧ l.truthy = false) ∨ (op = .or ∧ l.truthy = true) then 0
      else right.reach scope + 1
    rw [if_pos hdecided] at hbehind
    exact (congrArg (max _) hbehind).trans (Nat.max_zero _)
  | _ => exact h.elim

theorem Evaluates.reach_lt (h : Evaluates scope e part) : part.reach scope < e.reach scope := by
  obtain ⟨front, back, hparts, hfront, hopen⟩ := h
  by_cases hdecides : Decides scope e
  · -- Only the first part is evaluated then.
    have hfirst : front = [] := by
      by_contra hne
      exact hopen hne hdecides
    subst hfirst
    obtain ⟨first, rest, hrest, hreach⟩ := reach_of_decides hdecides
    rw [hparts] at hrest
    cases hrest
    omega
  · rw [reach_eq_reachItems hdecides, hparts]
    exact reach_lt_reachItems hfront

theorem exists_evaluates (h : 0 < e.reach scope) :
    ∃ part, Evaluates scope e part ∧ e.reach scope = part.reach scope + 1 := by
  by_cases hdecides : Decides scope e
  · obtain ⟨first, rest, hparts, hreach⟩ := reach_of_decides hdecides
    exact ⟨first, ⟨[], rest, hparts, by simp, by simp⟩, hreach⟩
  · rw [reach_eq_reachItems hdecides] at h ⊢
    obtain ⟨front, part, back, hparts, hfront, hreach⟩ := exists_of_reachItems h
    exact ⟨part, ⟨front, back, hparts, hfront, fun _ => hdecides⟩, hreach⟩

theorem length_le_reach {path : List Expr} (h : List.IsChain (Evaluates scope) (e :: path)) :
    path.length ≤ e.reach scope := by
  induction path generalizing e with
  | nil => exact Nat.zero_le _
  | cons part rest ih =>
    obtain ⟨hpart, hrest⟩ := List.isChain_cons_cons.1 h
    have hlt := hpart.reach_lt
    have hle := ih hrest
    simp only [List.length_cons]
    omega

theorem exists_path (scope : Bindings Value) (e : Expr) :
    ∃ path, List.IsChain (Evaluates scope) (e :: path) ∧ path.length = e.reach scope := by
  generalize hn : e.reach scope = n
  induction n generalizing e with
  | zero => exact ⟨[], List.isChain_singleton e, rfl⟩
  | succ n ih =>
    have hpos : 0 < e.reach scope := by omega
    obtain ⟨part, hpart, hreach⟩ := exists_evaluates hpos
    obtain ⟨path, hpath, hlength⟩ := ih part (by omega)
    refine ⟨part :: path, List.isChain_cons_cons.2 ⟨hpart, hpath⟩, ?_⟩
    rw [List.length_cons, hlength]

/-- The evaluation with a limit is the one without, unless an expression that the latter evaluates
stands below more edges than the limit has. -/
theorem eval_refines_unlimited (scope : Bindings Value) (e : Expr) :
    (e.eval scope = e.evalUnlimited scope ∨ (e.eval scope).outcome = .error .tooDeep) ∧
      ((∀ path, List.IsChain Expr.HasPart (e :: path) →
        path.length ≤ maxDepth) → e.eval scope = e.evalUnlimited scope) ∧
      ((e.eval scope).outcome = .error .tooDeep ↔
        ∃ path, List.IsChain (Evaluates scope) (e :: path) ∧ maxDepth < path.length) := by
  have hlimited := Expr.evalWithin_limited scope maxDepth e 0
  rw [Nat.zero_add] at hlimited
  obtain ⟨path, hpath, hlength⟩ := exists_path scope e
  refine ⟨?_, ?_, ?_⟩
  · by_cases hle : e.reach scope ≤ maxDepth
    · exact .inl (hlimited.same hle)
    · exact .inr (hlimited.exceeded hle)
  · intro hall
    have htree : List.IsChain Expr.HasPart (e :: path) := by
      refine hpath.imp fun e part h => ?_
      obtain ⟨front, back, hparts, -, -⟩ := h
      rw [Expr.HasPart, hparts]
      exact List.mem_append_right front List.mem_cons_self
    apply hlimited.same
    rw [← hlength]
    exact hall path htree
  · rw [Expr.eval, Expr.evalWithin_tooDeep_iff]
    constructor
    · intro hlt
      exact ⟨path, hpath, by omega⟩
    · rintro ⟨longer, hlonger, hlt⟩
      exact Nat.lt_of_lt_of_le hlt (length_le_reach hlonger)

def negations : Nat → Expr
  | 0 => .literal .null
  | n + 1 => .unary .not (negations n)

theorem length_le_of_negations (n : Nat) {path : List Expr}
    (h : List.IsChain Expr.HasPart (negations n :: path)) : path.length ≤ n := by
  induction path generalizing n with
  | nil => exact Nat.zero_le n
  | cons part rest ih =>
    obtain ⟨hpart, hrest⟩ := List.isChain_cons_cons.1 h
    cases n with
    | zero => simp [Expr.HasPart, Expr.parts, negations] at hpart
    | succ n =>
      have heq : part = negations n := by
        simpa [Expr.HasPart, Expr.parts, negations] using hpart
      subst heq
      exact Nat.succ_le_succ (ih n hrest)

/-- As many edges as the limit has are not too many. -/
theorem negations_to_limit_evaluated :
    (∀ path, List.IsChain Expr.HasPart (negations 128 :: path) → path.length ≤ maxDepth) ∧
      (negations 128).eval [] = (negations 128).evalUnlimited [] := by
  have hall : ∀ path, List.IsChain Expr.HasPart (negations 128 :: path) →
      path.length ≤ maxDepth := fun path h => length_le_of_negations 128 h
  exact ⟨hall, (eval_refines_unlimited [] (negations 128)).2.1 hall⟩

end
end PromptLoop.Script
