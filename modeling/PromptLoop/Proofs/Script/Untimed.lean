import PromptLoop.Proofs.Script.DepthLimit
import PromptLoop.Proofs.Script.Grammar
import PromptLoop.Script.Evaluator

set_option autoImplicit false

/-!
# Expressions without their waiting times

`untimed` puts zero in the place of every number that is the whole first argument of a `delay`. A
tree comes to the same with it, sooner (`evalWithin_untimed`), as long as its numbers can be waited
for; and all numbers that a text writes can, for a sign in front of one is an operator
(`waitable_of_parse`).
-/
namespace PromptLoop.Script

def withoutTime : List Expr → List Expr
  | .literal (.number _) :: rest => .literal (.ofInt 0) :: rest
  | arguments => arguments

mutual

def Expr.untimed : Expr → Expr
  | .literal v => .literal v
  | .name n => .name n
  | .array items => .array (untimedItems items)
  | .object entries => .object (untimedEntries entries)
  | .member target name => .member target.untimed name
  | .index target position => .index target.untimed position.untimed
  | .unary op operand => .unary op operand.untimed
  | .binary op left right => .binary op left.untimed right.untimed
  | .call function arguments =>
    if function = "delay" then .call function (withoutTime (untimedItems arguments))
    else .call function (untimedItems arguments)
termination_by structural e => e

def untimedItems : List Expr → List Expr
  | [] => []
  | e :: rest => e.untimed :: untimedItems rest
termination_by structural items => items

def untimedEntries : List (String × Expr) → List (String × Expr)
  | [] => []
  | entry :: rest => untimedEntry entry :: untimedEntries rest
termination_by structural entries => entries

def untimedEntry : String × Expr → String × Expr
  | (key, e) => (key, e.untimed)
termination_by structural entry => entry

end

def Statement.untimed : Statement → Statement
  | .empty => .empty
  | .expr e => .expr e.untimed
  | .assign name value declare => .assign name value.untimed declare

/-- A number that may be the time of a `delay`; other values do not matter. -/
def Waitable (v : Value) : Prop :=
  ∀ n, v = .number n → wait? v ≠ none

mutual

def Expr.Waitable : Expr → Prop
  | .literal v => Script.Waitable v
  | .name _ => True
  | .array items => WaitableItems items
  | .object entries => WaitableEntries entries
  | .member target _ => target.Waitable
  | .index target position => target.Waitable ∧ position.Waitable
  | .unary _ operand => operand.Waitable
  | .binary _ left right => left.Waitable ∧ right.Waitable
  | .call _ arguments => WaitableItems arguments
termination_by structural e => e

def WaitableItems : List Expr → Prop
  | [] => True
  | e :: rest => e.Waitable ∧ WaitableItems rest
termination_by structural items => items

def WaitableEntries : List (String × Expr) → Prop
  | [] => True
  | entry :: rest => WaitableEntry entry ∧ WaitableEntries rest
termination_by structural entries => entries

def WaitableEntry : String × Expr → Prop
  | (_, e) => e.Waitable
termination_by structural entry => entry

end

def Statement.Waitable : Statement → Prop
  | .empty => True
  | .expr e => e.Waitable
  | .assign _ value _ => value.Waitable

theorem Timed.bind_outcome_congr {ε α β : Type} {x y : Timed ε α} {f g : α → Timed ε β}
    (h : x.outcome = y.outcome) (hf : ∀ a, (f a).outcome = (g a).outcome) :
    (x.bind f).outcome = (y.bind g).outcome := by
  rw [bind_outcome, bind_outcome, h]
  exact congrArg _ (funext hf)

theorem delay_outcome {v v' : Value} (h : wait? v ≠ none) (h' : wait? v' ≠ none)
    (rest : List Value) : (delay (v :: rest)).outcome = (delay (v' :: rest)).outcome := by
  obtain ⟨n, hn⟩ := Option.ne_none_iff_exists'.1 h
  obtain ⟨n', hn'⟩ := Option.ne_none_iff_exists'.1 h'
  cases rest with
  | nil =>
    simp only [delay, hn, hn']
    rfl
  | cons w rest =>
    cases rest with
    | nil =>
      simp only [delay, hn, hn']
      rfl
    | cons _ _ => rfl

theorem wait?_zero : wait? (.ofInt 0) ≠ none := by
  decide

section Evaluation
variable (limit : Option Nat) (scope : Bindings Value)

theorem eq_literal_of_untimed {e : Expr} {v : Value} (h : e.untimed = .literal v) :
    e = .literal v := by
  cases e with
  | literal w => exact h
  | call function arguments =>
    unfold Expr.untimed at h
    split at h <;> cases h
  | _ => cases h

theorem time_waitable {arguments : List Expr} (h : WaitableItems arguments) (n : Number)
    (rest : List Expr) (heq : untimedItems arguments = .literal (.number n) :: rest) :
    wait? (.number n) ≠ none := by
  cases arguments with
  | nil => cases heq
  | cons e arguments =>
    obtain ⟨he, -⟩ := List.cons.inj heq
    obtain rfl := eq_literal_of_untimed he
    exact h.1 n rfl

/-- Without its time a `delay` has the same outcome. -/
theorem delay_withoutTime {arguments : List Expr}
    (h : ∀ n rest, arguments = .literal (.number n) :: rest → wait? (.number n) ≠ none)
    (depth : Nat) :
    ((evalItems limit scope (withoutTime arguments) depth).bind delay).outcome =
      ((evalItems limit scope arguments depth).bind delay).outcome := by
  unfold withoutTime
  split
  · rename_i n rest
    have hn : wait? (.number n) ≠ none := h n rest rfl
    simp only [evalItems, Expr.evalWithin, Timed.bind_eq, Timed.pure_eq]
    split
    · rfl
    · simp only [Timed.bind_ok, Timed.bind_assoc]
      exact Timed.bind_outcome_congr rfl fun values => delay_outcome wait?_zero hn values
  · rfl

mutual

theorem Expr.evalWithin_untimed (e : Expr) (h : e.Waitable) (depth : Nat) :
    (e.untimed.evalWithin limit scope depth).outcome =
      (e.evalWithin limit scope depth).outcome := by
  cases e with
  | literal v => rfl
  | name n => rfl
  | array items =>
    simp only [Expr.untimed, Expr.evalWithin, Timed.bind_eq]
    split
    · rfl
    · exact Timed.bind_outcome_congr (evalItems_untimed items h (depth + 1)) fun _ => rfl
  | object entries =>
    simp only [Expr.untimed, Expr.evalWithin, Timed.bind_eq]
    split
    · rfl
    · exact Timed.bind_outcome_congr (evalEntries_untimed entries h (depth + 1)) fun _ => rfl
  | member target name =>
    simp only [Expr.untimed, Expr.evalWithin, Timed.bind_eq]
    split
    · rfl
    · exact Timed.bind_outcome_congr (Expr.evalWithin_untimed target h (depth + 1)) fun _ => rfl
  | index target position =>
    simp only [Expr.untimed, Expr.evalWithin, Timed.bind_eq]
    split
    · rfl
    · refine Timed.bind_outcome_congr (Expr.evalWithin_untimed target h.1 (depth + 1)) fun _ => ?_
      exact Timed.bind_outcome_congr (Expr.evalWithin_untimed position h.2 (depth + 1))
        fun _ => rfl
  | unary op operand =>
    simp only [Expr.untimed, Expr.evalWithin, Timed.bind_eq]
    split
    · rfl
    · exact Timed.bind_outcome_congr (Expr.evalWithin_untimed operand h (depth + 1)) fun _ => rfl
  | binary op left right =>
    simp only [Expr.untimed, Expr.evalWithin, Timed.bind_eq]
    split
    · rfl
    · refine Timed.bind_outcome_congr (Expr.evalWithin_untimed left h.1 (depth + 1)) fun l => ?_
      split
      · rfl
      · exact Timed.bind_outcome_congr (Expr.evalWithin_untimed right h.2 (depth + 1)) fun _ => rfl
  | call function arguments =>
    have harguments := evalItems_untimed arguments h (depth + 1)
    unfold Expr.untimed
    split
    · rename_i hdelay
      subst hdelay
      have hcall : call "delay" = delay := by
        funext values
        exact if_pos rfl
      have htime := delay_withoutTime limit scope (time_waitable h) (depth + 1)
      simp only [Expr.evalWithin, Timed.bind_eq, hcall]
      split
      · rfl
      · rw [htime]
        exact Timed.bind_outcome_congr harguments fun _ => rfl
    · simp only [Expr.evalWithin, Timed.bind_eq]
      split
      · rfl
      · exact Timed.bind_outcome_congr harguments fun _ => rfl
termination_by structural e

theorem evalItems_untimed (items : List Expr) (h : WaitableItems items) (depth : Nat) :
    (evalItems limit scope (untimedItems items) depth).outcome =
      (evalItems limit scope items depth).outcome := by
  cases items with
  | nil => rfl
  | cons e rest =>
    simp only [untimedItems, evalItems, Timed.bind_eq]
    refine Timed.bind_outcome_congr (Expr.evalWithin_untimed e h.1 depth) fun _ => ?_
    exact Timed.bind_outcome_congr (evalItems_untimed rest h.2 depth) fun _ => rfl
termination_by structural items

theorem evalEntries_untimed (entries : List (String × Expr)) (h : WaitableEntries entries)
    (depth : Nat) :
    (evalEntries limit scope (untimedEntries entries) depth).outcome =
      (evalEntries limit scope entries depth).outcome := by
  cases entries with
  | nil => rfl
  | cons entry rest =>
    simp only [untimedEntries, evalEntries, Timed.bind_eq]
    refine Timed.bind_outcome_congr (evalEntry_untimed entry h.1 depth) fun _ => ?_
    exact Timed.bind_outcome_congr (evalEntries_untimed rest h.2 depth) fun _ => rfl
termination_by structural entries

theorem evalEntry_untimed (entry : String × Expr) (h : WaitableEntry entry) (depth : Nat) :
    (evalEntry limit scope (untimedEntry entry) depth).outcome =
      (evalEntry limit scope entry depth).outcome := by
  cases entry with
  | mk key e =>
    simp only [untimedEntry, evalEntry, Timed.bind_eq]
    exact Timed.bind_outcome_congr (Expr.evalWithin_untimed e h depth) fun _ => rfl
termination_by structural entry

end

end Evaluation

theorem Statement.run_untimed (scope : Bindings Value) (s : Statement) (h : s.Waitable) :
    (s.untimed.run scope).outcome = (s.run scope).outcome := by
  cases s with
  | empty => rfl
  | expr e =>
    exact Timed.bind_outcome_congr (Expr.evalWithin_untimed _ scope e h 0) fun _ => rfl
  | assign name value declare =>
    exact Timed.bind_outcome_congr (Expr.evalWithin_untimed _ scope value h 0) fun _ => rfl

theorem Statement.declaration?_untimed (s : Statement) :
    s.untimed.declaration? = s.declaration? := by
  cases s <;> rfl

def Token.Unsigned (t : Token) : Prop :=
  ∀ x, t = .number (some x) → x.negative = false

theorem Binary64.round_negative (negative : Bool) (num den : Nat) :
    (Binary64.round negative num den).negative = negative := by
  unfold Binary64.round
  split
  · rfl
  · dsimp only
    split <;> rfl

theorem Binary64.unsigned_ofDecimal? {digits : Nat} {exponent : Int} {x : Binary64}
    (h : Binary64.ofDecimal? digits exponent = some x) : x.negative = false := by
  unfold Binary64.ofDecimal? at h
  split at h
  · cases h
    rfl
  · split at h
    · cases h
    · split at h
      · cases h
        rfl
      · unfold Binary64.finite? at h
        split at h
        · cases h
          exact Binary64.round_negative _ _ _
        · cases h

theorem Binary64.truncate_nonneg {x : Binary64} (h : x.negative = false) : 0 ≤ x.truncate := by
  have hsigned : x.signed = x.significand := by
    unfold Binary64.signed
    rw [h]
    rfl
  unfold Binary64.truncate
  rw [hsigned, ← Int.natCast_mul]
  exact Int.tdiv_nonneg (Int.natCast_nonneg _) (Int.natCast_nonneg _)

theorem waitable_ofBinary64 {x : Binary64} (h : x.negative = false) :
    wait? (.number (.ofBinary64 x)) ≠ none := by
  have hsign : (Number.ofBinary64 x).toBinary64.negative = false := by
    unfold Number.ofBinary64
    split
    · simp only [Number.toBinary64, Binary64.ofInt, Binary64.round_negative,
        decide_eq_false_iff_not, Int.not_lt]
      exact Binary64.truncate_nonneg h
    · exact h
  simp [wait?, Value.toBinary64?, hsign]

theorem literal?_unsigned {text : List Char} {t : Token} (h : literal? text = some t) :
    t.Unsigned := by
  have hvalue (significand : Nat) (e : Int) :
      (Token.number (Binary64.ofDecimal? significand e)).Unsigned :=
    fun _ hx => Binary64.unsigned_ofDecimal? (Token.number.inj hx)
  unfold literal? at h
  dsimp only at h
  split at h
  case h_1 =>
    cases h
    exact hvalue _ _
  case h_2 => cases h
  case h_3 => cases h
  case h_4 => cases h
  all_goals
    cases h
    exact hvalue _ _

namespace Scanner
variable {s s' : Scanner} {c : Char} {t : Token} {tokens : List Token}

def Unsigned (s : Scanner) : Prop :=
  ∀ t ∈ s.reversed, t.Unsigned

theorem Unsigned.emit (h : s.Unsigned) (ht : t.Unsigned) : (s.emit t).Unsigned :=
  List.forall_mem_cons.2 ⟨ht, h⟩

theorem Unsigned.start (h : s.Unsigned) (hs : s.start c = .ok s') : s'.Unsigned := by
  unfold Scanner.start at hs
  split_ifs at hs
  case neg =>
    split at hs
    · cases hs
      exact h.emit nofun
    · cases hs
  all_goals
    cases hs
    exact h

theorem Unsigned.endNumeral {reversed : List Char} (h : s.Unsigned)
    (hs : s.endNumeral reversed = .ok s') : s'.Unsigned := by
  unfold Scanner.endNumeral at hs
  split at hs
  · rename_i hliteral
    cases hs
    exact h.emit (literal?_unsigned hliteral)
  · cases hs

theorem Unsigned.endSymbol {first : Char} (h : s.Unsigned) (hs : s.endSymbol first = .ok s') :
    s'.Unsigned := by
  unfold Scanner.endSymbol at hs
  split at hs
  · cases hs
    exact h.emit nofun
  · cases hs

theorem Unsigned.push (h : s.Unsigned) (hs : s.push c = .ok s') : s'.Unsigned := by
  unfold Scanner.push at hs
  split at hs
  · exact h.start hs
  · split at hs
    · cases hs
      exact h
    · exact (h.emit (by rintro x ⟨⟩)).start hs
  · split at hs
    · cases hs
      exact h
    · split at hs
      · cases hs
      · obtain ⟨next, hnext, hstart⟩ := exists_of_bind hs
        exact (h.endNumeral hnext).start hstart
  · split_ifs at hs
    · cases hs
      exact h.emit nofun
    · cases hs
      exact h
    · cases hs
      exact h
  · split at hs
    · cases hs
      exact h
    · cases hs
      exact h
  · split at hs
    · cases hs
      exact h
    · split at hs
      · cases hs
        exact h
      · cases hs
  · split at hs
    · cases hs
      exact h
    · exact (h.emit (by rintro x ⟨⟩)).start hs
  · cases hs
    split
    · exact h
    · exact h
  · split at hs
    · cases hs
      exact h.emit nofun
    · obtain ⟨next, hnext, hstart⟩ := exists_of_bind hs
      exact (h.endSymbol hnext).start hstart

theorem Unsigned.foldlM (text : List Char) (h : s.Unsigned)
    (hs : text.foldlM Scanner.push s = .ok s') : s'.Unsigned := by
  induction text generalizing s with
  | nil =>
    cases hs
    exact h
  | cons c rest ih =>
    obtain ⟨next, hpush, hrest⟩ := exists_of_foldlM_cons hs
    exact ih (h.push hpush) hrest

theorem Unsigned.finish (h : s.Unsigned) (hs : s.finish = .ok tokens) :
    ∀ t ∈ tokens, t.Unsigned := by
  have hend {x : Except Malformed Scanner} (hx : ∀ s₁, x = .ok s₁ → s₁.Unsigned)
      (hs : x.map (·.reversed.reverse) = .ok tokens) : ∀ t ∈ tokens, t.Unsigned := by
    cases x with
    | error cause => cases hs
    | ok s₁ =>
      cases hs
      exact fun t ht => hx s₁ rfl t (List.mem_reverse.1 ht)
  have hemit (t : Token) (ht : t.Unsigned) : ∀ u ∈ (s.emit t).reversed.reverse, u.Unsigned :=
    fun u hu => h.emit ht u (List.mem_reverse.1 hu)
  unfold Scanner.finish at hs
  split at hs
  · cases hs
    exact fun t ht => h t (List.mem_reverse.1 ht)
  · cases hs
    exact fun t ht => h t (List.mem_reverse.1 ht)
  · cases hs
    exact hemit _ nofun
  · exact hend (fun _ => h.endNumeral) hs
  · cases hs
  · cases hs
  · cases hs
  · cases hs
    exact hemit _ nofun
  · exact hend (fun _ => h.endSymbol) hs

end Scanner

theorem unsigned_of_scan {text : List Char} {tokens : List Token}
    (h : Token.scan text = .ok tokens) : ∀ t ∈ tokens, t.Unsigned := by
  obtain ⟨s, hfold, hfinish⟩ := exists_of_bind h
  have hempty : Scanner.Unsigned {} := fun t ht => absurd ht List.not_mem_nil
  exact (hempty.foldlM text hfold).finish hfinish

def Part.Waitable : Part → Prop
  | .operand _ e => e.Waitable
  | .items es => WaitableItems es
  | .entries members => WaitableEntries members

theorem waitable_literal {x : Option Binary64} (h : (Token.number x).Unsigned) :
    Script.Waitable (.ofBinary64? x) := by
  intro n hn
  cases x with
  | none => cases hn
  | some x =>
    cases hn
    exact waitable_ofBinary64 (h x rfl)

/-- A tree has no other numbers than its tokens. -/
theorem Derives.waitable {ts : List Token} {part : Part} (h : Derives ts part)
    (hts : ∀ t ∈ ts, t.Unsigned) : part.Waitable := by
  induction h with
  | tighter _ ih => exact ih hts
  | binary op _ _ ihl ihr =>
    obtain ⟨hfront, hback⟩ := List.forall_mem_append.1 hts
    exact ⟨ihl hfront, ihr (List.forall_mem_cons.1 hback).2⟩
  | unary op _ ih => exact ih (List.forall_mem_cons.1 hts).2
  | member name _ ih => exact ih (List.forall_mem_append.1 hts).1
  | index _ _ iht ihp =>
    obtain ⟨hfront, hback⟩ := List.forall_mem_append.1 hts
    have hinner := (List.forall_mem_append.1 (List.forall_mem_cons.1 hback).2).1
    exact ⟨iht hfront, ihp hinner⟩
  | number x => exact waitable_literal (hts _ List.mem_cons_self)
  | string s => exact nofun
  | truth => exact nofun
  | falsity => exact nofun
  | null => exact nofun
  | name hn => trivial
  | call hn _ ih =>
    have hinner := (List.forall_mem_cons.1 (List.forall_mem_cons.1 hts).2).2
    exact ih (List.forall_mem_append.1 hinner).1
  | group _ ih => exact ih (List.forall_mem_append.1 (List.forall_mem_cons.1 hts).2).1
  | array _ ih => exact ih (List.forall_mem_append.1 (List.forall_mem_cons.1 hts).2).1
  | object _ ih => exact ih (List.forall_mem_append.1 (List.forall_mem_cons.1 hts).2).1
  | noItems => trivial
  | lastItem _ ih => exact ⟨ih hts, trivial⟩
  | moreItems _ _ ih ihs =>
    obtain ⟨hfront, hback⟩ := List.forall_mem_append.1 hts
    exact ⟨ih hfront, ihs (List.forall_mem_cons.1 hback).2⟩
  | noEntries => trivial
  | lastEntry hk _ ih =>
    exact ⟨ih (List.forall_mem_cons.1 (List.forall_mem_cons.1 hts).2).2, trivial⟩
  | moreEntries hk _ _ ih ihs =>
    obtain ⟨hfront, hback⟩ :=
      List.forall_mem_append.1 (List.forall_mem_cons.1 (List.forall_mem_cons.1 hts).2).2
    exact ⟨ih hfront, ihs (List.forall_mem_cons.1 hback).2⟩

theorem DerivesStatement.waitable {ts : List Token} {s : Statement} (h : DerivesStatement ts s)
    (hts : ∀ t ∈ ts, t.Unsigned) : s.Waitable := by
  cases h with
  | empty => trivial
  | declaration hn h =>
    refine Derives.waitable h fun t ht => hts t ?_
    simp [ht]
  | assignment hn h =>
    refine Derives.waitable h fun t ht => hts t ?_
    simp [ht]
  | expression h => exact Derives.waitable h hts

/-- A sign in front of a number is an operator, so a unit has only numbers that can be waited
for. -/
theorem waitable_of_parse {text : List Char} {s : Statement} (h : Statement.parse text = .ok s) :
    s.Waitable := by
  unfold Statement.parse at h
  split at h
  · rename_i tokens hscan
    have hts := unsigned_of_scan hscan
    cases DerivesUnit.of_ofTokensWithin h with
    | bare h => exact h.waitable hts
    | semicolon h => exact h.waitable (List.forall_mem_append.1 hts).1
  · cases h

end PromptLoop.Script
