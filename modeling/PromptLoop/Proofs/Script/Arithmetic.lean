import PromptLoop.Proofs.Number.Format
import PromptLoop.Proofs.Script.Grammar
import PromptLoop.Script.Eval

set_option autoImplicit false

namespace PromptLoop.Script

/-- Numeric literals, parentheses and the operators of arithmetic, minus also as a sign. -/
def Token.isArithmetic : Token → Bool
  | .number _ => true
  | .symbol s =>
    [Symbol.openParen, .closeParen, .plus, .minus, .star, .slash, .percent].contains s
  | _ => false

def BinaryOp.IsArithmetic (op : BinaryOp) : Prop :=
  op ∈ [BinaryOp.add, .sub, .mul, .div, .rem]

theorem BinaryOp.isArithmetic_of_sign {op : BinaryOp}
    (h : (Token.symbol op.sign).isArithmetic = true) : op.IsArithmetic := by
  cases op <;> first | exact absurd h (by decide) | simp [IsArithmetic]

theorem BinaryOp.sign_ne_paren (op : BinaryOp) :
    op.sign ≠ .openParen ∧ op.sign ≠ .closeParen := by
  cases op <;> decide

inductive Arithmetic : Expr → Prop where
  | literal {x : Option Binary64} (hx : ∀ y, x = some y → y.Fits) :
      Arithmetic (.literal (.ofBinary64? x))
  | negate {e : Expr} (h : Arithmetic e) : Arithmetic (.unary .negate e)
  | binary {op : BinaryOp} {left right : Expr} (hop : op.IsArithmetic) (hl : Arithmetic left)
      (hr : Arithmetic right) : Arithmetic (.binary op left right)

/-- A literal beyond the largest number, with nothing but parentheses around it. -/
inductive Overflowing : List Token → Prop where
  | literal : Overflowing [.number none]
  | group {ts : List Token} (h : Overflowing ts) :
      Overflowing (.symbol .openParen :: (ts ++ [.symbol .closeParen]))

variable {ts : List Token}

theorem Overflowing.mem (h : Overflowing ts) {t : Token} (ht : t ∈ ts) :
    t ∈ [Token.number none, .symbol .openParen, .symbol .closeParen] := by
  induction h with
  | literal =>
    rw [List.mem_singleton.1 ht]
    exact List.mem_cons_self
  | group _ ih =>
    rcases List.mem_cons.1 ht with rfl | ht
    · simp
    · rcases List.mem_append.1 ht with ht | ht
      · exact ih ht
      · rw [List.mem_singleton.1 ht]
        simp

theorem not_overflowing_of_sign {s : Symbol} (hopen : s ≠ .openParen) (hclose : s ≠ .closeParen)
    (h : Token.symbol s ∈ ts) : ¬ Overflowing ts := by
  intro hts
  have hmem := hts.mem h
  simp [hopen, hclose] at hmem

theorem overflowing_group_iff :
    Overflowing (.symbol .openParen :: (ts ++ [.symbol .closeParen])) ↔ Overflowing ts := by
  constructor
  · generalize hgroup : Token.symbol .openParen :: (ts ++ [.symbol .closeParen]) = group
    intro h
    cases h with
    | literal => cases hgroup
    | group h => exact List.append_cancel_right (List.cons.inj hgroup).2 ▸ h
  · exact .group

def Part.IsArithmetic (ts : List Token) : Part → Prop
  | .operand _ e => Arithmetic e ∧ (e = .literal .null ↔ Overflowing ts)
  | _ => True

theorem isArithmetic_of_derives {part : Part} (h : Derives ts part)
    (ha : ∀ t ∈ ts, t.isArithmetic = true) (hw : ∀ t ∈ ts, t.Written) : part.IsArithmetic ts := by
  induction h with
  | tighter _ ih => exact ih ha hw
  | @binary front back left right op _ _ ihl ihr =>
    obtain ⟨hafront, haback⟩ := List.forall_mem_append.1 ha
    obtain ⟨hwfront, hwback⟩ := List.forall_mem_append.1 hw
    obtain ⟨hsign, haback⟩ := List.forall_mem_cons.1 haback
    have hleft := (ihl hafront hwfront).1
    have hright := (ihr haback (List.forall_mem_cons.1 hwback).2).1
    have hnot : ¬ Overflowing (front ++ .symbol op.sign :: back) :=
      not_overflowing_of_sign op.sign_ne_paren.1 op.sign_ne_paren.2 (by simp)
    exact ⟨.binary (BinaryOp.isArithmetic_of_sign hsign) hleft hright, by simp [hnot]⟩
  | @unary ts e op _ ih =>
    obtain ⟨hsign, ha⟩ := List.forall_mem_cons.1 ha
    obtain ⟨he, -⟩ := ih ha (List.forall_mem_cons.1 hw).2
    cases op with
    | not => cases hsign
    | negate =>
      have hnot : ¬ Overflowing (.symbol UnaryOp.negate.sign :: ts) :=
        not_overflowing_of_sign (by decide) (by decide) List.mem_cons_self
      exact ⟨.negate he, by simp [hnot]⟩
  | number x =>
    have hfits : ∀ y, x = some y → y.Fits := by
      rintro y rfl
      obtain ⟨digits, exponent, hvalue⟩ := hw _ List.mem_cons_self
      exact Binary64.fits_ofDecimal? hvalue.symm
    refine ⟨.literal hfits, ?_⟩
    cases x with
    | none => simp [Value.ofBinary64?, Overflowing.literal]
    | some y =>
      have hnot : ¬ Overflowing [.number (some y)] := by
        intro h
        cases h
      simp [Value.ofBinary64?, hnot]
  | group _ ih =>
    obtain ⟨-, ha⟩ := List.forall_mem_cons.1 ha
    obtain ⟨-, hw⟩ := List.forall_mem_cons.1 hw
    obtain ⟨he, hnull⟩ := ih (List.forall_mem_append.1 ha).1 (List.forall_mem_append.1 hw).1
    exact ⟨he, hnull.trans overflowing_group_iff.symm⟩
  | member => exact absurd (ha (.symbol .dot) (by simp)) (by decide)
  | index => exact absurd (ha (.symbol .openBracket) (by simp)) (by decide)
  | array => exact absurd (ha (.symbol .openBracket) (by simp)) (by decide)
  | object => exact absurd (ha (.symbol .openBrace) (by simp)) (by decide)
  | string | truth | falsity | null | name | call => cases ha _ List.mem_cons_self
  | noItems | lastItem | moreItems | noEntries | lastEntry | moreEntries => trivial

theorem statement_of_arithmetic {s : Statement} (h : DerivesUnit ts s)
    (ha : ∀ t ∈ ts, t.isArithmetic = true) (hw : ∀ t ∈ ts, t.Written) :
    (ts = [] ∧ s = .empty) ∨
      ∃ e, s = .expr e ∧ Arithmetic e ∧ (e = .literal .null ↔ Overflowing ts) := by
  cases h with
  | semicolon => exact absurd (ha (.symbol .semicolon) (by simp)) (by decide)
  | bare h =>
    cases h with
    | empty => exact .inl ⟨rfl, rfl⟩
    | declaration | assignment => cases ha _ List.mem_cons_self
    | expression h => exact .inr ⟨_, rfl, isArithmetic_of_derives h ha hw⟩

/-- If this is a value, it is a number of the format, or null where that is allowed. -/
def Numerical (null : Prop) (x : Except RuntimeError Value) : Prop :=
  ∀ v, x = .ok v → (∃ n : Number, n.Fits ∧ v = .number n) ∨ (null ∧ v = .null)

variable {null : Prop}

theorem numerical_error (cause : RuntimeError) : Numerical null (.error cause) :=
  fun _ h => nomatch h

theorem numerical_number {x : Binary64} (h : x.Fits) :
    Numerical null (.ok (.number (.ofBinary64 x))) := by
  rintro _ ⟨⟩
  exact .inl ⟨_, Number.fits_ofBinary64 h, rfl⟩

theorem Numerical.fits {v : Value} (h : Numerical null (.ok v)) {x : Binary64}
    (hx : v.toBinary64? = some x) : x.Fits := by
  rcases h v rfl with ⟨n, hn, rfl⟩ | ⟨-, rfl⟩
  · cases hx
    exact hn.toBinary64
  · cases hx

theorem Numerical.not_isString {v : Value} (h : Numerical null (.ok v)) : v.isString = false := by
  rcases h v rfl with ⟨n, -, rfl⟩ | ⟨-, rfl⟩ <;> rfl

theorem arithmetic_numerical {compute : Binary64 → Binary64 → Option Binary64}
    (hc : ∀ x y z, x.Fits → y.Fits → compute x y = some z → z.Fits) (op : BinaryOp)
    {null' : Prop} {l r : Value} (hl : Numerical null (.ok l)) (hr : Numerical null' (.ok r)) :
    Numerical False (arithmetic op compute l r) := by
  unfold arithmetic operands
  cases hx : l.toBinary64? with
  | none => exact numerical_error _
  | some x =>
    cases hy : r.toBinary64? with
    | none => exact numerical_error _
    | some y =>
      dsimp only [Except.bind]
      cases hz : compute x y with
      | none => exact numerical_error _
      | some z => exact numerical_number (hc x y z (hl.fits hx) (hr.fits hy) hz)

theorem BinaryOp.apply_numerical {op : BinaryOp} (hop : op.IsArithmetic) {null' : Prop}
    {l r : Value} (hl : Numerical null (.ok l)) (hr : Numerical null' (.ok r)) :
    Numerical False (op.apply l r) := by
  simp only [IsArithmetic, List.mem_cons, List.not_mem_nil, or_false] at hop
  rcases hop with rfl | rfl | rfl | rfl | rfl <;> unfold apply <;> dsimp only
  · have hstrings : ¬ (l.isString = true ∨ r.isString = true) := by
      simp [hl.not_isString, hr.not_isString]
    rw [if_neg hstrings]
    exact arithmetic_numerical (fun _ _ _ _ _ => Binary64.fits_add?) _ hl hr
  · exact arithmetic_numerical (fun _ _ _ _ _ => Binary64.fits_sub?) _ hl hr
  · exact arithmetic_numerical (fun _ _ _ _ _ => Binary64.fits_mul?) _ hl hr
  · exact arithmetic_numerical (fun _ _ _ _ _ => Binary64.fits_div?) _ hl hr
  · exact arithmetic_numerical (fun _ _ _ => Binary64.fits_rem?) _ hl hr

theorem negate_numerical {v : Value} (hv : Numerical null (.ok v)) :
    Numerical False (UnaryOp.negate.apply v) := by
  unfold UnaryOp.apply
  dsimp only
  split
  · rename_i hx
    exact numerical_number (hv.fits hx).neg
  · exact numerical_error _

theorem Numerical.mono {null' : Prop} {x : Except RuntimeError Value} (h : Numerical null x)
    (himp : null → null') : Numerical null' x :=
  fun v hv => (h v hv).imp_right (And.imp_left himp)

theorem Numerical.bind {null' : Prop} {x : Except RuntimeError Value}
    {k : Value → Except RuntimeError Value} (h : Numerical null x)
    (hk : ∀ v, Numerical null (.ok v) → Numerical null' (k v)) : Numerical null' (x.bind k) := by
  cases x with
  | error cause => exact numerical_error cause
  | ok v => exact hk v h

theorem Timed.ofExcept_bind {ε α β : Type} (x : Except ε α) (k : α → Except ε β) :
    (Timed.ofExcept x).bind (fun a => .ofExcept (k a)) = .ofExcept (x.bind k) := by
  cases x <;> rfl

/-- No part of an arithmetic tree waits, and only the literal beyond the largest number is null. -/
theorem Arithmetic.evalWithin_numerical {e : Expr} (h : Arithmetic e) (limit : Option Nat)
    (scope : Bindings Value) (depth : Nat) :
    ∃ x, e.evalWithin limit scope depth = .ofExcept x ∧ Numerical (e = .literal .null) x := by
  induction h generalizing depth with
  | @literal x hx =>
    unfold Expr.evalWithin
    split
    · exact ⟨_, rfl, numerical_error _⟩
    · refine ⟨_, rfl, ?_⟩
      cases x with
      | none =>
        rintro _ ⟨⟩
        exact .inr ⟨rfl, rfl⟩
      | some y => exact numerical_number (hx y rfl)
  | negate _ ih =>
    unfold Expr.evalWithin
    split
    · exact ⟨_, rfl, numerical_error _⟩
    · obtain ⟨x, heval, hx⟩ := ih (depth + 1)
      rw [heval]
      refine ⟨_, Timed.ofExcept_bind x _, hx.bind fun v hv => ?_⟩
      exact (negate_numerical hv).mono False.elim
  | @binary op left right hop _ _ ihl ihr =>
    unfold Expr.evalWithin
    split
    · exact ⟨_, rfl, numerical_error _⟩
    · obtain ⟨x, hleft, hx⟩ := ihl (depth + 1)
      obtain ⟨y, hright, hy⟩ := ihr (depth + 1)
      -- Both operands are always evaluated.
      have hstrict : op ≠ .and ∧ op ≠ .or := by
        constructor <;> rintro rfl <;> simp [BinaryOp.IsArithmetic] at hop
      simp only [hleft, hright, hstrict, false_and, or_self, if_false]
      have hinner (l : Value) :
          (Timed.ofExcept y).bind (fun r => Timed.ofExcept (op.apply l r)) =
            .ofExcept (y.bind (op.apply l)) := Timed.ofExcept_bind y _
      refine ⟨x.bind fun l => y.bind (op.apply l), ?_, hx.bind fun l hl => hy.bind fun r hr => ?_⟩
      · rw [← Timed.ofExcept_bind]
        simp only [← hinner]
        rfl
      · exact (BinaryOp.apply_numerical hop hl hr).mono False.elim

/-- The value of an arithmetic text is a number of the binary64 format unless it fails. It is null
only where the text is one literal beyond the largest number, in any number of parentheses. -/
theorem arithmetic_stays_in_numbers {text : List Char} {tokens : List Token} {s : Statement}
    (hscan : Token.scan text = .ok tokens) (ha : ∀ t ∈ tokens, t.isArithmetic = true)
    (hparse : Statement.parse text = .ok s) (scope : Bindings Value) :
    (tokens = [] ∧ s.run scope = .ok none) ∨
      (Overflowing tokens ∧ s.run scope = .ok (some .null)) ∨
      (¬ Overflowing tokens ∧
        ((∃ n : Number, n.Fits ∧ s.run scope = .ok (some (.number n))) ∨
          ∃ cause, s.run scope = .fail cause)) := by
  unfold Statement.parse at hparse
  rw [hscan] at hparse
  have hderives := DerivesUnit.of_ofTokensWithin hparse
  rcases statement_of_arithmetic hderives ha (written_of_scan hscan) with
    ⟨htokens, rfl⟩ | ⟨e, rfl, he, hnull⟩
  · exact .inl ⟨htokens, rfl⟩
  · right
    by_cases hover : Overflowing tokens
    · left
      rw [hnull.2 hover]
      exact ⟨hover, rfl⟩
    · right
      refine ⟨hover, ?_⟩
      obtain ⟨x, heval, hx⟩ := he.evalWithin_numerical (some maxDepth) scope 0
      have hrun : (Statement.expr e).run scope =
          (Timed.ofExcept x).bind fun v => .ofExcept (.ok (some v)) := by
        rw [← heval]
        rfl
      rw [hrun, Timed.ofExcept_bind]
      cases x with
      | error cause => exact .inr ⟨cause, rfl⟩
      | ok v =>
        rcases hx v rfl with ⟨n, hn, rfl⟩ | ⟨hliteral, -⟩
        · exact .inl ⟨n, hn, rfl⟩
        · exact absurd (hnull.1 hliteral) hover

theorem negated_sum_stays_in_numbers :
    let tokens : List Token := [.symbol .minus, .symbol .openParen,
      .number (Binary64.ofDecimal? 1 0), .symbol .plus, .number (Binary64.ofDecimal? 25 (-1)),
      .symbol .closeParen]
    let sum : Expr := .binary .add (.literal (.ofBinary64? (Binary64.ofDecimal? 1 0)))
      (.literal (.ofBinary64? (Binary64.ofDecimal? 25 (-1))))
    let s : Statement := .expr (.unary .negate sum)
    Token.scan "-(1 + 2.5)".toList = .ok tokens ∧ (∀ t ∈ tokens, t.isArithmetic = true) ∧
      Statement.parse "-(1 + 2.5)".toList = .ok s ∧ tokens ≠ [] ∧ ¬ Overflowing tokens ∧
      ∃ n : Number, n.Fits ∧ s.run [] = .ok (some (.number n)) := by
  intro tokens sum s
  have hscan : Token.scan "-(1 + 2.5)".toList = .ok tokens := by rfl
  have ha : ∀ t ∈ tokens, t.isArithmetic = true := by decide
  have hparse : Statement.parse "-(1 + 2.5)".toList = .ok s := by rfl
  have hne : tokens ≠ [] := by simp [tokens]
  have hsign : Token.symbol .minus ∈ tokens := List.mem_cons_self
  have hnot : ¬ Overflowing tokens := not_overflowing_of_sign (by decide) (by decide) hsign
  have hrun : ∃ v, s.run [] = .ok v := ⟨_, by rfl⟩
  refine ⟨hscan, ha, hparse, hne, hnot, ?_⟩
  rcases arithmetic_stays_in_numbers hscan ha hparse [] with ⟨h, -⟩ | ⟨h, -⟩ | ⟨-, h | ⟨_, h⟩⟩
  · exact absurd h hne
  · exact absurd h hnot
  · exact h
  · obtain ⟨v, hv⟩ := hrun
    rw [h] at hv
    cases hv

/-- A literal beyond the largest number is not refused, and comes out as null. -/
theorem overflowing_literal_is_null :
    Token.scan "1e999".toList = .ok [.number none] ∧
      (∀ t ∈ [Token.number none], t.isArithmetic = true) ∧
      ((Statement.parse "1e999".toList).toOption.map (·.run [])) = some (.ok (some .null)) :=
  ⟨by rfl, by decide, by rfl⟩

end PromptLoop.Script
