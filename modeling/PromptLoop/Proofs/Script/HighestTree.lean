import PromptLoop.Proofs.Script.NestingDepth
import PromptLoop.Proofs.Script.Reading

set_option autoImplicit false

namespace PromptLoop.Script

def memberTokens : Nat → List Token
  | 0 => []
  | n + 1 => .symbol .dot :: .word "a" :: memberTokens n

def chainTokens (symbol : Symbol) : Nat → List Token
  | 0 => []
  | n + 1 => .symbol symbol :: .string "" :: chainTokens symbol n

def spreadTokens (r : Nat) : List Token :=
  memberTokens r ++ (chainTokens .star r ++ (chainTokens .plus r ++ (chainTokens .less r ++
    (chainTokens .equal r ++ (chainTokens .both r ++ chainTokens .either r)))))

def primaryTokens : Nat → List Token
  | 0 => [.string ""]
  | r + 1 => .symbol .openBracket :: (primaryTokens r ++ (spreadTokens r ++
      [.symbol .closeBracket]))

def Bare (frames : List Frame) : Prop :=
  frames = [] ∨ ∃ rest, frames = .item .array [] :: rest

/-- An operand has been read, and ending the operators above `level` makes an expression of the
given height behind `frames`. -/
inductive Behind (purpose : Purpose) (frames : List Frame) (level height : Nat) :
    Fragment → Prop where
  | operand {x e : Expr} {steps : Nat} {inner : List Frame}
      (hreduce : ∀ target, target < level → reduce target x inner = (e, frames))
      (hall : reduceAll x inner = (e, frames)) (hheight : e.height = height) :
      Behind purpose frames level height (.inside purpose inner (.afterOperand x steps))

variable {limit r : Nat} {purpose : Purpose} {frames : List Frame} {f g : Fragment}
  {tokens : List Token}

theorem Bare.reduce (h : Bare frames) (target : Nat) (e : Expr) :
    reduce target e frames = (e, frames) := by
  rcases h with rfl | ⟨rest, rfl⟩ <;> rfl

theorem Bare.reduceAll (h : Bare frames) (e : Expr) : reduceAll e frames = (e, frames) := by
  rcases h with rfl | ⟨rest, rfl⟩ <;> rfl

theorem Bare.extendChain (h : Bare frames) {op : BinaryOp} {x e : Expr} {inner : List Frame}
    (hreduce : Script.reduce op.level x inner = (e, frames)) :
    extendChain op x inner = .chain e op 1 :: frames := by
  unfold Script.extendChain
  rw [hreduce]
  rcases h with rfl | ⟨rest, rfl⟩ <;> rfl

theorem Behind.weaken {level target height : Nat} (h : Behind purpose frames level height f)
    (ht : target ≤ level) : Behind purpose frames target height f := by
  cases h with
  | operand hreduce hall hheight =>
    exact .operand (fun target' h' => hreduce target' (Nat.lt_of_lt_of_le h' ht)) hall hheight

theorem reads_members (purpose : Purpose) (n : Nat) (e : Expr) (steps : Nat)
    (hd : depth frames + (steps + n) ≤ limit) :
    ∃ e', Reads limit (.inside purpose frames (.afterOperand e steps)) (memberTokens n)
        (.inside purpose frames (.afterOperand e' (steps + n))) ∧
      e'.height = e.height + n := by
  induction n generalizing e steps with
  | zero => exact ⟨e, .nil, rfl⟩
  | succ n ih =>
    obtain ⟨e', hreads, hheight⟩ := ih (.member e "a") (steps + 1) (by omega)
    have hdot : Fragment.push limit (.inside purpose frames (.afterOperand e steps))
        (.symbol .dot) = .ok (.inside purpose frames (.member e steps)) := by
      rw [push_inside (by simp)]
      exact if_pos (by simp only [Awaiting.levels]; omega)
    have hname : Fragment.push limit (.inside purpose frames (.member e steps)) (.word "a") =
        .ok (.inside purpose frames (.afterOperand (.member e "a") (steps + 1))) :=
      push_inside (by simp) _
    refine ⟨e', ?_, ?_⟩
    · rw [Nat.add_right_comm, Nat.add_assoc] at hreads
      exact .cons hdot (.cons hname hreads)
    · simp only [Expr.height] at hheight
      omega

theorem push_operator {op : BinaryOp} {symbol : Symbol} (hs : BinaryOp.ofSymbol? symbol = some op)
    {x e : Expr} {steps length : Nat} {inner : List Frame}
    (hchain : extendChain op x inner = .chain e op length :: frames)
    (hd : depth frames + length ≤ limit) :
    Fragment.push limit (.inside purpose inner (.afterOperand x steps)) (.symbol symbol) =
      .ok (.inside purpose (.chain e op length :: frames) .operand) := by
  rw [push_inside (by simp)]
  have henter : Fragment.enter limit purpose (extendChain op x inner) .operand =
      .ok (.inside purpose (.chain e op length :: frames) .operand) := by
    rw [hchain]
    exact if_pos hd
  rw [← henter]
  cases symbol <;> cases hs <;> rfl

theorem push_leaf (frames : List Frame) :
    Fragment.push limit (.inside purpose frames .operand) (.string "") =
      .ok (.inside purpose frames (.afterOperand (.literal (.string "")) 0)) :=
  push_inside (by simp) _

theorem reads_chain (purpose : Purpose) {op : BinaryOp} {symbol : Symbol}
    (hs : BinaryOp.ofSymbol? symbol = some op) (n : Nat) (left : Expr) (length : Nat)
    (hd : depth frames + (length + n) ≤ limit) :
    ∃ left', Reads limit
        (.inside purpose (.chain left op length :: frames)
          (.afterOperand (.literal (.string "")) 0))
        (chainTokens symbol n)
        (.inside purpose (.chain left' op (length + n) :: frames)
          (.afterOperand (.literal (.string "")) 0)) ∧
      left'.height = left.height + n := by
  induction n generalizing left length with
  | zero => exact ⟨left, .nil, rfl⟩
  | succ n ih =>
    obtain ⟨left', hreads, hheight⟩ :=
      ih (.binary op left (.literal (.string ""))) (length + 1) (by omega)
    have hchain : extendChain op (.literal (.string "")) (.chain left op length :: frames) =
        .chain (.binary op left (.literal (.string ""))) op (length + 1) :: frames := by
      simp [extendChain, reduce]
    refine ⟨left', ?_, ?_⟩
    · rw [Nat.add_right_comm, Nat.add_assoc] at hreads
      exact .cons (push_operator hs hchain (by omega)) (.cons (push_leaf _) hreads)
    · simp only [Expr.height] at hheight
      omega

/-- A chain of `n` operators of the next level makes the tree higher by as many. -/
theorem Behind.chain {height : Nat} (op : BinaryOp) (symbol : Symbol)
    (hs : BinaryOp.ofSymbol? symbol = some op) (n : Nat) (hbare : Bare frames)
    (hd : depth frames + n ≤ limit) (h : Behind purpose frames (op.level + 1) height f) :
    ∃ g, Reads limit f (chainTokens symbol n) g ∧
      Behind purpose frames op.level (height + n) g := by
  cases n with
  | zero => exact ⟨f, .nil, h.weaken (Nat.le_succ _)⟩
  | succ n =>
    cases h with
    | @operand x e steps inner hreduce hall hheight =>
      have hfirst := hbare.extendChain (hreduce op.level (Nat.lt_succ_self _))
      have hrest : depth frames + (1 + n) ≤ limit := by omega
      obtain ⟨left, hreads, hleft⟩ := reads_chain purpose hs n e 1 hrest
      refine ⟨_, .cons (push_operator hs hfirst (by omega)) (.cons (push_leaf _) hreads),
        .operand (e := .binary op left (.literal (.string ""))) ?_ ?_ ?_⟩
      · intro target ht
        simp only [Script.reduce, if_pos ht]
        exact hbare.reduce target _
      · exact hbare.reduceAll _
      · simp only [Expr.height]
        omega

/-- All levels that are left are used seven times. -/
theorem reads_spread (purpose : Purpose) (hbare : Bare frames) (hd : depth frames + r ≤ limit)
    (e : Expr) :
    ∃ g, Reads limit (.inside purpose frames (.afterOperand e 0)) (spreadTokens r) g ∧
      Behind purpose frames 0 (e.height + 7 * r) g := by
  have hsteps : depth frames + (0 + r) ≤ limit := by omega
  obtain ⟨e', hmembers, hheight⟩ := reads_members purpose r e 0 hsteps
  have hstart : Behind purpose frames 6 (e.height + r)
      (.inside purpose frames (.afterOperand e' (0 + r))) :=
    .operand (fun target _ => hbare.reduce target e') (hbare.reduceAll e') hheight
  obtain ⟨f₁, hread₁, h₁⟩ := hstart.chain .mul .star rfl r hbare hd
  obtain ⟨f₂, hread₂, h₂⟩ := h₁.chain .add .plus rfl r hbare hd
  obtain ⟨f₃, hread₃, h₃⟩ := h₂.chain .less .less rfl r hbare hd
  obtain ⟨f₄, hread₄, h₄⟩ := h₃.chain .equal .equal rfl r hbare hd
  obtain ⟨f₅, hread₅, h₅⟩ := h₄.chain .and .both rfl r hbare hd
  obtain ⟨f₆, hread₆, h₆⟩ := h₅.chain .or .either rfl r hbare hd
  refine ⟨f₆, hmembers.append (hread₁.append (hread₂.append (hread₃.append (hread₄.append
    (hread₅.append hread₆))))), ?_⟩
  have hsum : e.height + 7 * r = e.height + r + r + r + r + r + r + r := by omega
  rw [hsum]
  exact h₆

theorem push_closeBracket (limit : Nat) {height : Nat}
    (h : Behind purpose (.item .array [] :: frames) 0 height f) :
    ∃ e : Expr, Fragment.push limit f (.symbol .closeBracket) =
        .ok (.inside purpose frames (.afterOperand e 0)) ∧ e.height = height + 1 := by
  cases h with
  | @operand x e steps inner hreduce hall hheight =>
    refine ⟨.array [e], ?_, ?_⟩
    · rw [push_inside (by simp)]
      change Fragment.pushAfter limit purpose inner x steps (.symbol .closeBracket) = _
      simp [Fragment.pushAfter, BinaryOp.ofSymbol?, hall, ListKind.close, ListKind.build]
    · simp [Expr.height, itemsHeight, hheight]

theorem Reads.primary {h : Fragment} (r : Nat)
    (heq : ∀ t, t = .string "" ∨ t = .symbol .openBracket →
      Fragment.push limit f t = Fragment.push limit g t)
    (hreads : Reads limit g (primaryTokens r ++ tokens) h) :
    Reads limit f (primaryTokens r ++ tokens) h := by
  cases r with
  | zero => exact hreads.of_push_eq (heq _ (.inl rfl))
  | succ r => exact hreads.of_push_eq (heq _ (.inr rfl))

theorem push_first_item {t : Token} (ht : t = .string "" ∨ t = .symbol .openBracket)
    (hd : depth frames + 1 ≤ limit) :
    Fragment.push limit (.inside purpose frames (.item .array [])) t =
      Fragment.push limit (.inside purpose (.item .array [] :: frames) .operand) t := by
  rw [push_inside (by simp), push_inside (by simp)]
  have hne : t ≠ .symbol ListKind.array.close := by
    rcases ht with rfl | rfl <;> decide
  have henter : Fragment.enter limit purpose (.item .array [] :: frames) .operand =
      .ok (.inside purpose (.item .array [] :: frames) .operand) := if_pos hd
  simp only [Fragment.pushInside, if_neg hne, henter, Except.bind]

theorem reads_primary (purpose : Purpose) (r : Nat) (frames : List Frame)
    (hd : depth frames + r ≤ limit) :
    ∃ e, Reads limit (.inside purpose frames .operand) (primaryTokens r)
        (.inside purpose frames (.afterOperand e 0)) ∧
      e.height = primaryBound r := by
  induction r generalizing frames with
  | zero => exact ⟨_, .cons (push_leaf frames) .nil, rfl⟩
  | succ r ih =>
    have hinner : depth (.item .array [] :: frames) + r ≤ limit := by
      simp only [depth_cons, Frame.levels]
      omega
    obtain ⟨e, hprimary, hheight⟩ := ih (.item .array [] :: frames) hinner
    obtain ⟨g, hspread, hg⟩ := reads_spread purpose (.inr ⟨frames, rfl⟩) hinner e
    obtain ⟨list, hclose, hlist⟩ := push_closeBracket limit hg
    have hopen : Fragment.push limit (.inside purpose frames .operand) (.symbol .openBracket) =
        .ok (.inside purpose frames (.item .array [])) := push_inside (by simp) _
    have hitem := hprimary.append (hspread.append (.cons hclose .nil))
    have hlisted := hitem.primary r fun t ht => push_first_item ht (by omega)
    refine ⟨list, .cons hopen hlisted, ?_⟩
    simp only [primaryBound]
    omega

/-- For every limit some tokens make a statement as high as the bound. -/
theorem Statement.ofTokensWithin_height_attained (hl : 0 < limit) :
    ∃ tokens s, Statement.ofTokensWithin limit tokens = .ok s ∧
      s.height = levelBound 0 (limit - 1) := by
  have hd : depth [] + (limit - 1) ≤ limit := by
    simp only [depth, List.foldr_nil]
    omega
  obtain ⟨e, hprimary, hheight⟩ := reads_primary .result (limit - 1) [] hd
  obtain ⟨g, hspread, hg⟩ := reads_spread .result (.inl rfl) hd e
  have hreads := (hprimary.append hspread).primary (limit - 1) fun t ht => by
    have hfirst : (∀ w, t ≠ .word w) ∧ t ≠ .symbol .semicolon := by
      rcases ht with rfl | rfl <;> simp
    exact push_start hl hfirst.1 hfirst.2
  refine ⟨primaryTokens (limit - 1) ++ spreadTokens (limit - 1), ?_⟩
  cases hg with
  | @operand x e' steps inner hreduce hall hheight' =>
    refine ⟨.expr e', ?_, ?_⟩
    · rw [ofTokensWithin_eq_finish hreads]
      simp only [Fragment.finish, Fragment.finishAfter, hall, Purpose.build]
    · simp only [Statement.height, levelBound]
      omega

end PromptLoop.Script
