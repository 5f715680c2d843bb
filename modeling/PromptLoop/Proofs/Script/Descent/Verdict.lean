import PromptLoop.Proofs.Script.Acceptance
import PromptLoop.Script.Descent

set_option autoImplicit false

namespace PromptLoop.Script
variable {limit n steps : Nat} {purpose : Purpose} {e x whole : Expr} {frame : Frame}
  {frames inner : List Frame} {awaiting : Awaiting} {t : Token} {ts : List Token} {f g : Fragment}
  {cause : Malformed}

/-- How tightly a token holds the operand in front of it. -/
def Token.grip? : Token → Option Nat
  | .symbol .dot => some 6
  | .symbol .openBracket => some 6
  | .symbol s => (BinaryOp.ofSymbol? s).map BinaryOp.level
  | _ => none

/-- No token comes next that belongs to an operand of the level. -/
def StopsAt (n : Nat) (ts : List Token) : Prop :=
  ∀ t l, ts.head? = some t → t.grip? = some l → l < n

theorem grip?_le {l : Nat} (h : t.grip? = some l) : l ≤ 6 := by
  unfold Token.grip? at h
  split at h
  · cases h
    exact Nat.le_refl 6
  · cases h
    exact Nat.le_refl 6
  · obtain ⟨op, -, rfl⟩ := Option.map_eq_some_iff.1 h
    exact Nat.le_of_lt op.level_lt
  · cases h

theorem stopsAt_seven (ts : List Token) : StopsAt 7 ts :=
  fun _ _ _ hl => Nat.lt_succ_of_le (grip?_le hl)

theorem Token.binaryOp?_eq_some {op : BinaryOp} (h : t.binaryOp? n = some op) :
    t = .symbol op.sign ∧ op.level = n := by
  unfold Token.binaryOp? at h
  split at h
  · obtain ⟨hop, hn⟩ := Option.filter_eq_some_iff.1 h
    rw [(BinaryOp.ofSymbol?_eq_some_iff _ _).1 hop]
    exact ⟨rfl, of_decide_eq_true hn⟩
  · cases h

theorem Token.unaryOp?_eq_some {op : UnaryOp} (h : t.unaryOp? = some op) : t = .symbol op.sign := by
  unfold Token.unaryOp? at h
  split at h <;> cases h <;> rfl

theorem StopsAt.of_no_operator (h : StopsAt (n + 1) ts) (hn : n < 6)
    (hop : ts.head?.bind (Token.binaryOp? n) = none) : StopsAt n ts := by
  intro t l ht hl
  refine Nat.lt_of_le_of_ne (Nat.le_of_lt_succ (h t l ht hl)) ?_
  rintro rfl
  rw [ht, Option.bind_some] at hop
  unfold Token.grip? at hl
  split at hl
  · cases hl
    exact absurd hn (by decide)
  · cases hl
    exact absurd hn (by decide)
  · obtain ⟨op, hsome, hlevel⟩ := Option.map_eq_some_iff.1 hl
    simp [Token.binaryOp?, hsome, Option.filter, hlevel] at hop
  · cases hl

theorem StopsAt.of_no_step (hdot : ts.head? ≠ some (.symbol .dot))
    (hbracket : ts.head? ≠ some (.symbol .openBracket)) : StopsAt 6 ts := by
  intro t l ht hl
  unfold Token.grip? at hl
  split at hl
  · exact absurd ht hdot
  · exact absurd ht hbracket
  · obtain ⟨op, -, rfl⟩ := Option.map_eq_some_iff.1 hl
    exact op.level_lt
  · cases hl

namespace Fragment

def verdict (limit : Nat) (f : Fragment) (ts : List Token) : Except SyntaxError Statement :=
  match ts.foldlM (push limit) f with
  | .ok g => g.finish limit
  | .error cause => .error (.malformed cause)

def verdictIn (limit : Nat) (purpose : Purpose) (frames : List Frame) (awaiting : Awaiting)
    (ts : List Token) : Except SyntaxError Statement :=
  if depth frames + awaiting.levels ≤ limit then (inside purpose frames awaiting).verdict limit ts
  else .error (.malformed .tooDeep)

theorem verdict_of_push (h : push limit f t = .ok g) (ts : List Token) :
    f.verdict limit (t :: ts) = g.verdict limit ts := by
  unfold verdict
  rw [List.foldlM_cons, h]
  rfl

theorem verdict_of_refused (h : push limit f t = .error cause) (ts : List Token) :
    f.verdict limit (t :: ts) = .error (.malformed cause) := by
  unfold verdict
  rw [List.foldlM_cons, h]
  rfl

theorem verdict_of_enter (h : push limit f t = enter limit purpose frames awaiting)
    (ts : List Token) : f.verdict limit (t :: ts) = verdictIn limit purpose frames awaiting ts := by
  unfold verdictIn
  unfold enter at h
  split at h
  · rename_i hd
    rw [if_pos hd]
    exact verdict_of_push h ts
  · rename_i hd
    rw [if_neg hd]
    exact verdict_of_refused h ts

theorem verdict_congr (h : push limit f t = push limit g t) (ts : List Token) :
    f.verdict limit (t :: ts) = g.verdict limit (t :: ts) := by
  unfold verdict
  rw [List.foldlM_cons, List.foldlM_cons, h]

theorem pushAfter_complete (hc : Complete n e frames x inner) (hn : n ≤ 6)
    (ht : ∀ l, t.grip? = some l → l < n) (taken : Nat) :
    pushAfter limit purpose inner x steps t = pushAfter limit purpose frames e taken t := by
  cases t with
  | symbol symbol =>
    cases hop : BinaryOp.ofSymbol? symbol with
    | some op =>
      have hgrip : (Token.symbol symbol).grip? = some op.level := by
        cases symbol <;> cases hop <;> rfl
      have hchain : extendChain op x inner = extendChain op e frames := by
        unfold extendChain
        rw [hc.reduce op.level (ht _ hgrip)]
      have hpush (frames : List Frame) (e : Expr) (steps : Nat) :
          pushAfter limit purpose frames e steps (.symbol symbol) =
            enter limit purpose (extendChain op e frames) .operand := by
        cases symbol <;> cases hop <;> rfl
      rw [hpush, hpush, hchain]
    | none =>
      have hdot : symbol ≠ .dot := by
        rintro rfl
        exact absurd (ht 6 rfl) (by omega)
      have hbracket : symbol ≠ .openBracket := by
        rintro rfl
        exact absurd (ht 6 rfl) (by omega)
      unfold pushAfter
      simp only [hop, hc.all]
  | _ => rfl

/-- Nothing tells an operand from what it is made of behind which it stops. -/
theorem verdict_complete (hc : Complete n e frames x inner) (hn : n ≤ 6) (hs : StopsAt n ts)
    (taken : Nat) :
    (inside purpose inner (.afterOperand x steps)).verdict limit ts =
      (inside purpose frames (.afterOperand e taken)).verdict limit ts := by
  cases ts with
  | nil =>
    change finishAfter purpose inner x = finishAfter purpose frames e
    simp only [finishAfter, hc.all]
  | cons t ts =>
    refine verdict_congr ?_ ts
    rw [push_inside (by simp), push_inside (by simp)]
    exact pushAfter_complete hc hn (hs t · rfl) taken

end Fragment

def Frame.closed? (e : Expr) : Frame → Option (Symbol × Expr × Nat)
  | .group => some (.closeParen, e, 0)
  | .item kind reversed => some (kind.close, kind.build (e :: reversed).reverse, 0)
  | .entry reversed key => some (.closeBrace, .object ((key, e) :: reversed).reverse, 0)
  | .position target steps => some (.closeBracket, .index target e, steps + 1)
  | .unary _ => none
  | .chain _ _ _ => none

def Frame.continued? (e : Expr) : Frame → Option Awaiting
  | .item kind reversed => some (.item kind (e :: reversed))
  | .entry reversed key => some (.key ((key, e) :: reversed))
  | _ => none

theorem push_comma (limit : Nat) (purpose : Purpose) (frames : List Frame)
    (h : frame.continued? e = some awaiting) :
    Fragment.push limit (.inside purpose (frame :: frames) (.afterOperand e 0)) (.symbol .comma) =
      .ok (.inside purpose frames awaiting) := by
  rw [push_inside (by simp)]
  cases frame <;> cases h <;> rfl

theorem push_behind (limit : Nat) (purpose : Purpose) (frames : List Frame) {symbol : Symbol}
    (hclosed : frame.closed? e = some (symbol, whole, steps)) (ht : t.grip? = none)
    (hcomma : t = .symbol .comma → frame.continued? e = none) :
    Fragment.push limit (.inside purpose (frame :: frames) (.afterOperand e 0)) t =
      if t = .symbol symbol then .ok (.inside purpose frames (.afterOperand whole steps))
      else .error (.unexpected t) := by
  rw [push_inside (by simp)]
  cases t with
  | symbol other =>
    cases frame with
    | item kind reversed =>
      cases hclosed
      cases kind <;> cases other <;>
        first
        | rfl
        | exact absurd ht (Option.some_ne_none _)
        | exact absurd (hcomma rfl) (Option.some_ne_none _)
    | unary op => cases hclosed
    | chain left op length => cases hclosed
    | _ =>
      cases hclosed
      cases other <;>
        first
        | rfl
        | exact absurd ht (Option.some_ne_none _)
        | exact absurd (hcomma rfl) (Option.some_ne_none _)
  | _ => cases frame <;> cases hclosed <;> rfl

theorem finish_behind (limit : Nat) (purpose : Purpose) (frames : List Frame) {symbol : Symbol}
    (hclosed : frame.closed? e = some (symbol, whole, steps)) :
    (Fragment.inside purpose (frame :: frames) (.afterOperand e 0)).finish limit =
      .error .unfinished := by
  cases frame <;> cases hclosed <;> rfl

/-- The operand `x` behind `inner` ends a chain of so many operators of a level, and `e` is all of
it. -/
inductive Chained (n : Nat) (frames : List Frame) : Nat → Expr → List Frame → Expr → Prop where
  | operand (e : Expr) : Chained n frames 0 e frames e
  | operator {op : BinaryOp} {length : Nat} (left x : Expr) (ho : op.level = n) :
      Chained n frames (length + 1) (.binary op left x) (.chain left op (length + 1) :: frames) x

theorem Complete.weaken {m : Nat} (h : Complete n e frames x inner) (hm : m ≤ n) :
    Complete m e frames x inner := by
  induction hm with
  | refl => exact h
  | step _ ih => exact ih h.tighter

theorem Chained.complete {length : Nat} (h : Chained n frames length e inner x) (hn : n < 6) :
    Complete n e frames x inner := by
  cases h with
  | operand => exact (Complete.refl (Nat.le_refl 6)).weaken (Nat.le_of_lt hn)
  | operator left x ho =>
    subst ho
    exact ((Complete.refl (Nat.le_refl 6)).weaken hn).binary

theorem Chained.extend {length : Nat} {op : BinaryOp} (h : Chained n frames length e inner x)
    (hn : operandLevel frames ≤ n) (ho : op.level = n) :
    extendChain op x inner = .chain e op (length + 1) :: frames := by
  subst ho
  cases h with
  | operand => exact extendChain_of_reduce (reduce_self hn op.level_lt e) hn
  | operator left x ho =>
    unfold extendChain
    simp only [reduce, ho, Nat.lt_irrefl, if_false, if_true]

namespace Fragment

theorem verdict_name (w : String) (hp : ts.head? ≠ some (.symbol .openParen))
    (ha : purpose = .result → frames = [] → ts.head? ≠ some (.symbol .assign)) :
    (inside purpose frames (.afterName w)).verdict limit ts =
      (inside purpose frames (.afterOperand (.name w) 0)).verdict limit ts := by
  cases ts with
  | nil => rfl
  | cons t ts =>
    have hparen : t ≠ .symbol .openParen := fun h => hp (congrArg some h)
    have hinside : pushInside limit purpose frames (.afterName w) t =
        pushAfter limit purpose frames (.name w) 0 t := if_neg hparen
    have hoperand : push limit (.inside purpose frames (.afterOperand (.name w) 0)) t =
        pushAfter limit purpose frames (.name w) 0 t := push_inside (by simp) t
    refine verdict_congr ?_ ts
    rw [hoperand]
    cases purpose with
    | assign name declare => exact hinside
    | result =>
      cases frames with
      | nil => exact (if_neg fun h => ha rfl rfl (congrArg some h)).trans hinside
      | cons frame frames => exact hinside

theorem verdict_item {kind : ListKind} {reversed : List Expr}
    (h : ts.head? ≠ some (.symbol kind.close)) :
    (inside purpose frames (.item kind reversed)).verdict limit ts =
      verdictIn limit purpose (.item kind reversed :: frames) .operand ts := by
  unfold verdictIn
  cases ts with
  | nil =>
    change (if depth (.item kind reversed :: frames) ≤ limit then _ else _) = _
    rfl
  | cons t ts =>
    have hne : t ≠ .symbol kind.close := fun ht => h (congrArg some ht)
    have hpush : push limit (.inside purpose frames (.item kind reversed)) t =
        (Fragment.enter limit purpose (.item kind reversed :: frames) .operand).bind fun _ =>
          pushOperand limit purpose (.item kind reversed :: frames) t :=
      (push_inside (by simp) t).trans (if_neg hne)
    unfold Fragment.enter at hpush
    split
    · rename_i hd
      rw [if_pos hd] at hpush
      have hoperand : push limit (.inside purpose (.item kind reversed :: frames) .operand) t =
          pushOperand limit purpose (.item kind reversed :: frames) t := push_inside (by simp) t
      exact verdict_congr (hpush.trans hoperand.symm) ts
    · rename_i hd
      rw [if_neg hd] at hpush
      exact verdict_of_refused hpush ts

theorem verdict_start (hl : 0 < limit) (hw : ∀ w, t ≠ .word w) (hs : t ≠ .symbol .semicolon)
    (ts : List Token) : Fragment.start.verdict limit (t :: ts) =
      verdictIn limit .result [] .operand (t :: ts) := by
  rw [verdictIn, if_pos (show depth [] + Awaiting.operand.levels ≤ limit from hl)]
  exact verdict_congr (push_start hl hw hs) ts

theorem isKeyword_of_keywordValue? {w : String} {v : Value} (h : keywordValue? w = some v) :
    isKeyword w = true := by
  unfold keywordValue? at h
  split at h
  · simp_all [isKeyword]
  · split at h
    · simp_all [isKeyword]
    · split at h
      · simp_all [isKeyword]
      · cases h

/-- A word that is neither assigned to nor `let` begins an expression. -/
theorem verdict_start_word (hl : 0 < limit) {w : String} (hlet : w ≠ "let")
    (ha : ts.head? ≠ some (.symbol .assign)) : Fragment.start.verdict limit (.word w :: ts) =
      verdictIn limit .result [] .operand (.word w :: ts) := by
  rw [verdictIn, if_pos (show depth [] + Awaiting.operand.levels ≤ limit from hl)]
  have hoperand : push limit (.inside .result [] .operand) (.word w) =
      pushOperand limit .result [] (.word w) := push_inside (by simp) _
  cases hv : keywordValue? w with
  | none =>
    refine verdict_congr ?_ ts
    rw [hoperand]
    simp only [push, pushOperand, hv, if_neg hlet]
  | some v =>
    have hstart : push limit .start (.word w) = .ok (.keyword v) := by
      simp only [push, hv, if_neg hlet]
    simp only [pushOperand, hv] at hoperand
    rw [verdict_of_push hstart, verdict_of_push hoperand]
    cases ts with
    | nil => rfl
    | cons t ts =>
      have hafter : push limit (.inside .result [] (.afterOperand (.literal v) 0)) t =
          pushAfter limit .result [] (.literal v) 0 t := push_inside (by simp) t
      refine verdict_congr (Eq.trans ?_ hafter.symm) ts
      exact if_neg fun h => ha (congrArg some h)

end Fragment

def Statement.followedBy (s : Statement) : List Token → Except SyntaxError Statement
  | [] => .ok s
  | [.symbol .semicolon] => .ok s
  | .symbol .semicolon :: t :: _ => .error (.malformed (.unexpected t))
  | t :: _ => .error (.malformed (.unexpected t))

theorem Statement.followedBy_cons {t : Token} (s : Statement) (ht : t ≠ .symbol .semicolon)
    (ts : List Token) : s.followedBy (t :: ts) = .error (.malformed (.unexpected t)) := by
  unfold followedBy
  split <;> simp_all

namespace Fragment

theorem verdict_closed (limit : Nat) (s : Statement) (ts : List Token) :
    (closed s).verdict limit ts = s.followedBy (.symbol .semicolon :: ts) := by
  cases ts with
  | nil => rfl
  | cons t ts => exact verdict_of_refused rfl ts

theorem verdict_followedBy (limit : Nat) (purpose : Purpose) (e : Expr) (hs : StopsAt 0 ts) :
    (inside purpose [] (.afterOperand e 0)).verdict limit ts = (purpose.build e).followedBy ts := by
  cases ts with
  | nil => rfl
  | cons t ts =>
    have hafter : push limit (.inside purpose [] (.afterOperand e 0)) t =
        pushAfter limit purpose [] e 0 t := push_inside (by simp) t
    have hgrip : t.grip? = none := by
      cases hg : t.grip? with
      | none => rfl
      | some l => exact absurd (hs t l rfl hg) (Nat.not_lt_zero l)
    by_cases ht : t = .symbol .semicolon
    · subst ht
      rw [verdict_of_push hafter, verdict_closed]
    · rw [Statement.followedBy_cons _ ht]
      refine verdict_of_refused (hafter.trans ?_) ts
      cases t with
      | symbol symbol =>
        cases symbol <;> first
          | rfl
          | exact absurd rfl ht
          | exact absurd hgrip (Option.some_ne_none _)
      | _ => rfl

end Fragment

end PromptLoop.Script
