import PromptLoop.Proofs.Script.Descent.Depth
import PromptLoop.Proofs.Script.Descent.Verdict

set_option autoImplicit false

/-!
# Reading by descent agrees with pushing tokens

Where a routine is called the tokens read so far have led to a fragment, and where it has succeeded
they have led to one that goes on like the operand that was read, behind the same open constructs
(`Faces`, `Agrees`). The levels of the open constructs are the depth of the descent, so the two
report the limit at the same token.
-/
namespace PromptLoop.Script.Descent
open Fragment
variable {limit n steps base length : Nat} {tokens ts : List Token} {purpose : Purpose}
  {frames inner : List Frame} {frame : Frame} {awaiting : Awaiting} {e x whole left target : Expr}
  {verdict : Except SyntaxError Statement} {t : Token} {r : Routine} {p : Trail} {kind : ListKind}
  {reversed : List Expr} {entries : List (String × Expr)}

def NotAssigned (purpose : Purpose) (frames : List Frame) (ts : List Token) : Prop :=
  purpose = .result → frames = [] → ∀ w rest, ts ≠ .word w :: .symbol .assign :: rest

theorem notAssigned_cons (purpose : Purpose) (frame : Frame) (frames : List Frame)
    (ts : List Token) : NotAssigned purpose (frame :: frames) ts := by
  simp [NotAssigned]

theorem notAssigned_assign (name : String) (declare : Bool) (frames : List Frame)
    (ts : List Token) : NotAssigned (.assign name declare) frames ts := by
  simp [NotAssigned]

/-- The verdict on the tokens where a routine is called, at a depth. What it reads is an operand
behind the open constructs, and stops in front of tokens that hold one of the level. -/
inductive Faces (limit : Nat) (purpose : Purpose) (frames : List Frame) :
    Routine → Nat → List Token → Except SyntaxError Statement → Nat → Prop where
  | expression {d : Nat} {ts : List Token} (hd : depth frames = d + 1)
      (ho : operandLevel frames = 0) (ha : NotAssigned purpose frames ts) :
      Faces limit purpose frames .expression d ts (verdictIn limit purpose frames .operand ts) 0
  | level {n d : Nat} {ts : List Token} (hd : depth frames = d) (hn : n < 6)
      (ho : operandLevel frames ≤ n) (ha : NotAssigned purpose frames ts) :
      Faces limit purpose frames (.level n) d ts
        ((inside purpose frames .operand).verdict limit ts) n
  | operators {n d base length : Nat} {left x : Expr} {inner : List Frame} {ts : List Token}
      (hb : depth frames = base) (hd : d = base + length) (hn : n < 6)
      (ho : operandLevel frames ≤ n) (hc : Chained n frames length left inner x)
      (hs : StopsAt (n + 1) ts) :
      Faces limit purpose frames (.operators n base left) d ts
        ((inside purpose inner (.afterOperand x 0)).verdict limit ts) n
  | unary {d : Nat} {ts : List Token} (hd : depth frames = d)
      (ha : NotAssigned purpose frames ts) :
      Faces limit purpose frames .unary d ts ((inside purpose frames .operand).verdict limit ts) 6
  | access {d : Nat} {ts : List Token} (hd : depth frames = d)
      (hu : ts.head?.bind Token.unaryOp? = none) (ha : NotAssigned purpose frames ts) :
      Faces limit purpose frames .access d ts ((inside purpose frames .operand).verdict limit ts) 6
  | steps {d base steps : Nat} {target : Expr} {ts : List Token} (hb : depth frames = base)
      (hd : d = base + steps) :
      Faces limit purpose frames (.steps base target) d ts
        ((inside purpose frames (.afterOperand target steps)).verdict limit ts) 6
  | primary {d : Nat} {ts : List Token} (hd : depth frames = d)
      (hu : ts.head?.bind Token.unaryOp? = none) (ha : NotAssigned purpose frames ts) :
      Faces limit purpose frames .primary d ts ((inside purpose frames .operand).verdict limit ts) 7
  | list {d : Nat} {kind : ListKind} {reversed : List Expr} {ts : List Token}
      (hd : depth frames = d) :
      Faces limit purpose frames (.list kind reversed) d ts
        ((inside purpose frames (.item kind reversed)).verdict limit ts) 7
  | object {d : Nat} {entries : List (String × Expr)} {ts : List Token}
      (hd : depth frames = d) :
      Faces limit purpose frames (.object entries) d ts
        ((inside purpose frames (.key entries)).verdict limit ts) 7

/-- What a routine comes to under a verdict: the error of the verdict, or an operand that changes
nothing about it. -/
def Agrees (limit : Nat) (tokens : List Token) (purpose : Purpose) (frames : List Frame)
    (verdict : Except SyntaxError Statement) (n base : Nat) :
    Except SyntaxError Expr → Trail → Prop
  | .error e, _ => verdict = .error e
  | .ok e, p =>
    verdict = (inside purpose frames (.afterOperand e 0)).verdict limit
        (tokens.drop p.place.position) ∧
      p.place.depth = base ∧ StopsAt n (tokens.drop p.place.position)

def Agreeing (limit : Nat) (tokens : List Token) (purpose : Purpose)
    (call : Routine → Descent Expr) : Prop :=
  ∀ ⦃r frames verdict n⦄ (p : Trail),
    Faces limit purpose frames r p.place.depth (tokens.drop p.place.position) verdict n →
      Ensures True (call r) p
        (Agrees limit tokens purpose frames verdict n (r.base p.place.depth))

theorem drop_of_some {i : Nat} (h : tokens[i]? = some t) :
    tokens.drop i = t :: tokens.drop (i + 1) := by
  obtain ⟨hlt, rfl⟩ := List.getElem?_eq_some_iff.1 h
  exact List.drop_eq_getElem_cons hlt

theorem drop_of_none {i : Nat} (h : tokens[i]? = none) : tokens.drop i = [] :=
  List.drop_eq_nil_of_le (List.getElem?_eq_none_iff.1 h)

theorem Faces.operand {d : Nat} (hd : depth frames = d) (hn : n < 6)
    (ho : operandLevel frames ≤ n + 1) (ha : NotAssigned purpose frames ts) :
    Faces limit purpose frames (.operand n) d ts
      ((inside purpose frames .operand).verdict limit ts) (n + 1) := by
  unfold Routine.operand
  split
  · rename_i hlt
    exact .level hd (Nat.succ_lt_succ hlt) ho ha
  · obtain rfl : n = 5 := by omega
    exact .unary hd ha

theorem ensures_enter_agrees {outer : List Frame} {f : Unit → Descent Expr}
    (hd : depth frames + awaiting.levels = p.place.depth + 1)
    (h : Ensures True (f ()) p.deepen
      (Agrees limit tokens purpose outer ((inside purpose frames awaiting).verdict limit ts) n
        base)) :
    Ensures True (enter limit >>= f) p
      (Agrees limit tokens purpose outer (verdictIn limit purpose frames awaiting ts) n base) := by
  rw [ensures_enter_bind, verdictIn, hd]
  split
  · rename_i hlt
    rwa [if_pos (show p.place.depth + 1 ≤ limit from hlt)]
  · rename_i hlt
    exact if_neg hlt

section Calls
variable {call : Routine → Descent Expr}

theorem Agreeing.bind {outer : List Frame} {m : Nat} {f : Expr → Descent Expr}
    (hcall : Agreeing limit tokens purpose call)
    (hf : Faces limit purpose frames r p.place.depth (tokens.drop p.place.position) verdict m)
    (hok : ∀ e u, u.place.depth = r.base p.place.depth → StopsAt m (tokens.drop u.place.position) →
      Ensures True (f e) u (Agrees limit tokens purpose outer
        ((inside purpose frames (.afterOperand e 0)).verdict limit (tokens.drop u.place.position))
        n base)) :
    Ensures True (call r >>= f) p (Agrees limit tokens purpose outer verdict n base) := by
  refine (hcall p hf).bind (fun _ _ h => h) fun e u h => ?_
  obtain ⟨rfl, hback, hs⟩ := h
  exact hok e u hback hs

theorem ensures_expect_agrees {outer : List Frame} {symbol : Symbol} {f : Unit → Descent Expr}
    (hclosed : frame.closed? e = some (symbol, whole, steps))
    (hs : StopsAt 0 (tokens.drop p.place.position))
    (hcomma : tokens[p.place.position]? = some (.symbol .comma) → frame.continued? e = none)
    (hok : Ensures True (f ()) p.advance (Agrees limit tokens purpose outer
      ((inside purpose frames (.afterOperand whole steps)).verdict limit
        (tokens.drop p.advance.place.position)) n base)) :
    Ensures True (expect tokens (.symbol symbol) >>= f) p (Agrees limit tokens purpose outer
      ((inside purpose (frame :: frames) (.afterOperand e 0)).verdict limit
        (tokens.drop p.place.position)) n base) := by
  rw [ensures_expect_bind]
  cases htoken : tokens[p.place.position]? with
  | none =>
    rw [drop_of_none htoken]
    exact finish_behind limit purpose frames hclosed
  | some token =>
    have hgrip : token.grip? = none := by
      cases hg : token.grip? with
      | none => rfl
      | some l => exact absurd (hs token l (by rw [List.head?_drop, htoken]) hg) (Nat.not_lt_zero l)
    have hpush := push_behind limit purpose frames hclosed hgrip
      fun ht => hcomma (htoken.trans (congrArg some ht))
    rw [drop_of_some htoken]
    dsimp only
    split
    · rename_i heq
      rw [if_pos heq] at hpush
      rwa [verdict_of_push hpush]
    · rename_i hne
      rw [if_neg hne] at hpush
      exact verdict_of_refused hpush _

section Bodies
variable (hcall : Agreeing limit tokens purpose call)
include hcall

theorem body_expression_agrees (hd : depth frames = p.place.depth + 1)
    (ho : operandLevel frames = 0)
    (ha : NotAssigned purpose frames (tokens.drop p.place.position)) :
    Ensures True (body limit tokens call .expression) p
      (Agrees limit tokens purpose frames
        (verdictIn limit purpose frames .operand (tokens.drop p.place.position)) 0
        p.place.depth) := by
  simp only [body]
  refine ensures_enter_agrees hd ?_
  refine hcall.bind (.level hd (by decide) (Nat.le_of_eq ho) ha) fun e u hback hs => ?_
  rw [ensures_leave_bind, hback]
  exact ⟨rfl, rfl, hs⟩

theorem body_level_agrees (hd : depth frames = p.place.depth) (hn : n < 6)
    (ho : operandLevel frames ≤ n)
    (ha : NotAssigned purpose frames (tokens.drop p.place.position)) :
    Ensures True (body limit tokens call (.level n)) p
      (Agrees limit tokens purpose frames
        ((inside purpose frames .operand).verdict limit (tokens.drop p.place.position)) n
        p.place.depth) := by
  simp only [body]
  rw [ensures_get_bind]
  refine hcall.bind (.operand hd hn (Nat.le_succ_of_le ho) ha) fun left u hback hs => ?_
  rw [Routine.base_operand] at hback
  exact hcall u (.operators hd (hback.trans (Nat.add_zero _).symm) hn ho (.operand left) hs)

theorem body_operators_agrees (hb : depth frames = base) (hd : p.place.depth = base + length)
    (hn : n < 6) (ho : operandLevel frames ≤ n) (hc : Chained n frames length left inner x)
    (hs : StopsAt (n + 1) (tokens.drop p.place.position)) :
    Ensures True (body limit tokens call (.operators n base left)) p
      (Agrees limit tokens purpose frames
        ((inside purpose inner (.afterOperand x 0)).verdict limit (tokens.drop p.place.position)) n
        base) := by
  simp only [body]
  rw [ensures_peek_bind]
  cases hop : tokens[p.place.position]?.bind (Token.binaryOp? n) with
  | none =>
    dsimp only
    rw [ensures_modify_bind]
    have hstops : StopsAt n (tokens.drop p.place.position) :=
      hs.of_no_operator hn (List.head?_drop ▸ hop)
    exact ⟨verdict_complete (hc.complete hn) (Nat.le_of_lt hn) hstops 0, rfl, hstops⟩
  | some op =>
    dsimp only
    obtain ⟨token, htoken, hsign⟩ := Option.bind_eq_some_iff.1 hop
    obtain ⟨rfl, rfl⟩ := Token.binaryOp?_eq_some hsign
    have hpush : push limit (.inside purpose inner (.afterOperand x 0)) (.symbol op.sign) =
        Fragment.enter limit purpose (.chain left op (length + 1) :: frames) .operand := by
      rw [push_inside (by simp), ← hc.extend ho rfl]
      cases op <;> rfl
    have hdepth : depth (.chain left op (length + 1) :: frames) = p.place.depth + 1 := by
      simp only [depth_cons, Frame.levels, hb, hd, Nat.add_assoc]
    rw [drop_of_some htoken, verdict_of_enter hpush, ensures_modify_bind]
    refine ensures_enter_agrees hdepth ?_
    refine hcall.bind (.operand hdepth hn (Nat.le_refl _) (notAssigned_cons _ _ _ _)) ?_
    intro right u hback hs
    have hlonger : u.place.depth = base + (length + 1) := by
      rw [hback, Routine.base_operand, ← Nat.add_assoc, ← hd]
      rfl
    exact hcall u (.operators hb hlonger hn ho (.operator left right rfl) hs)

theorem body_unary_agrees (hd : depth frames = p.place.depth)
    (ha : NotAssigned purpose frames (tokens.drop p.place.position)) :
    Ensures True (body limit tokens call .unary) p
      (Agrees limit tokens purpose frames
        ((inside purpose frames .operand).verdict limit (tokens.drop p.place.position)) 6
        p.place.depth) := by
  simp only [body]
  rw [ensures_peek_bind]
  cases hop : tokens[p.place.position]?.bind Token.unaryOp? with
  | none => exact hcall p (.access hd (by rwa [List.head?_drop]) ha)
  | some op =>
    dsimp only
    obtain ⟨token, htoken, hsign⟩ := Option.bind_eq_some_iff.1 hop
    obtain rfl := Token.unaryOp?_eq_some hsign
    have hpush : push limit (.inside purpose frames .operand) (.symbol op.sign) =
        Fragment.enter limit purpose (.unary op :: frames) .operand := by
      rw [push_inside (by simp)]
      cases op <;> rfl
    have hdepth : depth (.unary op :: frames) = p.place.depth + 1 := by
      rw [depth_cons, hd]
      rfl
    rw [drop_of_some htoken, verdict_of_enter hpush, ensures_modify_bind]
    refine ensures_enter_agrees hdepth ?_
    refine hcall.bind (.unary hdepth (notAssigned_cons _ _ _ _)) fun operand u hback hs => ?_
    rw [ensures_leave_bind, hback]
    have hwhole : Complete 6 (.unary op operand) frames operand (.unary op :: frames) :=
      (Complete.refl (Nat.le_refl 6)).unary
    exact ⟨verdict_complete hwhole (Nat.le_refl 6) hs 0, rfl, hs⟩

theorem body_access_agrees (hd : depth frames = p.place.depth)
    (hu : (tokens.drop p.place.position).head?.bind Token.unaryOp? = none)
    (ha : NotAssigned purpose frames (tokens.drop p.place.position)) :
    Ensures True (body limit tokens call .access) p
      (Agrees limit tokens purpose frames
        ((inside purpose frames .operand).verdict limit (tokens.drop p.place.position)) 6
        p.place.depth) := by
  simp only [body]
  rw [ensures_get_bind]
  refine hcall.bind (.primary hd hu ha) fun target u hback _ => ?_
  exact hcall u (.steps hd (hback.trans (Nat.add_zero _).symm))

theorem body_steps_agrees (hb : depth frames = base) (hd : p.place.depth = base + steps) :
    Ensures True (body limit tokens call (.steps base target)) p
      (Agrees limit tokens purpose frames
        ((inside purpose frames (.afterOperand target steps)).verdict limit
          (tokens.drop p.place.position)) 6 base) := by
  simp only [body]
  rw [ensures_eat_bind]
  split
  · rename_i hdot
    have hpush : push limit (.inside purpose frames (.afterOperand target steps)) (.symbol .dot) =
        Fragment.enter limit purpose frames (.member target steps) := push_inside (by simp) _
    have hdepth : depth frames + (Awaiting.member target steps).levels = p.place.depth + 1 := by
      rw [hb, hd]
      rfl
    rw [drop_of_some hdot, verdict_of_enter hpush, if_pos rfl]
    refine ensures_enter_agrees hdepth ?_
    rw [ensures_next_bind]
    cases htoken : tokens[p.advance.deepen.place.position]? with
    | none =>
      have hend : tokens.drop (p.place.position + 1) = [] := drop_of_none htoken
      rw [hend]
      rfl
    | some token =>
      have hrest : tokens.drop (p.place.position + 1) =
        token :: tokens.drop (p.place.position + 2) := drop_of_some htoken
      rw [hrest]
      cases token with
      | word name =>
        have hname : push limit (.inside purpose frames (.member target steps)) (.word name) =
            .ok (.inside purpose frames (.afterOperand (.member target name) (steps + 1))) :=
          push_inside (by simp) _
        rw [verdict_of_push hname]
        exact hcall p.advance.deepen.advance (.steps hb (congrArg Nat.succ hd))
      | _ => exact verdict_of_refused (push_inside (by simp) _) _
  · rename_i hdot
    rw [if_neg (by decide), ensures_eat_bind]
    split
    · rename_i hbracket
      have hpush : push limit (.inside purpose frames (.afterOperand target steps))
          (.symbol .openBracket) =
            Fragment.enter limit purpose (.position target steps :: frames) .operand :=
        push_inside (by simp) _
      have hdepth : depth (.position target steps :: frames) = p.place.depth + 2 := by
        rw [depth_cons, hb, hd]
        rfl
      rw [drop_of_some hbracket, verdict_of_enter hpush, if_pos rfl, ensures_enter_bind]
      split
      · refine hcall.bind (.expression hdepth rfl (notAssigned_cons _ _ _ _)) fun e u hback hs => ?_
        refine ensures_expect_agrees rfl hs (fun _ => rfl) ?_
        exact hcall u.advance (.steps hb (hback.trans (congrArg Nat.succ hd)))
      · rename_i hlt
        refine if_neg fun hle => hlt ?_
        rw [hdepth] at hle
        exact Nat.lt_of_succ_lt hle
    · rename_i hbracket
      rw [if_neg (by decide), ensures_modify_bind]
      have hstops : StopsAt 6 (tokens.drop p.place.position) := by
        rw [← List.head?_drop] at hdot hbracket
        exact .of_no_step hdot hbracket
      exact ⟨verdict_complete (Complete.refl (Nat.le_refl 6)) (Nat.le_refl 6) hstops 0, rfl, hstops⟩

theorem body_list_agrees (hd : depth frames = p.place.depth) :
    Ensures True (body limit tokens call (.list kind reversed)) p
      (Agrees limit tokens purpose frames
        ((inside purpose frames (.item kind reversed)).verdict limit
          (tokens.drop p.place.position)) 7 p.place.depth) := by
  have hdepth : depth (.item kind reversed :: frames) = p.place.depth + 1 :=
    congrArg Nat.succ hd
  simp only [body]
  rw [ensures_eat_bind]
  split
  · rename_i hclose
    rw [drop_of_some hclose, verdict_of_push (push_item_close _ _ _ _ _)]
    exact ⟨rfl, rfl, stopsAt_seven _⟩
  · rename_i hclose
    rw [if_neg (by decide), verdict_item (by rwa [List.head?_drop])]
    refine hcall.bind (.expression hdepth rfl (notAssigned_cons _ _ _ _)) fun e u hback hs => ?_
    rw [ensures_eat_bind]
    split
    · rename_i hcomma
      have hpush : push limit (.inside purpose (.item kind reversed :: frames) (.afterOperand e 0))
          (.symbol .comma) = .ok (.inside purpose frames (.item kind (e :: reversed))) :=
        push_comma limit purpose frames rfl
      have hsame : u.place.depth = p.place.depth := hback
      rw [drop_of_some hcomma, verdict_of_push hpush, if_pos rfl, ← hsame]
      exact hcall u.advance (.list (hd.trans hsame.symm))
    · rename_i hcomma
      rw [if_neg (by decide)]
      refine ensures_expect_agrees rfl hs (fun h => absurd h hcomma) ?_
      exact ⟨rfl, hback, stopsAt_seven _⟩

theorem Agreeing.word {w : String} (hd : depth frames = p.place.depth)
    (ha : purpose = .result → frames = [] →
      tokens[p.place.position]? ≠ some (.symbol .assign)) :
    Ensures True (match keywordValue? w with
        | some v => pure (.literal v)
        | none =>
          if w = "let" then throw (.malformed (.unexpected (.word w)))
          else do
            if ← eat tokens (.symbol .openParen) then call (.list (.call w) [])
            else pure (.name w)) p
      (Agrees limit tokens purpose frames
        ((inside purpose frames .operand).verdict limit
          (.word w :: tokens.drop p.place.position)) 7 p.place.depth) := by
  have hpush : push limit (.inside purpose frames .operand) (.word w) =
      pushOperand limit purpose frames (.word w) := push_inside (by simp) _
  cases hv : keywordValue? w with
  | some v =>
    simp only [pushOperand, hv] at hpush
    rw [verdict_of_push hpush]
    exact ⟨rfl, rfl, stopsAt_seven _⟩
  | none =>
    simp only [pushOperand, hv] at hpush
    dsimp only
    split
    · rename_i hlet
      rw [if_pos hlet] at hpush
      exact verdict_of_refused hpush _
    · rename_i hlet
      rw [if_neg hlet] at hpush
      rw [verdict_of_push hpush, ensures_eat_bind]
      split
      · rename_i hparen
        have hcalled : push limit (.inside purpose frames (.afterName w)) (.symbol .openParen) =
            .ok (.inside purpose frames (.item (.call w) [])) := by
          cases purpose with
          | assign name declare => rfl
          | result => cases frames <;> rfl
        rw [drop_of_some hparen, verdict_of_push hcalled]
        exact hcall p.advance (.list hd)
      · rename_i hparen
        rw [← List.head?_drop] at hparen
        simp only [← List.head?_drop] at ha
        exact ⟨verdict_name w hparen ha, rfl, stopsAt_seven _⟩

theorem body_primary_agrees (hd : depth frames = p.place.depth)
    (hu : (tokens.drop p.place.position).head?.bind Token.unaryOp? = none)
    (ha : NotAssigned purpose frames (tokens.drop p.place.position)) :
    Ensures True (body limit tokens call .primary) p
      (Agrees limit tokens purpose frames
        ((inside purpose frames .operand).verdict limit (tokens.drop p.place.position)) 7
        p.place.depth) := by
  simp only [body]
  rw [ensures_next_bind]
  cases htoken : tokens[p.place.position]? with
  | none =>
    rw [drop_of_none htoken]
    rfl
  | some token =>
    rw [List.head?_drop, htoken, Option.bind_some] at hu
    rw [drop_of_some htoken] at ha ⊢
    have hoperand : push limit (.inside purpose frames .operand) token =
        pushOperand limit purpose frames token := push_inside (by simp) token
    have hleaf {e : Expr} (hpush : pushOperand limit purpose frames token =
        .ok (.inside purpose frames (.afterOperand e 0))) :
        Ensures True (pure e) p.advance (Agrees limit tokens purpose frames
          ((inside purpose frames .operand).verdict limit
            (token :: tokens.drop (p.place.position + 1))) 7 p.place.depth) :=
      ⟨verdict_of_push (hoperand.trans hpush) _, rfl, stopsAt_seven _⟩
    cases token with
    | number x => exact hleaf rfl
    | string s => exact hleaf rfl
    | word w =>
      refine hcall.word (p := p.advance) hd fun hp hf hassign => ?_
      exact ha hp hf w _ (congrArg (Token.word w :: ·) (drop_of_some hassign))
    | symbol symbol =>
      cases symbol with
      | openParen =>
        have hdepth : depth (.group :: frames) = p.place.depth + 1 := congrArg Nat.succ hd
        rw [verdict_of_enter hoperand]
        refine hcall.bind (p := p.advance) (.expression hdepth rfl (notAssigned_cons _ _ _ _)) ?_
        intro e u hback hs
        refine ensures_expect_agrees rfl hs (fun _ => rfl) ?_
        exact ⟨rfl, hback, stopsAt_seven _⟩
      | openBracket =>
        rw [verdict_of_push hoperand]
        exact hcall p.advance (.list hd)
      | openBrace =>
        rw [verdict_of_push hoperand]
        exact hcall p.advance (.object hd)
      | minus => cases hu
      | bang => cases hu
      | _ => exact verdict_of_refused hoperand _

theorem Agreeing.entry {key : String} (hd : depth frames = p.place.depth) :
    Ensures True (do
        expect tokens (.symbol .colon)
        let e ← call .expression
        if ← eat tokens (.symbol .comma) then call (.object ((key, e) :: entries))
        else
          expect tokens (.symbol .closeBrace)
          pure (.object ((key, e) :: entries).reverse)) p
      (Agrees limit tokens purpose frames
        ((inside purpose frames (.colon entries key)).verdict limit
          (tokens.drop p.place.position)) 7 p.place.depth) := by
  have hdepth : depth (.entry entries key :: frames) = p.place.depth + 1 :=
    congrArg Nat.succ hd
  rw [ensures_expect_bind]
  cases htoken : tokens[p.place.position]? with
  | none =>
    rw [drop_of_none htoken]
    rfl
  | some token =>
    rw [drop_of_some htoken]
    dsimp only
    split
    · rename_i hcolon
      subst hcolon
      have hpush : push limit (.inside purpose frames (.colon entries key)) (.symbol .colon) =
          Fragment.enter limit purpose (.entry entries key :: frames) .operand :=
        push_inside (by simp) _
      rw [verdict_of_enter hpush]
      refine hcall.bind (.expression hdepth rfl (notAssigned_cons _ _ _ _)) fun e u hback hs => ?_
      have hsame : u.place.depth = p.place.depth := hback
      rw [ensures_eat_bind]
      split
      · rename_i hcomma
        have hpush : push limit (.inside purpose (.entry entries key :: frames) (.afterOperand e 0))
            (.symbol .comma) = .ok (.inside purpose frames (.key ((key, e) :: entries))) :=
          push_comma limit purpose frames rfl
        rw [drop_of_some hcomma, verdict_of_push hpush, if_pos rfl, ← hsame]
        exact hcall u.advance (.object (hd.trans hsame.symm))
      · rename_i hcomma
        rw [if_neg (by decide)]
        refine ensures_expect_agrees rfl hs (fun h => absurd h hcomma) ?_
        exact ⟨rfl, hsame, stopsAt_seven _⟩
    · rename_i hne
      have hpush : push limit (.inside purpose frames (.colon entries key)) token =
          .error (.unexpected token) := (push_inside (by simp) token).trans (if_neg hne)
      exact verdict_of_refused hpush _

theorem body_object_agrees (hd : depth frames = p.place.depth) :
    Ensures True (body limit tokens call (.object entries)) p
      (Agrees limit tokens purpose frames
        ((inside purpose frames (.key entries)).verdict limit
          (tokens.drop p.place.position)) 7 p.place.depth) := by
  simp only [body]
  rw [ensures_eat_bind]
  split
  · rename_i hclose
    have hpush : push limit (.inside purpose frames (.key entries)) (.symbol .closeBrace) =
        .ok (.inside purpose frames (.afterOperand (.object entries.reverse) 0)) :=
      push_inside (by simp) _
    rw [drop_of_some hclose, verdict_of_push hpush]
    exact ⟨rfl, rfl, stopsAt_seven _⟩
  · rename_i hclose
    rw [if_neg (by decide), ensures_next_bind]
    cases htoken : tokens[p.place.position]? with
    | none =>
      rw [drop_of_none htoken]
      rfl
    | some token =>
      rw [drop_of_some htoken]
      dsimp only
      cases hkey : token.key? with
      | none =>
        have hpush : push limit (.inside purpose frames (.key entries)) token =
            .error (.unexpected token) := by
          rw [push_inside (by simp)]
          cases token with
          | symbol symbol => cases symbol <;> first | rfl | exact absurd htoken hclose
          | _ => cases hkey
        exact verdict_of_refused hpush _
      | some key =>
        have hpush : push limit (.inside purpose frames (.key entries)) token =
            .ok (.inside purpose frames (.colon entries key)) := by
          rw [push_inside (by simp)]
          cases token <;> cases hkey <;> rfl
        rw [verdict_of_push hpush]
        exact hcall.entry hd

end Bodies

/-- One call agrees with pushing tokens where the calls agree that it makes. -/
theorem body_agrees (hcall : Agreeing limit tokens purpose call) :
    Agreeing limit tokens purpose (body limit tokens call) := by
  intro r frames verdict n p hf
  cases hf with
  | expression hd ho ha => exact body_expression_agrees hcall hd ho ha
  | level hd hn ho ha => exact body_level_agrees hcall hd hn ho ha
  | operators hb hd hn ho hc hs => exact body_operators_agrees hcall hb hd hn ho hc hs
  | unary hd ha => exact body_unary_agrees hcall hd ha
  | access hd hu ha => exact body_access_agrees hcall hd hu ha
  | steps hb hd => exact body_steps_agrees hcall hb hd
  | primary hd hu ha => exact body_primary_agrees hcall hd hu ha
  | list hd => exact body_list_agrees hcall hd
  | object hd => exact body_object_agrees hcall hd

end Calls

theorem callWithin_agrees (limit : Nat) (tokens : List Token) (purpose : Purpose) (calls : Nat) :
    Agreeing limit tokens purpose (callWithin limit tokens calls) := by
  induction calls with
  | zero => exact fun _ _ _ _ _ _ => trivial
  | succ calls ih => exact body_agrees ih

theorem call_agrees
    (hstart : p.place.Between (r.base p.place.depth) limit tokens.length)
    (hf : Faces limit purpose frames r p.place.depth (tokens.drop p.place.position) verdict n) :
    Ensures False (call limit tokens r) p
      (Agrees limit tokens purpose frames verdict n (r.base p.place.depth)) :=
  (call_neutral hstart).total (callWithin_agrees limit tokens purpose _ p hf)

def StatementAgrees (tokens : List Token) (verdict : Except SyntaxError Statement) :
    Except SyntaxError Statement → Trail → Prop
  | .error e, _ => verdict = .error e
  | .ok s, p => verdict = s.followedBy (tokens.drop p.place.position)

theorem value_agrees (purpose : Purpose) (i : Nat) {passed : List Place} (hi : i ≤ tokens.length)
    (ha : NotAssigned purpose [] (tokens.drop i)) :
    Ensures False (do return purpose.build (← call limit tokens .expression)) ⟨⟨i, 0⟩, passed⟩
      (StatementAgrees tokens (verdictIn limit purpose [] .operand (tokens.drop i))) := by
  have hstart : (Place.mk i 0).Between 0 limit tokens.length :=
    ⟨Nat.le_refl 0, Nat.zero_le limit, hi⟩
  refine (call_agrees (r := .expression) (p := ⟨⟨i, 0⟩, passed⟩) hstart
    (.expression rfl rfl ha)).bind (fun _ _ h => h) fun e u h => ?_
  obtain ⟨hverdict, -, hs⟩ := h
  exact hverdict.trans (verdict_followedBy limit purpose e hs)

theorem declaration_agrees :
    Ensures False (do
        modify Trail.advance
        match ← next (.word "let" :: ts) with
        | .word name =>
          if isKeyword name then throw (.malformed (.unexpected (.word name)))
          else do
            expect (.word "let" :: ts) (.symbol .assign)
            return .assign name (← call limit (.word "let" :: ts) .expression) true
        | t => throw (.malformed (.unexpected t))) {}
      (StatementAgrees (.word "let" :: ts) (Fragment.start.verdict limit (.word "let" :: ts))) := by
  have hstart : Fragment.start.verdict limit (.word "let" :: ts) =
      Fragment.declaration.verdict limit ts := verdict_of_push rfl ts
  rw [hstart, ensures_modify_bind, ensures_next_bind]
  cases ts with
  | nil => rfl
  | cons t ts =>
    cases t with
    | word name =>
      have hpush : push limit .declaration (.word name) =
          if isKeyword name then .error (.unexpected (.word name)) else .ok (.declared name) := rfl
      change Ensures False (if isKeyword name then _ else _) _ _
      by_cases hk : isKeyword name
      · rw [if_pos hk] at hpush ⊢
        exact verdict_of_refused hpush ts
      · rw [if_neg hk] at hpush ⊢
        rw [verdict_of_push hpush]
        cases ts with
        | nil => rfl
        | cons t ts =>
          rw [ensures_expect_bind]
          change if t = .symbol .assign then _ else _
          by_cases ht : t = .symbol .assign
          · subst ht
            rw [if_pos rfl, verdict_of_enter rfl]
            exact value_agrees (.assign name true) 3 (by simp)
              (notAssigned_assign _ _ _ _)
          · have hrefused : push limit (.declared name) t = .error (.unexpected t) := if_neg ht
            rw [if_neg ht]
            exact verdict_of_refused hrefused ts
    | _ => exact verdict_of_refused rfl ts

theorem assignment_agrees {w : String} (hlet : w ≠ "let") :
    Ensures False (if isKeyword w then throw (.malformed .target)
        else do
          modify (·.advance.advance)
          return .assign w (← call limit (.word w :: .symbol .assign :: ts) .expression) false) {}
      (StatementAgrees (.word w :: .symbol .assign :: ts)
        (Fragment.start.verdict limit (.word w :: .symbol .assign :: ts))) := by
  cases hv : keywordValue? w with
  | none =>
    have hname : push limit .start (.word w) = .ok (.inside .result [] (.afterName w)) := by
      simp only [push, hv, if_neg hlet]
    have hassign : push limit (.inside .result [] (.afterName w)) (.symbol .assign) =
        Fragment.enter limit (.assign w false) [] .operand := rfl
    rw [isKeyword_eq_false hv hlet, if_neg Bool.false_ne_true, verdict_of_push hname,
      verdict_of_enter hassign, ensures_modify_bind]
    exact value_agrees (.assign w false) 2 (by simp) (notAssigned_assign _ _ _ _)
  | some v =>
    have hvalue : push limit .start (.word w) = .ok (.keyword v) := by
      simp only [push, hv, if_neg hlet]
    have hassign : push limit (.keyword v) (.symbol .assign) = .error .target := rfl
    rw [isKeyword_of_keywordValue? hv, if_pos rfl, verdict_of_push hvalue]
    exact verdict_of_refused hassign ts

theorem statement_agrees (hl : 0 < limit) (tokens : List Token) :
    Ensures False (statement limit tokens) {}
      (StatementAgrees tokens (Statement.ofTokensWithin limit tokens)) := by
  change Ensures False _ _ (StatementAgrees tokens (Fragment.start.verdict limit tokens))
  unfold statement
  rw [ensures_get_bind]
  cases tokens with
  | nil => rfl
  | cons t ts =>
    have hresult (ha : NotAssigned .result [] (t :: ts)) (hverdict : Fragment.start.verdict limit
        (t :: ts) = verdictIn limit .result [] .operand (t :: ts)) :
        Ensures False (do return .expr (← call limit (t :: ts) .expression)) {}
          (StatementAgrees (t :: ts) (Fragment.start.verdict limit (t :: ts))) := by
      rw [hverdict]
      exact value_agrees .result 0 (Nat.zero_le _) ha
    have hplain (hw : ∀ w, t ≠ .word w) (hs : t ≠ .symbol .semicolon) :
        Ensures False (do return .expr (← call limit (t :: ts) .expression)) {}
          (StatementAgrees (t :: ts) (Fragment.start.verdict limit (t :: ts))) :=
      hresult (fun _ _ w _ h => hw w (List.cons.inj h).1) (verdict_start hl hw hs ts)
    have hfirst : (t :: ts)[(({} : Trail).place).position]? = some t := rfl
    dsimp only
    rw [hfirst]
    cases t with
    | number x => exact hplain (by simp) (by simp)
    | string x => exact hplain (by simp) (by simp)
    | symbol symbol =>
      cases symbol with
      | semicolon => exact verdict_closed limit .empty ts
      | _ => exact hplain (by simp) (by simp)
    | word w =>
      dsimp only
      split
      · rename_i hlet
        subst hlet
        exact declaration_agrees
      · rename_i hlet
        split
        · rename_i hassign
          obtain ⟨rest, rfl⟩ : ∃ rest, ts = .symbol .assign :: rest := by
            rw [← List.head?_eq_some_iff, List.head?_eq_getElem?]
            exact hassign
          exact assignment_agrees hlet
        · rename_i hassign
          have hne : ts.head? ≠ some (.symbol .assign) := by
            rwa [List.head?_eq_getElem?]
          refine hresult (fun _ _ _ rest h => ?_) (verdict_start_word hl hlet hne)
          obtain ⟨-, rfl⟩ := List.cons.inj h
          exact hne rfl

theorem unit_agrees (hl : 0 < limit) (tokens : List Token) :
    Ensures False (unit limit tokens) {} fun r _ => r = Statement.ofTokensWithin limit tokens := by
  unfold unit
  refine (statement_agrees hl tokens).bind (fun _ _ h => h.symm) fun s u h => ?_
  rw [StatementAgrees] at h
  rw [h, ensures_eat_bind]
  split
  · rename_i hend
    rw [ensures_peek_bind, drop_of_some hend]
    cases hmore : tokens[u.advance.place.position]? with
    | none =>
      have hrest : tokens.drop (u.place.position + 1) = [] := drop_of_none hmore
      rw [hrest]
      rfl
    | some t =>
      have hrest : tokens.drop (u.place.position + 1) = t :: tokens.drop (u.place.position + 2) :=
        drop_of_some hmore
      rw [hrest]
      rfl
  · rename_i hend
    rw [ensures_peek_bind]
    cases hmore : tokens[u.place.position]? with
    | none =>
      rw [drop_of_none hmore]
      rfl
    | some t =>
      rw [drop_of_some hmore, Statement.followedBy_cons]
      · rfl
      · rintro rfl
        exact hend hmore

end PromptLoop.Script.Descent
