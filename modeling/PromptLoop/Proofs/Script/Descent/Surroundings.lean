import PromptLoop.Proofs.Script.Descent.Depth

set_option autoImplicit false

namespace PromptLoop.Script

def Token.endsItem : Token → Bool
  | .symbol .comma => true
  | .symbol .closeParen => true
  | .symbol .closeBracket => true
  | .symbol .closeBrace => true
  | _ => false

theorem Token.binaryOp?_of_endsItem (n : Nat) {t : Token} (h : t.endsItem = true) :
    t.binaryOp? n = none := by
  cases t with
  | symbol s => cases s <;> first | rfl | cases h
  | _ => cases h

theorem Token.unaryOp?_of_endsItem {t : Token} (h : t.endsItem = true) : t.unaryOp? = none := by
  cases t with
  | symbol s => cases s <;> first | rfl | cases h
  | _ => cases h

/-- The tokens stand among others, behind as many as `offset`. -/
structure Surrounded (tokens outer : List Token) (offset : Nat) : Prop where
  same : ∀ i < tokens.length, outer[offset + i]? = tokens[i]?
  ends : ∀ t, outer[offset + tokens.length]? = some t → t.endsItem = true

theorem surrounded_append (front tokens back : List Token) {t : Token} (ht : t.endsItem = true) :
    Surrounded tokens (front ++ (tokens ++ t :: back)) front.length where
  same i hi := by
    rw [List.getElem?_append_right (Nat.le_add_right _ _), Nat.add_sub_cancel_left,
      List.getElem?_append_left hi]
  ends t' h := by
    rw [List.getElem?_append_right (Nat.le_add_right _ _), Nat.add_sub_cancel_left,
      List.getElem?_append_right (Nat.le_refl _), Nat.sub_self] at h
    cases h
    exact ht

structure Place.Shifted (offset length : Nat) (p q : Place) : Prop where
  position : q.position = offset + p.position
  depth : q.depth = p.depth
  le : p.position ≤ length

namespace Place.Shifted
variable {offset length : Nat} {p q : Trail}

theorem advance (h : p.place.Shifted offset length q.place) (hlt : p.place.position < length) :
    p.advance.place.Shifted offset length q.advance.place :=
  ⟨congrArg Nat.succ h.position, h.depth, hlt⟩

theorem deepen (h : p.place.Shifted offset length q.place) :
    p.deepen.place.Shifted offset length q.deepen.place :=
  ⟨h.position, congrArg Nat.succ h.depth, h.le⟩

theorem restore (h : p.place.Shifted offset length q.place) (depth : Nat) :
    (p.restore depth).place.Shifted offset length (q.restore depth).place :=
  ⟨h.position, rfl, h.le⟩

end Place.Shifted

namespace Descent
variable {α β : Type} {limit offset floor length : Nat} {tokens outer : List Token} {p q : Trail}
  {t expected : Token}

section Lookup
variable (hsur : Surrounded tokens outer offset)
  (hpq : p.place.Shifted offset tokens.length q.place)
include hsur hpq

theorem lookup_some (h : tokens[p.place.position]? = some t) :
    outer[q.place.position]? = some t := by
  rw [hpq.position, hsur.same _ (List.getElem?_eq_some_iff.1 h).1, h]

theorem lookup_none (h : tokens[p.place.position]? = none)
    (ht : outer[q.place.position]? = some t) : t.endsItem = true := by
  have hend : p.place.position = tokens.length :=
    Nat.le_antisymm hpq.le (List.getElem?_eq_none_iff.1 h)
  rw [hpq.position, hend] at ht
  exact hsur.ends t ht

/-- What nothing that ends an item can be is there in both or in neither. -/
theorem lookup_bind (f : Token → Option α) (hf : ∀ t, t.endsItem = true → f t = none) :
    outer[q.place.position]?.bind f = tokens[p.place.position]?.bind f := by
  cases h : tokens[p.place.position]? with
  | some t => rw [lookup_some hsur hpq h]
  | none =>
    cases ht : outer[q.place.position]? with
    | none => rfl
    | some t => exact hf t (lookup_none hsur hpq h ht)

theorem lookup_iff (he : expected.endsItem = false) :
    outer[q.place.position]? = some expected ↔ tokens[p.place.position]? = some expected := by
  constructor
  · intro h
    cases ht : tokens[p.place.position]? with
    | some t => rw [← lookup_some hsur hpq ht, h]
    | none => exact absurd (lookup_none hsur hpq ht h) (by rw [he]; decide)
  · exact lookup_some hsur hpq

theorem lookup_iff_of_some (h : tokens[p.place.position]? = some t) :
    outer[q.place.position]? = some expected ↔ tokens[p.place.position]? = some expected := by
  rw [lookup_some hsur hpq h, h]

end Lookup

/-- Wherever the one descent succeeds the other does, with the same result and at the same place
among the tokens. -/
def Repeats (offset length floor : Nat) (m m' : Descent α) (p q : Trail) : Prop :=
  ∀ a p', outcome m p = some (.ok a, p') →
    floor ≤ p'.place.position ∧
      ∃ q', outcome m' q = some (.ok a, q') ∧ p'.place.Shifted offset length q'.place

section Rules
variable {m m' : Descent α} {a : α} {f f' : α → Descent β}

theorem Repeats.imp {lower : Nat} (h : Repeats offset length floor m m' p q)
    (hle : lower ≤ floor) : Repeats offset length lower m m' p q :=
  fun a p' ho => ⟨Nat.le_trans hle (h a p' ho).1, (h a p' ho).2⟩

theorem Repeats.of_failed {e : SyntaxError} {u : Trail} (h : outcome m p = some (.error e, u)) :
    Repeats offset length floor m m' p q :=
  fun a p' ho => by rw [h] at ho; cases ho

theorem Repeats.pure (h : p.place.Shifted offset length q.place) (hle : floor ≤ p.place.position) :
    Repeats offset length floor (Pure.pure a) (Pure.pure a) p q := by
  intro a p' ho
  cases ho
  exact ⟨hle, q, rfl, h⟩

theorem Repeats.bind {mid : Nat} (h : Repeats offset length mid m m' p q)
    (hf : ∀ a p' q', p'.place.Shifted offset length q'.place → mid ≤ p'.place.position →
      Repeats offset length floor (f a) (f' a) p' q') :
    Repeats offset length floor (m >>= f) (m' >>= f') p q := by
  intro b u ho
  rw [outcome_bind] at ho
  obtain ⟨⟨r, p'⟩, hm, ho⟩ := Option.bind_eq_some_iff.1 ho
  cases r with
  | error e => cases ho
  | ok a =>
    obtain ⟨hle, q', hq, hshift⟩ := h a p' hm
    obtain ⟨hfloor, v, hv, hend⟩ := hf a p' q' hshift hle b u ho
    refine ⟨hfloor, v, ?_, hend⟩
    rw [outcome_bind, hq]
    exact hv

theorem repeats_get_bind {f f' : Trail → Descent β}
    (h : Repeats offset length floor (f p) (f' q) p q) :
    Repeats offset length floor (get >>= f) (get >>= f') p q := by
  simpa only [Repeats, outcome_get_bind] using h

theorem repeats_modify_bind {g g' : Trail → Trail} {f f' : PUnit → Descent β}
    (h : Repeats offset length floor (f ()) (f' ()) (g p) (g' q)) :
    Repeats offset length floor (modify g >>= f) (modify g' >>= f') p q := by
  simpa only [Repeats, outcome_modify_bind] using h

theorem repeats_peek_bind {f f' : Option Token → Descent β}
    (h : Repeats offset length floor (f tokens[p.place.position]?) (f' outer[q.place.position]?)
      p q) :
    Repeats offset length floor (peek tokens >>= f) (peek outer >>= f') p q := by
  simpa only [Repeats, outcome_peek_bind] using h

theorem repeats_enter_bind {f f' : Unit → Descent β} (hd : q.place.depth = p.place.depth)
    (h : Repeats offset length floor (f ()) (f' ()) p.deepen q.deepen) :
    Repeats offset length floor (enter limit >>= f) (enter limit >>= f') p q := by
  unfold Repeats
  rw [outcome_enter_bind, outcome_enter_bind, hd]
  split
  · exact h
  · exact fun _ _ ho => nomatch ho

theorem repeats_leave_bind {f f' : Unit → Descent β} (hd : q.place.depth = p.place.depth)
    (h : ∀ depth, Repeats offset length floor (f ()) (f' ()) (p.restore depth) (q.restore depth)) :
    Repeats offset length floor (leave >>= f) (leave >>= f') p q := by
  unfold Repeats
  rw [outcome_leave_bind, outcome_leave_bind, hd]
  split
  · exact fun _ _ ho => nomatch ho
  · exact h _

theorem repeats_next_bind {f f' : Token → Descent β}
    (hsame : ∀ t, tokens[p.place.position]? = some t → outer[q.place.position]? = some t)
    (h : ∀ t, tokens[p.place.position]? = some t →
      Repeats offset length floor (f t) (f' t) p.advance q.advance) :
    Repeats offset length floor (next tokens >>= f) (next outer >>= f') p q := by
  unfold Repeats
  rw [outcome_next_bind, outcome_next_bind]
  cases ht : tokens[p.place.position]? with
  | none => exact fun _ _ ho => nomatch ho
  | some t =>
    rw [hsame t ht]
    exact h t ht

theorem repeats_eat_bind {f f' : Bool → Descent β}
    (hiff : outer[q.place.position]? = some expected ↔ tokens[p.place.position]? = some expected)
    (htrue : tokens[p.place.position]? = some expected →
      Repeats offset length floor (f true) (f' true) p.advance q.advance)
    (hfalse : Repeats offset length floor (f false) (f' false) p q) :
    Repeats offset length floor (eat tokens expected >>= f) (eat outer expected >>= f') p q := by
  unfold Repeats
  rw [outcome_eat_bind, outcome_eat_bind]
  by_cases h : tokens[p.place.position]? = some expected
  · rw [if_pos h, if_pos (hiff.2 h)]
    exact htrue h
  · rw [if_neg h, if_neg (mt hiff.1 h)]
    exact hfalse

theorem repeats_expect_bind {f f' : Unit → Descent β}
    (hsame : ∀ t, tokens[p.place.position]? = some t → outer[q.place.position]? = some t)
    (h : tokens[p.place.position]? = some expected →
      Repeats offset length floor (f ()) (f' ()) p.advance q.advance) :
    Repeats offset length floor (expect tokens expected >>= f) (expect outer expected >>= f')
      p q := by
  unfold Repeats
  rw [outcome_expect_bind, outcome_expect_bind]
  cases ht : tokens[p.place.position]? with
  | none => exact fun _ _ ho => nomatch ho
  | some t =>
    rw [hsame t ht]
    dsimp only
    split
    · rename_i heq
      exact h (heq ▸ ht)
    · exact fun _ _ ho => nomatch ho

end Rules

def reached (i : Nat) (r : Routine) : Nat :=
  if r.isLoop then i else i + 1

theorem le_reached (i : Nat) (r : Routine) : i ≤ reached i r := by
  unfold reached
  split
  · exact Nat.le_refl _
  · exact Nat.le_succ i

def Repeating (offset : Nat) (tokens : List Token) (call call' : Routine → Descent Expr) : Prop :=
  ∀ r p q, p.place.Shifted offset tokens.length q.place →
    Repeats offset tokens.length (reached p.place.position r) (call r) (call' r) p q

/-- Behind an item that ends with the tokens neither of the two can come. -/
theorem repeats_after_item {m m' : Descent α} {a : α} {symbol : Symbol}
    (hsur : Surrounded tokens outer offset)
    (hpq : p.place.Shifted offset tokens.length q.place) (hle : floor ≤ p.place.position)
    (hcomma : tokens[p.place.position]? = some (.symbol .comma) →
      Repeats offset tokens.length floor m m' p.advance q.advance) :
    Repeats offset tokens.length floor
      (do if ← eat tokens (.symbol .comma) then m else do expect tokens (.symbol symbol); return a)
      (do if ← eat outer (.symbol .comma) then m' else do expect outer (.symbol symbol); return a)
      p q := by
  cases htoken : tokens[p.place.position]? with
  | none =>
    refine .of_failed (e := .unfinished) (u := p) ?_
    rw [outcome_eat_bind, if_neg (by simp [htoken]), if_neg (by decide),
      outcome_expect_bind, htoken]
  | some token =>
    refine repeats_eat_bind (lookup_iff_of_some hsur hpq htoken) hcomma ?_
    refine repeats_expect_bind (fun _ => lookup_some hsur hpq) fun hclose => ?_
    exact .pure (hpq.advance (position_lt hclose)) (Nat.le_succ_of_le hle)

section Bodies
variable {call call' : Routine → Descent Expr} {n base : Nat} {left target : Expr}
  {kind : ListKind} {reversed : List Expr} {entries : List (String × Expr)}
  (hcall : Repeating offset tokens call call') (hsur : Surrounded tokens outer offset)
  (hpq : p.place.Shifted offset tokens.length q.place)
include hcall

theorem Repeating.last {r : Routine} (hpq : p.place.Shifted offset tokens.length q.place)
    (hle : floor ≤ p.place.position) :
    Repeats offset tokens.length floor (call r) (call' r) p q :=
  (hcall r p q hpq).imp (Nat.le_trans hle (le_reached _ r))

theorem body_expression_repeats (hpq : p.place.Shifted offset tokens.length q.place) :
    Repeats offset tokens.length (p.place.position + 1) (body limit tokens call .expression)
      (body limit outer call' .expression) p q := by
  simp only [body]
  refine repeats_enter_bind hpq.depth ?_
  refine (hcall (.level 0) p.deepen q.deepen hpq.deepen).bind fun e u v huv hle => ?_
  exact repeats_leave_bind huv.depth fun depth => .pure (huv.restore depth) hle

theorem body_level_repeats (hpq : p.place.Shifted offset tokens.length q.place) :
    Repeats offset tokens.length (p.place.position + 1) (body limit tokens call (.level n))
      (body limit outer call' (.level n)) p q := by
  simp only [body]
  refine repeats_get_bind ?_
  rw [hpq.depth]
  refine (hcall (.operand n) p q hpq).bind fun left u v huv hle => ?_
  rw [reached, Routine.isLoop_operand] at hle
  exact hcall.last huv hle

theorem body_access_repeats (hpq : p.place.Shifted offset tokens.length q.place) :
    Repeats offset tokens.length (p.place.position + 1) (body limit tokens call .access)
      (body limit outer call' .access) p q := by
  simp only [body]
  refine repeats_get_bind ?_
  rw [hpq.depth]
  exact (hcall .primary p q hpq).bind fun target u v huv hle => hcall.last huv hle

include hsur

theorem body_operators_repeats (hpq : p.place.Shifted offset tokens.length q.place) :
    Repeats offset tokens.length p.place.position
      (body limit tokens call (.operators n base left))
      (body limit outer call' (.operators n base left)) p q := by
  simp only [body]
  refine repeats_peek_bind ?_
  rw [lookup_bind hsur hpq _ fun _ => Token.binaryOp?_of_endsItem n]
  cases hop : tokens[p.place.position]?.bind (Token.binaryOp? n) with
  | none => exact repeats_modify_bind (.pure (hpq.restore base) (Nat.le_refl _))
  | some op =>
    obtain ⟨token, htoken, -⟩ := Option.bind_eq_some_iff.1 hop
    have hnext := hpq.advance (position_lt htoken)
    refine repeats_modify_bind (repeats_enter_bind hnext.depth ?_)
    refine (hcall (.operand n) _ _ hnext.deepen).bind fun right u v huv hle => ?_
    exact hcall.last huv (Nat.le_trans (Nat.le_trans (Nat.le_succ _) (le_reached _ _)) hle)

theorem body_unary_repeats (hpq : p.place.Shifted offset tokens.length q.place) :
    Repeats offset tokens.length (p.place.position + 1) (body limit tokens call .unary)
      (body limit outer call' .unary) p q := by
  simp only [body]
  refine repeats_peek_bind ?_
  rw [lookup_bind hsur hpq _ fun _ => Token.unaryOp?_of_endsItem]
  cases hop : tokens[p.place.position]?.bind Token.unaryOp? with
  | none => exact hcall .access p q hpq
  | some op =>
    obtain ⟨token, htoken, -⟩ := Option.bind_eq_some_iff.1 hop
    have hnext := hpq.advance (position_lt htoken)
    refine repeats_modify_bind (repeats_enter_bind hnext.depth ?_)
    refine (hcall .unary _ _ hnext.deepen).bind fun operand u v huv hle => ?_
    exact repeats_leave_bind huv.depth fun depth =>
      .pure (huv.restore depth) (Nat.le_trans (Nat.le_succ _) hle)

theorem body_steps_repeats (hpq : p.place.Shifted offset tokens.length q.place) :
    Repeats offset tokens.length p.place.position (body limit tokens call (.steps base target))
      (body limit outer call' (.steps base target)) p q := by
  simp only [body]
  refine repeats_eat_bind (lookup_iff hsur hpq rfl) (fun hdot => ?_) ?_
  · have hnext := hpq.advance (position_lt hdot)
    refine repeats_enter_bind hnext.depth ?_
    refine repeats_next_bind (fun _ => lookup_some hsur hnext.deepen) fun token htoken => ?_
    have hnamed := hnext.deepen.advance (position_lt htoken)
    cases token with
    | word name => exact hcall.last hnamed (Nat.le_succ_of_le (Nat.le_succ _))
    | _ => exact .of_failed rfl
  · refine repeats_eat_bind (lookup_iff hsur hpq rfl) (fun hbracket => ?_) ?_
    · have hnext := hpq.advance (position_lt hbracket)
      refine repeats_enter_bind hnext.depth ?_
      refine (hcall .expression _ _ hnext.deepen).bind fun e u v huv hle => ?_
      refine repeats_expect_bind (fun _ => lookup_some hsur huv) fun hclose => ?_
      exact hcall.last (huv.advance (position_lt hclose))
        (Nat.le_succ_of_le (Nat.le_trans (Nat.le_succ_of_le (Nat.le_succ _)) hle))
    · exact repeats_modify_bind (.pure (hpq.restore base) (Nat.le_refl _))

theorem body_primary_repeats (hpq : p.place.Shifted offset tokens.length q.place) :
    Repeats offset tokens.length (p.place.position + 1) (body limit tokens call .primary)
      (body limit outer call' .primary) p q := by
  simp only [body]
  refine repeats_next_bind (fun _ => lookup_some hsur hpq) fun token htoken => ?_
  have hnext := hpq.advance (position_lt htoken)
  have hle : p.place.position + 1 ≤ p.advance.place.position := Nat.le_refl _
  split
  · exact .pure hnext hle
  · exact .pure hnext hle
  · split
    · exact .pure hnext hle
    · split
      · exact .of_failed rfl
      · refine repeats_eat_bind (lookup_iff hsur hnext rfl) (fun hparen => ?_) (.pure hnext hle)
        exact hcall.last (hnext.advance (position_lt hparen)) (Nat.le_succ_of_le hle)
  · refine (hcall .expression _ _ hnext).bind fun e u v huv hreached => ?_
    refine repeats_expect_bind (fun _ => lookup_some hsur huv) fun hclose => ?_
    exact .pure (huv.advance (position_lt hclose))
      (Nat.le_succ_of_le (Nat.le_trans (Nat.le_succ_of_le hle) hreached))
  · exact hcall.last hnext hle
  · exact hcall.last hnext hle
  · exact .of_failed rfl

theorem body_list_repeats (hpq : p.place.Shifted offset tokens.length q.place) :
    Repeats offset tokens.length (p.place.position + 1)
      (body limit tokens call (.list kind reversed)) (body limit outer call' (.list kind reversed))
      p q := by
  simp only [body]
  cases htoken : tokens[p.place.position]? with
  | none =>
    -- The list may end in the other tokens, but here no item can be read.
    intro a p' ho
    rw [outcome_eat_bind, if_neg (by simp [htoken]), if_neg (by decide),
      outcome_bind] at ho
    obtain ⟨⟨r, u⟩, hcalled, ho⟩ := Option.bind_eq_some_iff.1 ho
    cases r with
    | error e => cases ho
    | ok e =>
      obtain ⟨hle, v, -, huv⟩ := hcall .expression p q hpq e u hcalled
      have hend := List.getElem?_eq_none_iff.1 htoken
      have hpast : p.place.position + 1 ≤ u.place.position := hle
      have hwithin := huv.le
      omega
  | some token =>
    refine repeats_eat_bind (lookup_iff_of_some hsur hpq htoken) (fun hclose => ?_) ?_
    · exact .pure (hpq.advance (position_lt hclose)) (Nat.le_refl _)
    · refine (hcall .expression p q hpq).bind fun e u v huv hle => ?_
      refine repeats_after_item hsur huv hle fun hcomma => ?_
      exact hcall.last (huv.advance (position_lt hcomma)) (Nat.le_succ_of_le hle)

theorem body_object_repeats (hpq : p.place.Shifted offset tokens.length q.place) :
    Repeats offset tokens.length (p.place.position + 1) (body limit tokens call (.object entries))
      (body limit outer call' (.object entries)) p q := by
  simp only [body]
  cases htoken : tokens[p.place.position]? with
  | none =>
    refine .of_failed (e := .unfinished) (u := p) ?_
    rw [outcome_eat_bind, if_neg (by simp [htoken]), if_neg (by decide),
      outcome_next_bind, htoken]
  | some token =>
    refine repeats_eat_bind (lookup_iff_of_some hsur hpq htoken) (fun hclose => ?_) ?_
    · exact .pure (hpq.advance (position_lt hclose)) (Nat.le_refl _)
    · refine repeats_next_bind (fun _ => lookup_some hsur hpq) fun token htoken => ?_
      have hkey := hpq.advance (position_lt htoken)
      split
      · exact .of_failed rfl
      · refine repeats_expect_bind (fun _ => lookup_some hsur hkey) fun hcolon => ?_
        have hvalue := hkey.advance (position_lt hcolon)
        refine (hcall .expression _ _ hvalue).bind fun e u v huv hle => ?_
        have hreached : p.place.position + 1 ≤ u.place.position :=
          Nat.le_trans (Nat.le_succ_of_le (Nat.le_succ _)) hle
        refine repeats_after_item hsur huv hreached fun hcomma => ?_
        exact hcall.last (huv.advance (position_lt hcomma)) (Nat.le_succ_of_le hreached)

omit hsur in
theorem body_repeats (hsur : Surrounded tokens outer offset) :
    Repeating offset tokens (body limit tokens call) (body limit outer call') := by
  intro r p q hpq
  cases r with
  | expression => exact body_expression_repeats hcall hpq
  | level n => exact body_level_repeats hcall hpq
  | operators n base left => exact body_operators_repeats hcall hsur hpq
  | unary => exact body_unary_repeats hcall hsur hpq
  | access => exact body_access_repeats hcall hpq
  | steps base target => exact body_steps_repeats hcall hsur hpq
  | primary => exact body_primary_repeats hcall hsur hpq
  | list kind reversed => exact body_list_repeats hcall hsur hpq
  | object entries => exact body_object_repeats hcall hsur hpq

end Bodies

theorem callWithin_repeats (limit : Nat) (hsur : Surrounded tokens outer offset)
    {calls calls' : Nat} (hle : calls ≤ calls') :
    Repeating offset tokens (callWithin limit tokens calls) (callWithin limit outer calls') := by
  induction calls generalizing calls' with
  | zero => exact fun _ _ _ _ _ _ ho => nomatch ho
  | succ calls ih =>
    obtain ⟨more, rfl⟩ := Nat.exists_eq_add_of_le' hle
    exact body_repeats (ih (Nat.le_add_left _ _)) hsur

end Descent
end PromptLoop.Script
