import PromptLoop.Proofs.Script.Descent.Outcome

set_option autoImplicit false

/-!
# The depth of a descent

A routine may be called at any place within the limit. It comes to an end, stays within the limit
and never goes below the depth that it has to come back to, and it is at that depth if it succeeds
(`callWithin_neutral`). Every level that it leaves has been entered, because a descent would come to
nothing otherwise.

The calls inside one another are bounded by `Routine.cost`: a call at the same place is one of a
lower rank.
-/
namespace PromptLoop.Script

def Routine.base (depth : Nat) : Routine → Nat
  | .operators _ base _ => base
  | .steps base _ => base
  | _ => depth

/-- What goes on with an operand that has been read may read no further token. -/
def Routine.isLoop : Routine → Bool
  | .operators _ _ _ => true
  | .steps _ _ => true
  | _ => false

def Routine.rank : Routine → Nat
  | .list _ _ => 10
  | .expression => 9
  | .level n => 3 + (5 - n)
  | .unary => 2
  | .access => 1
  | _ => 0

def Routine.cost (length : Nat) (r : Routine) (p : Place) : Nat :=
  11 * (length - p.position) + r.rank

theorem Routine.rank_lt (r : Routine) : r.rank < 11 := by
  cases r <;> simp only [rank] <;> omega

theorem Routine.rank_operand (n : Nat) : (Routine.operand n).rank < (Routine.level n).rank := by
  unfold operand
  split <;> simp only [rank] <;> omega

theorem Routine.cost_lt_of_rank {length : Nat} {r s : Routine} {p q : Place}
    (hp : q.position = p.position) (hr : s.rank < r.rank) : s.cost length q < r.cost length p := by
  simp only [cost, hp]
  omega

theorem Routine.cost_lt_of_position {length : Nat} {p q : Place} (r s : Routine)
    (hp : p.position < q.position) (hq : q.position ≤ length) :
    s.cost length q < r.cost length p := by
  have hs := s.rank_lt
  simp only [cost]
  omega

@[simp] theorem Routine.base_operand (depth n : Nat) : (operand n).base depth = depth := by
  unfold operand
  split <;> rfl

@[simp] theorem Routine.isLoop_operand (n : Nat) : (operand n).isLoop = false := by
  unfold operand
  split <;> rfl

structure Place.Between (low limit last : Nat) (p : Place) : Prop where
  low_le : low ≤ p.depth
  le_limit : p.depth ≤ limit
  le_last : p.position ≤ last

/-- A trail goes on between two depths, and never back among the tokens. -/
inductive Trail.GoesOn (low limit last : Nat) (t : Trail) : Trail → Prop where
  | refl (h : t.place.Between low limit last) : GoesOn low limit last t t
  | move {t' : Trail} {p : Place} (h : GoesOn low limit last t t') (hp : p.Between low limit last)
      (hle : t'.place.position ≤ p.position) : GoesOn low limit last t (t'.moveTo p)

namespace Trail.GoesOn
variable {low limit last : Nat} {t t' t'' : Trail}

theorem between (h : t.GoesOn low limit last t') : t'.place.Between low limit last := by
  cases h with
  | refl h => exact h
  | move _ hp _ => exact hp

theorem position_le (h : t.GoesOn low limit last t') : t.place.position ≤ t'.place.position := by
  induction h with
  | refl _ => exact Nat.le_refl _
  | move _ _ hle ih => exact Nat.le_trans ih hle

theorem trans (h : t.GoesOn low limit last t') (h' : t'.GoesOn low limit last t'') :
    t.GoesOn low limit last t'' := by
  induction h' with
  | refl _ => exact h
  | move _ hp hle ih => exact ih.move hp hle

theorem weaken {lower : Nat} (h : t.GoesOn low limit last t') (hl : lower ≤ low) :
    t.GoesOn lower limit last t' := by
  have hbetween {p : Place} (hp : p.Between low limit last) : p.Between lower limit last :=
    ⟨Nat.le_trans hl hp.low_le, hp.le_limit, hp.le_last⟩
  induction h with
  | refl h => exact .refl (hbetween h)
  | move _ hp hle ih => exact ih.move (hbetween hp) hle

theorem advance (h : t.GoesOn low limit last t') (hlt : t'.place.position < last) :
    t.GoesOn low limit last t'.advance :=
  h.move ⟨h.between.low_le, h.between.le_limit, hlt⟩ (Nat.le_succ _)

theorem deepen (h : t.GoesOn low limit last t') (hlt : t'.place.depth < limit) :
    t.GoesOn low limit last t'.deepen :=
  h.move ⟨Nat.le_succ_of_le h.between.low_le, hlt, h.between.le_last⟩ (Nat.le_refl _)

theorem restore {depth : Nat} (h : t.GoesOn low limit last t') (hlow : low ≤ depth)
    (hlimit : depth ≤ limit) : t.GoesOn low limit last (t'.restore depth) :=
  h.move ⟨hlow, hlimit, h.between.le_last⟩ (Nat.le_refl _)

/-- The places that a trail goes through. -/
theorem exists_seen (h : t.GoesOn low limit last t') :
    ∃ seen, t'.places = seen ++ t.places ∧ (∀ p ∈ seen, p.Between low limit last) ∧
      (seen ++ [t.place]).Pairwise fun later earlier => earlier.position ≤ later.position := by
  induction h with
  | refl _ => exact ⟨[], rfl, by simp, by simp⟩
  | @move t' p h hp hle ih =>
    obtain ⟨seen, heq, hbetween, hsorted⟩ := ih
    refine ⟨p :: seen, congrArg (p :: ·) heq, ?_, ?_⟩
    · simpa using ⟨hp, hbetween⟩
    · refine List.pairwise_cons.2 ⟨fun earlier hmem => ?_, hsorted⟩
      -- The place in front of the new one is the last of those, so it is behind all of them.
      refine Nat.le_trans ?_ hle
      cases seen with
      | nil =>
        obtain rfl : earlier = t.place := by simpa using hmem
        exact h.position_le
      | cons q seen =>
        obtain ⟨hq, -⟩ := List.cons.inj heq
        rw [hq]
        rcases List.mem_cons.1 hmem with rfl | hmem
        · exact Nat.le_refl _
        · exact (List.pairwise_cons.1 hsorted).1 earlier hmem

end Trail.GoesOn

namespace Descent
variable {limit bound : Nat} {tokens : List Token} {r s : Routine} {t u : Trail}
  {call : Routine → Descent Expr}

/-- How a routine ends that was called at the end of a trail. -/
structure Neutral (limit : Nat) (tokens : List Token) (r : Routine) (t : Trail)
    (result : Except SyntaxError Expr) (u : Trail) : Prop where
  goes : t.GoesOn (r.base t.place.depth) limit tokens.length u
  back : ∀ e, result = .ok e → u.place.depth = r.base t.place.depth
  reads : ∀ e, result = .ok e → r.isLoop = false → t.place.position < u.place.position

theorem Neutral.failed {e : SyntaxError}
    (h : t.GoesOn (r.base t.place.depth) limit tokens.length u) :
    Neutral limit tokens r t (.error e) u :=
  ⟨h, by simp, by simp⟩

theorem Neutral.done {e : Expr} (h : t.GoesOn (r.base t.place.depth) limit tokens.length u)
    (hback : u.place.depth = r.base t.place.depth)
    (hreads : r.isLoop = false → t.place.position < u.place.position) :
    Neutral limit tokens r t (.ok e) u :=
  ⟨h, fun _ _ => hback, fun _ _ => hreads⟩

/-- What the calls keep that are no costlier than a bound. -/
def Neutrally (limit : Nat) (tokens : List Token) (bound : Nat) (call : Routine → Descent Expr) :
    Prop :=
  ∀ r t, t.place.Between (r.base t.place.depth) limit tokens.length →
    r.cost tokens.length t.place < bound → Ensures False (call r) t (Neutral limit tokens r t)

theorem base_of_not_loop (hs : s.isLoop = false) (depth : Nat) : s.base depth = depth := by
  cases s <;> first | rfl | cases hs

section Calls
variable (hcall : Neutrally limit tokens bound call)
  (hcost : r.cost tokens.length t.place ≤ bound)
  (h : t.GoesOn (r.base t.place.depth) limit tokens.length u)
include hcall hcost h

/-- A call that is followed by something else comes back to the depth that it was made at. -/
theorem Neutrally.bind {f : Expr → Descent Expr} (hs : s.isLoop = false)
    (hless : s.cost tokens.length u.place < r.cost tokens.length t.place)
    (hok : ∀ e v, t.GoesOn (r.base t.place.depth) limit tokens.length v →
      v.place.depth = u.place.depth → t.place.position < v.place.position →
        Ensures False (f e) v (Neutral limit tokens r t)) :
    Ensures False (call s >>= f) u (Neutral limit tokens r t) := by
  have hbase := base_of_not_loop hs u.place.depth
  have hstart : u.place.Between (s.base u.place.depth) limit tokens.length :=
    ⟨Nat.le_of_eq hbase, h.between.le_limit, h.between.le_last⟩
  have hgoes {v : Trail} (hv : u.GoesOn (s.base u.place.depth) limit tokens.length v) :
      t.GoesOn (r.base t.place.depth) limit tokens.length v := by
    rw [hbase] at hv
    exact h.trans (hv.weaken h.between.low_le)
  refine (hcall s u hstart (Nat.lt_of_lt_of_le hless hcost)).bind
    (fun e v hv => .failed (hgoes hv.goes)) fun e v hv => ?_
  exact hok e v (hgoes hv.goes) ((hv.back e rfl).trans hbase)
    (Nat.lt_of_le_of_lt h.position_le (hv.reads e rfl hs))

theorem Neutrally.bind_lower {f : Expr → Descent Expr} (hs : s.isLoop = false)
    (hsame : u.place.position = t.place.position) (hrank : s.rank < r.rank)
    (hok : ∀ e v, t.GoesOn (r.base t.place.depth) limit tokens.length v →
      v.place.depth = u.place.depth → t.place.position < v.place.position →
        Ensures False (f e) v (Neutral limit tokens r t)) :
    Ensures False (call s >>= f) u (Neutral limit tokens r t) :=
  hcall.bind hcost h hs (Routine.cost_lt_of_rank hsame hrank) hok

theorem Neutrally.bind_later {f : Expr → Descent Expr} (hs : s.isLoop = false)
    (hlater : t.place.position < u.place.position)
    (hok : ∀ e v, t.GoesOn (r.base t.place.depth) limit tokens.length v →
      v.place.depth = u.place.depth → t.place.position < v.place.position →
        Ensures False (f e) v (Neutral limit tokens r t)) :
    Ensures False (call s >>= f) u (Neutral limit tokens r t) :=
  hcall.bind hcost h hs (Routine.cost_lt_of_position r s hlater h.between.le_last) hok

theorem Neutrally.last (hbase : s.base u.place.depth = r.base t.place.depth)
    (hless : s.cost tokens.length u.place < r.cost tokens.length t.place)
    (hreads : s.isLoop = true → r.isLoop = false → t.place.position < u.place.position) :
    Ensures False (call s) u (Neutral limit tokens r t) := by
  have hstart : u.place.Between (s.base u.place.depth) limit tokens.length :=
    ⟨hbase ▸ h.between.low_le, h.between.le_limit, h.between.le_last⟩
  refine (hcall s u hstart (Nat.lt_of_lt_of_le hless hcost)).imp fun result v hv => ⟨?_, ?_, ?_⟩
  · exact h.trans (hbase ▸ hv.goes)
  · exact fun e he => (hv.back e he).trans hbase
  · intro e he hr
    cases hs : s.isLoop with
    | false => exact Nat.lt_of_le_of_lt h.position_le (hv.reads e he hs)
    | true => exact Nat.lt_of_lt_of_le (hreads hs hr) hv.goes.position_le

theorem Neutrally.last_later (hbase : s.base u.place.depth = r.base t.place.depth)
    (hlater : t.place.position < u.place.position) :
    Ensures False (call s) u (Neutral limit tokens r t) :=
  hcall.last hcost h hbase (Routine.cost_lt_of_position r s hlater h.between.le_last)
    fun _ _ => hlater

end Calls

theorem position_lt {token : Token} {i : Nat} (h : tokens[i]? = some token) : i < tokens.length :=
  (List.getElem?_eq_some_iff.1 h).1

theorem ensures_expect_neutral {symbol : Symbol} {f : Unit → Descent Expr}
    (h : t.GoesOn (r.base t.place.depth) limit tokens.length u)
    (hok : t.GoesOn (r.base t.place.depth) limit tokens.length u.advance →
      Ensures False (f ()) u.advance (Neutral limit tokens r t)) :
    Ensures False (expect tokens (.symbol symbol) >>= f) u (Neutral limit tokens r t) := by
  rw [ensures_expect_bind]
  split
  · rename_i token htoken
    have hnext := h.advance (position_lt htoken)
    split
    · exact hok hnext
    · exact .failed hnext
  · exact .failed h

section Bodies
variable {n base : Nat} {left target : Expr} {kind : ListKind} {reversed : List Expr}
  {entries : List (String × Expr)} (hcall : Neutrally limit tokens bound call)
include hcall

theorem body_expression_neutral (hstart : t.place.Between t.place.depth limit tokens.length)
    (hcost : Routine.expression.cost tokens.length t.place ≤ bound) :
    Ensures False (body limit tokens call .expression) t (Neutral limit tokens .expression t) := by
  have hrefl : t.GoesOn t.place.depth limit tokens.length t := .refl hstart
  simp only [body]
  rw [ensures_enter_bind]
  split
  · rename_i hlt
    refine hcall.bind_lower (s := .level 0) hcost (hrefl.deepen hlt) rfl rfl (by decide) ?_
    intro e u hu hd hp
    rw [ensures_leave_bind, hd]
    exact .done (hu.restore (Nat.le_refl _) hstart.le_limit) rfl fun _ => hp
  · exact .failed hrefl

theorem body_level_neutral (hstart : t.place.Between t.place.depth limit tokens.length)
    (hcost : (Routine.level n).cost tokens.length t.place ≤ bound) :
    Ensures False (body limit tokens call (.level n)) t (Neutral limit tokens (.level n) t) := by
  have hrefl : t.GoesOn t.place.depth limit tokens.length t := .refl hstart
  simp only [body]
  rw [ensures_get_bind]
  refine hcall.bind_lower hcost hrefl (Routine.isLoop_operand n) rfl (Routine.rank_operand n) ?_
  intro left u hu hd hp
  exact hcall.last_later hcost hu rfl hp

theorem body_operators_neutral (hstart : t.place.Between base limit tokens.length)
    (hcost : (Routine.operators n base left).cost tokens.length t.place ≤ bound)
    (hbase : base ≤ limit) :
    Ensures False (body limit tokens call (.operators n base left)) t
      (Neutral limit tokens (.operators n base left) t) := by
  have hrefl : t.GoesOn base limit tokens.length t := .refl hstart
  simp only [body]
  rw [ensures_peek_bind]
  cases hop : tokens[t.place.position]?.bind (Token.binaryOp? n) with
  | none =>
    dsimp only
    rw [ensures_modify_bind]
    exact .done (hrefl.restore (Nat.le_refl _) hbase) rfl (fun h => nomatch h)
  | some op =>
    dsimp only
    rw [ensures_modify_bind, ensures_enter_bind]
    obtain ⟨token, htoken, -⟩ := Option.bind_eq_some_iff.1 hop
    have hnext := hrefl.advance (position_lt htoken)
    split
    · rename_i hlt
      refine hcall.bind_later hcost (hnext.deepen hlt) (Routine.isLoop_operand n)
        (Nat.lt_succ_self _) ?_
      intro right u hu hd hp
      exact hcall.last_later hcost hu rfl hp
    · exact .failed hnext

theorem body_unary_neutral (hstart : t.place.Between t.place.depth limit tokens.length)
    (hcost : Routine.unary.cost tokens.length t.place ≤ bound) :
    Ensures False (body limit tokens call .unary) t (Neutral limit tokens .unary t) := by
  have hrefl : t.GoesOn t.place.depth limit tokens.length t := .refl hstart
  simp only [body]
  rw [ensures_peek_bind]
  cases hop : tokens[t.place.position]?.bind Token.unaryOp? with
  | none =>
    exact hcall.last (s := .access) hcost hrefl rfl (Routine.cost_lt_of_rank rfl (by decide))
      (fun h => nomatch h)
  | some op =>
    dsimp only
    rw [ensures_modify_bind, ensures_enter_bind]
    obtain ⟨token, htoken, -⟩ := Option.bind_eq_some_iff.1 hop
    have hnext := hrefl.advance (position_lt htoken)
    split
    · rename_i hlt
      refine hcall.bind_later (s := .unary) hcost (hnext.deepen hlt) rfl (Nat.lt_succ_self _) ?_
      intro operand u hu hd hp
      rw [ensures_leave_bind, hd]
      exact .done (hu.restore (Nat.le_refl _) hstart.le_limit) rfl fun _ => hp
    · exact .failed hnext

theorem body_access_neutral (hstart : t.place.Between t.place.depth limit tokens.length)
    (hcost : Routine.access.cost tokens.length t.place ≤ bound) :
    Ensures False (body limit tokens call .access) t (Neutral limit tokens .access t) := by
  have hrefl : t.GoesOn t.place.depth limit tokens.length t := .refl hstart
  simp only [body]
  rw [ensures_get_bind]
  refine hcall.bind_lower (s := .primary) hcost hrefl rfl rfl (by decide) ?_
  intro target u hu hd hp
  exact hcall.last_later hcost hu rfl hp

theorem body_steps_neutral (hstart : t.place.Between base limit tokens.length)
    (hcost : (Routine.steps base target).cost tokens.length t.place ≤ bound)
    (hbase : base ≤ limit) :
    Ensures False (body limit tokens call (.steps base target)) t
      (Neutral limit tokens (.steps base target) t) := by
  have hrefl : t.GoesOn base limit tokens.length t := .refl hstart
  simp only [body]
  rw [ensures_eat_bind]
  split
  · rename_i hdot
    have hnext := hrefl.advance (position_lt hdot)
    rw [if_pos rfl, ensures_enter_bind]
    split
    · rename_i hlt
      rw [ensures_next_bind]
      split
      · rename_i token htoken
        have hnamed := (hnext.deepen hlt).advance (position_lt htoken)
        cases token with
        | word name =>
          exact hcall.last_later hcost hnamed rfl (Nat.lt_succ_of_lt (Nat.lt_succ_self _))
        | _ => exact .failed hnamed
      · exact .failed (hnext.deepen hlt)
    · exact .failed hnext
  · rw [if_neg (by decide), ensures_eat_bind]
    split
    · rename_i hbracket
      have hnext := hrefl.advance (position_lt hbracket)
      rw [if_pos rfl, ensures_enter_bind]
      split
      · rename_i hlt
        refine hcall.bind_later (s := .expression) hcost (hnext.deepen hlt) rfl
          (Nat.lt_succ_self _) ?_
        intro position u hu hd hp
        refine ensures_expect_neutral hu fun hclosed => ?_
        exact hcall.last_later hcost hclosed rfl (Nat.lt_succ_of_lt hp)
      · exact .failed hnext
    · rw [if_neg (by decide), ensures_modify_bind]
      exact .done (hrefl.restore (Nat.le_refl _) hbase) rfl (fun h => nomatch h)

theorem body_primary_neutral (hstart : t.place.Between t.place.depth limit tokens.length)
    (hcost : Routine.primary.cost tokens.length t.place ≤ bound) :
    Ensures False (body limit tokens call .primary) t (Neutral limit tokens .primary t) := by
  have hrefl : t.GoesOn t.place.depth limit tokens.length t := .refl hstart
  simp only [body]
  rw [ensures_next_bind]
  split
  case h_2 => exact .failed hrefl
  case h_1 token htoken =>
    have hnext := hrefl.advance (position_lt htoken)
    have hlater : t.place.position < t.advance.place.position := Nat.lt_succ_self _
    have hleaf (e : Expr) : Neutral limit tokens .primary t (.ok e) t.advance :=
      .done hnext rfl fun _ => hlater
    split
    · exact hleaf _
    · exact hleaf _
    · split
      · exact hleaf _
      · split
        · exact .failed hnext
        · rw [ensures_eat_bind]
          split
          · rename_i hparen
            exact hcall.last_later hcost (hnext.advance (position_lt hparen)) rfl
              (Nat.lt_succ_of_lt hlater)
          · exact hleaf _
    · refine hcall.bind_later (s := .expression) hcost hnext rfl hlater fun e u hu hd hp => ?_
      refine ensures_expect_neutral hu fun hclosed => ?_
      exact .done hclosed hd fun _ => Nat.lt_succ_of_lt hp
    · exact hcall.last_later hcost hnext rfl hlater
    · exact hcall.last_later hcost hnext rfl hlater
    · exact .failed hnext

theorem body_list_neutral (hstart : t.place.Between t.place.depth limit tokens.length)
    (hcost : (Routine.list kind reversed).cost tokens.length t.place ≤ bound) :
    Ensures False (body limit tokens call (.list kind reversed)) t
      (Neutral limit tokens (.list kind reversed) t) := by
  have hrefl : t.GoesOn t.place.depth limit tokens.length t := .refl hstart
  simp only [body]
  rw [ensures_eat_bind]
  split
  · rename_i hclose
    exact .done (hrefl.advance (position_lt hclose)) rfl fun _ => Nat.lt_succ_self _
  · rw [if_neg (by decide)]
    refine hcall.bind_lower (s := .expression) hcost hrefl rfl rfl (Nat.lt_succ_self 9) ?_
    intro e u hu hd hp
    rw [ensures_eat_bind]
    split
    · rename_i hcomma
      exact hcall.last_later hcost (hu.advance (position_lt hcomma)) hd (Nat.lt_succ_of_lt hp)
    · rw [if_neg (by decide)]
      refine ensures_expect_neutral hu fun hclosed => ?_
      exact .done hclosed hd fun _ => Nat.lt_succ_of_lt hp

theorem body_object_neutral (hstart : t.place.Between t.place.depth limit tokens.length)
    (hcost : (Routine.object entries).cost tokens.length t.place ≤ bound) :
    Ensures False (body limit tokens call (.object entries)) t
      (Neutral limit tokens (.object entries) t) := by
  have hrefl : t.GoesOn t.place.depth limit tokens.length t := .refl hstart
  simp only [body]
  rw [ensures_eat_bind]
  split
  · rename_i hclose
    exact .done (hrefl.advance (position_lt hclose)) rfl fun _ => Nat.lt_succ_self _
  · rw [if_neg (by decide), ensures_next_bind]
    split
    case h_2 => exact .failed hrefl
    case h_1 token htoken =>
      have hkey := hrefl.advance (position_lt htoken)
      split
      · exact .failed hkey
      · refine ensures_expect_neutral hkey fun hcolon => ?_
        refine hcall.bind_later (s := .expression) hcost hcolon rfl
          (Nat.lt_succ_of_lt (Nat.lt_succ_self _)) fun e u hu hd hp => ?_
        rw [ensures_eat_bind]
        split
        · rename_i hcomma
          exact hcall.last_later hcost (hu.advance (position_lt hcomma)) hd (Nat.lt_succ_of_lt hp)
        · rw [if_neg (by decide)]
          refine ensures_expect_neutral hu fun hclosed => ?_
          exact .done hclosed hd fun _ => Nat.lt_succ_of_lt hp

end Bodies

/-- One call keeps what the calls keep that it makes. -/
theorem body_neutral (hcall : Neutrally limit tokens bound call) :
    Neutrally limit tokens (bound + 1) (body limit tokens call) := by
  intro r t hstart hlt
  have hcost := Nat.le_of_lt_succ hlt
  have hbase := Nat.le_trans hstart.low_le hstart.le_limit
  cases r with
  | expression => exact body_expression_neutral hcall hstart hcost
  | level n => exact body_level_neutral hcall hstart hcost
  | operators n base left => exact body_operators_neutral hcall hstart hcost hbase
  | unary => exact body_unary_neutral hcall hstart hcost
  | access => exact body_access_neutral hcall hstart hcost
  | steps base target => exact body_steps_neutral hcall hstart hcost hbase
  | primary => exact body_primary_neutral hcall hstart hcost
  | list kind reversed => exact body_list_neutral hcall hstart hcost
  | object entries => exact body_object_neutral hcall hstart hcost

theorem callWithin_neutral (limit : Nat) (tokens : List Token) (calls : Nat) :
    Neutrally limit tokens calls (callWithin limit tokens calls) := by
  induction calls with
  | zero => exact fun r t _ hcost => absurd hcost (Nat.not_lt_zero _)
  | succ calls ih => exact body_neutral ih

/-- There are always enough calls. -/
theorem call_neutral (hstart : t.place.Between (r.base t.place.depth) limit tokens.length) :
    Ensures False (Descent.call limit tokens r) t (Neutral limit tokens r t) := by
  refine callWithin_neutral limit tokens _ r t hstart ?_
  have hr := r.rank_lt
  simp only [Routine.cost]
  omega

end Descent
end PromptLoop.Script
