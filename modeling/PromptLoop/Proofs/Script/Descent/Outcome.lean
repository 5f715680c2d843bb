import PromptLoop.Script.Descent

set_option autoImplicit false

namespace PromptLoop.Script.Descent
variable {α β : Type} {m : Descent α} {t t' : Trail} {lost : Prop} {limit : Nat}
  {tokens : List Token} {expected : Token}

theorem outcome_bind (m : Descent α) (f : α → Descent β) (t : Trail) :
    outcome (m >>= f) t = (outcome m t).bind fun
      | (.ok a, t') => outcome (f a) t'
      | (.error e, t') => some (.error e, t') := by
  unfold outcome
  simp only [ExceptT.run_bind, StateT.run_bind]
  refine congrArg (Option.bind (m.run.run t)) (funext fun ⟨r, t'⟩ => ?_)
  cases r <;> rfl

theorem outcome_get_bind (f : Trail → Descent β) (t : Trail) :
    outcome (get >>= f) t = outcome (f t) t := outcome_bind _ _ _

theorem outcome_modify_bind (g : Trail → Trail) (f : PUnit → Descent β) (t : Trail) :
    outcome (modify g >>= f) t = outcome (f ()) (g t) := outcome_bind _ _ _

theorem outcome_peek_bind (f : Option Token → Descent β) (t : Trail) :
    outcome (peek tokens >>= f) t = outcome (f tokens[t.place.position]?) t := outcome_bind _ _ _

theorem outcome_next_bind (f : Token → Descent β) (t : Trail) :
    outcome (next tokens >>= f) t =
      match tokens[t.place.position]? with
      | some token => outcome (f token) t.advance
      | none => some (.error .unfinished, t) := by
  rw [outcome_bind]
  unfold next
  rw [outcome_peek_bind]
  cases tokens[t.place.position]? <;> rfl

theorem outcome_eat_bind (f : Bool → Descent β) (t : Trail) :
    outcome (eat tokens expected >>= f) t =
      if tokens[t.place.position]? = some expected then outcome (f true) t.advance
      else outcome (f false) t := by
  rw [outcome_bind]
  unfold eat
  rw [outcome_peek_bind]
  split <;> rfl

theorem outcome_expect_bind (f : Unit → Descent β) (t : Trail) :
    outcome (expect tokens expected >>= f) t =
      match tokens[t.place.position]? with
      | some token =>
        if token = expected then outcome (f ()) t.advance
        else some (.error (.malformed (.unexpected token)), t.advance)
      | none => some (.error .unfinished, t) := by
  rw [outcome_bind]
  unfold expect
  rw [outcome_next_bind]
  cases tokens[t.place.position]? with
  | none => rfl
  | some token =>
    dsimp only
    split <;> rfl

theorem outcome_enter_bind (f : Unit → Descent β) (t : Trail) :
    outcome (enter limit >>= f) t =
      if t.place.depth < limit then outcome (f ()) t.deepen
      else some (.error (.malformed .tooDeep), t) := by
  rw [outcome_bind]
  unfold enter
  rw [outcome_get_bind]
  split <;> rfl

theorem outcome_leave_bind (f : Unit → Descent β) (t : Trail) :
    outcome (leave >>= f) t =
      match t.place.depth with
      | 0 => none
      | depth + 1 => outcome (f ()) (t.restore depth) := by
  rw [outcome_bind]
  unfold leave
  rw [outcome_get_bind]
  cases t.place.depth <;> rfl

/-- The descent comes to what satisfies `post`. That it comes to nothing is left to `lost`. -/
def Ensures (lost : Prop) (m : Descent α) (t : Trail)
    (post : Except SyntaxError α → Trail → Prop) : Prop :=
  match outcome m t with
  | none => lost
  | some (r, t') => post r t'

section Judgement
variable {post post' : Except SyntaxError α → Trail → Prop}

theorem Ensures.of_outcome {r : Except SyntaxError α} (h : Ensures lost m t post)
    (ho : outcome m t = some (r, t')) : post r t' := by
  simpa only [Ensures, ho] using h

theorem Ensures.exists_outcome (h : Ensures False m t post) :
    ∃ r t', outcome m t = some (r, t') ∧ post r t' := by
  unfold Ensures at h
  split at h
  · exact h.elim
  · exact ⟨_, _, by assumption, h⟩

theorem Ensures.imp (h : Ensures lost m t post) (hp : ∀ r t', post r t' → post' r t') :
    Ensures lost m t post' := by
  unfold Ensures at h ⊢
  split at h
  · exact h
  · exact hp _ _ h

/-- What a descent comes to, if to anything, it comes to if it does. -/
theorem Ensures.total (h : Ensures False m t post) (h' : Ensures True m t post') :
    Ensures False m t post' := by
  obtain ⟨r, t', ho, -⟩ := h.exists_outcome
  have hpost := h'.of_outcome ho
  simpa only [Ensures, ho] using hpost

end Judgement

section Rules
variable {post : Except SyntaxError β → Trail → Prop} {f : α → Descent β}

theorem Ensures.bind {mid : Except SyntaxError α → Trail → Prop} (h : Ensures lost m t mid)
    (herror : ∀ e t', mid (.error e) t' → post (.error e) t')
    (hok : ∀ a t', mid (.ok a) t' → Ensures lost (f a) t' post) :
    Ensures lost (m >>= f) t post := by
  unfold Ensures at h ⊢
  rw [outcome_bind]
  split at h
  · rename_i hnone
    rwa [hnone]
  · rename_i r t' hsome
    rw [hsome]
    cases r with
    | error e => exact herror e t' h
    | ok a => exact hok a t' h

theorem ensures_get_bind (f : Trail → Descent β) :
    Ensures lost (get >>= f) t post ↔ Ensures lost (f t) t post := by
  simp only [Ensures, outcome_get_bind]

theorem ensures_modify_bind (g : Trail → Trail) (f : PUnit → Descent β) :
    Ensures lost (modify g >>= f) t post ↔ Ensures lost (f ()) (g t) post := by
  simp only [Ensures, outcome_modify_bind]

theorem ensures_peek_bind (f : Option Token → Descent β) :
    Ensures lost (peek tokens >>= f) t post ↔
      Ensures lost (f tokens[t.place.position]?) t post := by
  simp only [Ensures, outcome_peek_bind]

theorem ensures_next_bind (f : Token → Descent β) :
    Ensures lost (next tokens >>= f) t post ↔
      match tokens[t.place.position]? with
      | some token => Ensures lost (f token) t.advance post
      | none => post (.error .unfinished) t := by
  unfold Ensures
  rw [outcome_next_bind]
  cases tokens[t.place.position]? <;> rfl

theorem ensures_eat_bind (f : Bool → Descent β) :
    Ensures lost (eat tokens expected >>= f) t post ↔
      if tokens[t.place.position]? = some expected then Ensures lost (f true) t.advance post
      else Ensures lost (f false) t post := by
  unfold Ensures
  rw [outcome_eat_bind]
  by_cases h : tokens[t.place.position]? = some expected <;> simp only [h, if_true, if_false]

theorem ensures_expect_bind (f : Unit → Descent β) :
    Ensures lost (expect tokens expected >>= f) t post ↔
      match tokens[t.place.position]? with
      | some token =>
        if token = expected then Ensures lost (f ()) t.advance post
        else post (.error (.malformed (.unexpected token))) t.advance
      | none => post (.error .unfinished) t := by
  unfold Ensures
  rw [outcome_expect_bind]
  cases tokens[t.place.position]? with
  | none => rfl
  | some token => by_cases h : token = expected <;> simp only [h, if_true, if_false]

theorem ensures_enter_bind (f : Unit → Descent β) :
    Ensures lost (enter limit >>= f) t post ↔
      if t.place.depth < limit then Ensures lost (f ()) t.deepen post
      else post (.error (.malformed .tooDeep)) t := by
  unfold Ensures
  rw [outcome_enter_bind]
  by_cases h : t.place.depth < limit <;> simp only [h, if_true, if_false]

theorem ensures_leave_bind (f : Unit → Descent β) :
    Ensures lost (leave >>= f) t post ↔
      match t.place.depth with
      | 0 => lost
      | depth + 1 => Ensures lost (f ()) (t.restore depth) post := by
  unfold Ensures
  rw [outcome_leave_bind]
  cases t.place.depth <;> rfl

end Rules

end PromptLoop.Script.Descent
