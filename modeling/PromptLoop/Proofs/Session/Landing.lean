import PromptLoop.Session.Driver

set_option autoImplicit false

namespace PromptLoop

variable {U V : Type}

namespace Phase

def behindError (e : SessionError) : Phase :=
  if e.isFatal then .closing (.error e) else .reporting e

def behindTransform : Except SessionError (Option Value) → Phase
  | .error e => .behindError e
  | .ok none => .yielding
  | .ok (some v) => .printing v

def behindValue (transform : Option Transform) (v : Option Value) : Phase :=
  match v, transform with
  | none, _ => .yielding
  | some v, none => .printing v
  | some v, some f =>
    if (f v).after = some 0 then .behindTransform (f v).outcome else .transforming (f v)

def behindUnit (transform : Option Transform) (declaration : Option Declaration)
    (outcome : Except SessionError (Option Value)) : Phase :=
  match outcome, declaration with
  | .error e, _ => .behindError e
  | .ok v, none => .behindValue transform v
  | .ok v, some d => if d.silent then .yielding else .behindValue transform (some (v.getD .null))

def shows : Phase → Bool
  | .transforming _ => true
  | .printing _ => true
  | _ => false

def isPending : Phase → Bool
  | .pending _ _ _ => true
  | _ => false

end Phase

/-- The bindings behind a unit: only a value is bound, and only where a name is declared. -/
def Declaration.bindings (declaration : Option Declaration)
    (outcome : Except SessionError (Option Value)) (context : Bindings Value) : Bindings Value :=
  match outcome, declaration with
  | .ok v, some d => context.insert d.name (v.getD .null)
  | _, _ => context

structure Landing where
  phase : Phase
  context : Bindings Value
  accumulated : String

namespace Setup

def landing (setup : Setup U) (source : String) (context : Bindings Value) : Landing :=
  match setup.evaluator.compile source with
  | .incomplete => ⟨.yielding, context, source⟩
  | .fatal e => ⟨.behindError e, context, ""⟩
  | .ready unit declaration =>
    let (execution, context) := setup.evaluator.execute unit context
    match execution with
    | .immediate v => ⟨.behindUnit setup.transform declaration (.ok v),
        Declaration.bindings declaration (.ok v) context, ""⟩
    | .failed e => ⟨.behindError e, context, ""⟩
    | .pending d => ⟨.pending declaration d false, context, ""⟩

def withEvaluator (setup : Setup U) (evaluator : Evaluator V) : Setup V where
  evaluator := evaluator
  source := setup.source
  prompt := setup.prompt
  continuation := setup.continuation
  echo := setup.echo
  styled := setup.styled
  errorsStyled := setup.errorsStyled
  format := setup.format
  transform := setup.transform

@[simp] theorem withEvaluator_echo (setup : Setup U) (evaluator : Evaluator V) :
    (setup.withEvaluator evaluator).echo = setup.echo := rfl

@[simp] theorem withEvaluator_source (setup : Setup U) (evaluator : Evaluator V) :
    (setup.withEvaluator evaluator).source = setup.source := rfl

end Setup

namespace Session
variable (setup : Setup U) (s : Session)

def land (l : Landing) : Session :=
  { s with phase := l.phase, context := l.context, accumulated := l.accumulated }

theorem fail_eq (e : SessionError) : s.fail e = { s with phase := .behindError e } := by
  cases hf : e.isFatal with
  | true => simp [Session.fail, close, Phase.behindError, hf]
  | false => simp [Session.fail, Phase.behindError, hf]

theorem transformed_eq (outcome : Except SessionError (Option Value)) :
    s.transformed outcome = { s with phase := .behindTransform outcome } := by
  cases outcome with
  | error e => exact fail_eq s e
  | ok v => cases v <;> rfl

theorem present_eq (v : Option Value) :
    s.present setup v = { s with phase := .behindValue setup.transform v } := by
  cases v with
  | none => rfl
  | some v =>
    cases ht : setup.transform with
    | none => simp [Session.present, Phase.behindValue, ht]
    | some f =>
      by_cases ha : (f v).after = some 0
      · simp [Session.present, Phase.behindValue, ht, ha, transformed_eq]
      · simp [Session.present, Phase.behindValue, ht, ha]

theorem settled_eq (declaration : Option Declaration)
    (outcome : Except SessionError (Option Value)) :
    s.settled setup declaration outcome =
      { s with
        phase := .behindUnit setup.transform declaration outcome
        context := Declaration.bindings declaration outcome s.context } := by
  cases outcome with
  | error e => cases declaration <;> exact fail_eq s e
  | ok v =>
    cases declaration with
    | none => exact present_eq setup s v
    | some d =>
      by_cases hd : d.silent = true
      · simp [Session.settled, Phase.behindUnit, Declaration.bindings, hd, yield]
      · simp [Session.settled, Phase.behindUnit, Declaration.bindings, hd, present_eq]

theorem evaluate_eq (line : String) :
    s.evaluate setup line = s.land (setup.landing (s.accumulated ++ line) s.context) := by
  cases hc : setup.evaluator.compile (s.accumulated ++ line) with
  | incomplete => simp [Session.evaluate, Setup.landing, hc, yield, land]
  | fatal e => simp [Session.evaluate, Setup.landing, hc, fail_eq, land]
  | ready unit declaration =>
    cases hx : setup.evaluator.execute unit s.context with
    | mk execution context =>
      cases execution with
      | immediate v => simp [Session.evaluate, Setup.landing, hc, hx, settled_eq, land]
      | failed e => simp [Session.evaluate, Setup.landing, hc, hx, fail_eq, land]
      | pending d => simp [Session.evaluate, Setup.landing, hc, hx, land]

theorem receive_output (a : Answer) : (s.receive setup a).output = s.output := by
  unfold Session.receive
  split
  · split
    · rfl
    · split
      · rfl
      · rw [evaluate_eq]
        rfl
  · rfl
  · rfl

theorem read_output : (s.read setup).output = s.output := by
  unfold Session.read
  split
  · exact receive_output setup _ _
  · rfl
  · rfl

end Session

namespace Phase
variable {E : SessionError → Prop}

/-- The phases behind a unit whose errors, and those of the transform, are in `E`. -/
def Behind (E : SessionError → Prop) : Phase → Prop
  | .yielding => True
  | .printing _ => True
  | .reporting e => E e
  | .transforming d => ∀ e, d.outcome = .error e → E e
  | .closing r => ∃ e, r = .error e ∧ e.isFatal = true ∧ E e
  | _ => False

theorem behindError_behind {e : SessionError} (he : E e) : (behindError e).Behind E := by
  unfold behindError
  split
  · rename_i hf
    exact ⟨e, rfl, hf, he⟩
  · exact he

theorem behindTransform_behind {outcome : Except SessionError (Option Value)}
    (ho : ∀ e, outcome = .error e → E e) : (behindTransform outcome).Behind E := by
  cases outcome with
  | error e => exact behindError_behind (ho e rfl)
  | ok v => cases v <;> trivial

theorem behindValue_behind {transform : Option Transform}
    (ht : ∀ f v e, transform = some f → (f v).outcome = .error e → E e) (v : Option Value) :
    (behindValue transform v).Behind E := by
  cases v with
  | none => trivial
  | some v =>
    cases transform with
    | none => trivial
    | some f =>
      unfold behindValue
      dsimp only
      split
      · exact behindTransform_behind fun e => ht f v e rfl
      · exact fun e => ht f v e rfl

theorem behindUnit_behind {transform : Option Transform}
    (ht : ∀ f v e, transform = some f → (f v).outcome = .error e → E e)
    (declaration : Option Declaration) {outcome : Except SessionError (Option Value)}
    (ho : ∀ e, outcome = .error e → E e) :
    (behindUnit transform declaration outcome).Behind E := by
  cases outcome with
  | error e => cases declaration <;> exact behindError_behind (ho e rfl)
  | ok v =>
    cases declaration with
    | none => exact behindValue_behind ht v
    | some d =>
      unfold behindUnit
      dsimp only
      split
      · trivial
      · exact behindValue_behind ht _

theorem behindTransform_any (outcome : Except SessionError (Option Value)) :
    (behindTransform outcome).Behind fun _ => True :=
  behindTransform_behind fun _ _ => trivial

theorem behindUnit_any (transform : Option Transform) (declaration : Option Declaration)
    (outcome : Except SessionError (Option Value)) :
    (behindUnit transform declaration outcome).Behind fun _ => True :=
  behindUnit_behind (fun _ _ _ _ _ => trivial) declaration fun _ _ => trivial

theorem Behind.isPending {p : Phase} (h : p.Behind E) : p.isPending = false := by
  cases p with
  | pending declaration d interrupted => exact False.elim h
  | _ => rfl

end Phase

theorem Setup.landing_cases (setup : Setup U) (source : String) (context : Bindings Value) :
    (setup.evaluator.compile source = .incomplete ∧
      setup.landing source context = ⟨.yielding, context, source⟩) ∨
    (setup.evaluator.compile source ≠ .incomplete ∧
      (setup.landing source context).accumulated = "" ∧
      ((setup.landing source context).phase.Behind (fun _ => True) ∨
        (setup.landing source context).phase.isPending = true)) := by
  cases hc : setup.evaluator.compile source with
  | incomplete => exact .inl ⟨rfl, by simp [landing, hc]⟩
  | fatal e =>
    refine .inr ⟨by simp, by simp [landing, hc], .inl ?_⟩
    simpa [landing, hc] using Phase.behindError_behind (E := fun _ => True) trivial
  | ready unit declaration =>
    cases hx : setup.evaluator.execute unit context with
    | mk execution context' =>
      cases execution with
      | immediate v =>
        refine .inr ⟨by simp, by simp [landing, hc, hx], .inl ?_⟩
        simpa [landing, hc, hx] using Phase.behindUnit_any setup.transform declaration (.ok v)
      | failed e =>
        refine .inr ⟨by simp, by simp [landing, hc, hx], .inl ?_⟩
        simpa [landing, hc, hx] using Phase.behindError_behind (E := fun _ => True) trivial
      | pending d =>
        refine .inr ⟨by simp, by simp [landing, hc, hx], .inr ?_⟩
        simp [landing, hc, hx, Phase.isPending]

end PromptLoop
