import PromptLoop.Proofs.Session.SinkFrame

set_option autoImplicit false

namespace PromptLoop

inductive Occasion where
  | prompt
  | echo
  | result
  | report
  | interruption
deriving DecidableEq

def Occasion.outlet : Occasion → Outlet
  | .report => .errors
  | _ => .output

inductive Deed where
  | wrote (occasion : Occasion) (text : String) (failure : Option String)
  | closed (v : Outlet) (failure : Option String)
deriving DecidableEq

namespace Deed

def isWrite : Deed → Bool
  | .wrote _ _ _ => true
  | .closed _ _ => false

def onto (v : Outlet) (x : Sink) : Deed → Sink
  | .wrote occasion text _ => if occasion.outlet = v then (x.write text).1 else x
  | .closed w _ => if w = v then x.close.1 else x

def closes (v : Outlet) : Deed → Bool
  | .wrote _ _ _ => false
  | .closed w _ => w = v

theorem countP_closes_of_writes {writes : List Deed} (h : ∀ d ∈ writes, d.isWrite = true)
    (v : Outlet) : writes.countP (closes v) = 0 := by
  rw [List.countP_eq_zero]
  intro d hd
  cases d with
  | wrote occasion text failure => simp [closes]
  | closed w failure => exact absurd (h _ hd) (by simp [isWrite])

/-- A deed closes a sink or not, and leaves alone how that goes. -/
theorem onto_eq (v : Outlet) (d : Deed) (x : Sink) :
    ∃ written room, d.onto v x =
      { x with
        written
        room
        closings := x.closings ++ List.replicate ([d].countP (closes v)) x.closing } := by
  cases d with
  | wrote occasion text failure =>
    by_cases hv : occasion.outlet = v
    · obtain ⟨written, room, hwrite⟩ := x.write_eq text
      exact ⟨written, room, by simp [onto, closes, hv, hwrite]⟩
    · exact ⟨x.written, x.room, by simp [onto, closes, hv]⟩
  | closed w failure =>
    by_cases hv : w = v
    · exact ⟨x.written, x.room, by simp [onto, closes, hv, Sink.close, Sink.finish]⟩
    · exact ⟨x.written, x.room, by simp [onto, closes, hv]⟩

theorem foldl_onto_eq (v : Outlet) (log : List Deed) (x : Sink) :
    ∃ written room, log.foldl (onto v) x =
      { x with
        written
        room
        closings := x.closings ++ List.replicate (log.countP (closes v)) x.closing } := by
  induction log generalizing x with
  | nil => exact ⟨x.written, x.room, by simp⟩
  | cons d rest ih =>
    obtain ⟨written, room, hstep⟩ := onto_eq v d x
    obtain ⟨written', room', hrest⟩ := ih (d.onto v x)
    have hcount : (d :: rest).countP (closes v) =
        [d].countP (closes v) + rest.countP (closes v) := by
      rw [← List.countP_append, List.singleton_append]
    refine ⟨written', room', ?_⟩
    rw [List.foldl_cons, hrest, hstep, hcount, ← List.replicate_append_replicate,
      ← List.append_assoc]
    rfl

end Deed

variable {U : Type}

namespace Session
variable (setup : Setup U)

def gather {α : Type} (observe : Session → SessionEvent → List α) (s : Session) :
    List SessionEvent → List α
  | [] => []
  | e :: rest => observe s e ++ gather observe (s.handle setup e) rest

def stepDeeds (s : Session) : List Deed :=
  match s.phase with
  | .prompting _ =>
    [.wrote .prompt (s.promptText setup) (s.output.write (s.promptText setup)).2]
  | .echoing line => [.wrote .echo line (s.output.write line).2]
  | .printing v =>
    [.wrote .result (setup.format v ++ "\n") (s.output.write (setup.format v ++ "\n")).2]
  | .reporting e =>
    [.wrote .report (errorText setup e) (s.errors.write (errorText setup e)).2]
  | .breaking => [.wrote .interruption "\n" (s.output.write "\n").2]
  | .closing _ => [.closed .output s.output.close.2]
  | .closingErrors _ _ => [.closed .errors s.errors.close.2]
  | _ => []

def deeds (s : Session) : SessionEvent → List Deed
  | .step => s.stepDeeds setup
  | _ => []

def log (s : Session) (events : List SessionEvent) : List Deed :=
  s.gather setup (deeds setup) events

section Gather
variable {setup} {α : Type} {observe : Session → SessionEvent → List α} {s : Session}

theorem gather_append (front back : List SessionEvent) :
    s.gather setup observe (front ++ back) =
      s.gather setup observe front ++ (s.run setup front).gather setup observe back := by
  induction front generalizing s with
  | nil => rfl
  | cons e rest ih =>
    change observe s e ++ gather setup observe (s.handle setup e) (rest ++ back) = _
    rw [ih, ← List.append_assoc]
    rfl

theorem gather_concat (events : List SessionEvent) (e : SessionEvent) :
    s.gather setup observe (events ++ [e]) =
      s.gather setup observe events ++ observe (s.run setup events) e := by
  rw [gather_append]
  simp [gather]

end Gather

section Sinks
variable {setup} {s : Session}

theorem stepDeeds_of_due {w : Write} (hw : s.due? setup = some w) :
    ∃ occasion : Occasion, occasion.outlet = w.outlet ∧
      s.stepDeeds setup = [.wrote occasion w.text (w.made s).2] := by
  unfold due? at hw
  split at hw <;> cases hw <;> rename_i hp <;> simp only [stepDeeds, hp]
  · exact ⟨.prompt, rfl, rfl⟩
  · exact ⟨.prompt, rfl, rfl⟩
  · exact ⟨.echo, rfl, rfl⟩
  · exact ⟨.result, rfl, rfl⟩
  · exact ⟨.report, rfl, rfl⟩
  · exact ⟨.interruption, rfl, rfl⟩

theorem stepDeeds_of_not_due (hw : s.due? setup = none) :
    s.stepDeeds setup = [] ∨ (∃ r, s.phase = .closing r) ∨
      ∃ r failure, s.phase = .closingErrors r failure := by
  unfold stepDeeds
  cases hp : s.phase with
  | prompting line => cases line <;> simp [due?, hp] at hw
  | echoing line => simp [due?, hp] at hw
  | printing v => simp [due?, hp] at hw
  | reporting e => simp [due?, hp] at hw
  | breaking => simp [due?, hp] at hw
  | closing r => exact .inr (.inl ⟨r, rfl⟩)
  | closingErrors r failure => exact .inr (.inr ⟨r, failure, rfl⟩)
  | _ => exact .inl rfl

/-- A step does to a sink what its deeds say. -/
theorem step_sink (s : Session) (v : Outlet) :
    (s.step setup).sink v = (s.stepDeeds setup).foldl (Deed.onto v) (s.sink v) := by
  cases hw : s.due? setup with
  | some w =>
    obtain ⟨occasion, houtlet, hdeeds⟩ := stepDeeds_of_due hw
    have hsink : (s.step setup).sink v = (s.withSink w.outlet (w.made s).1).sink v := by
      rcases step_of_due hw with ⟨-, hstep⟩ | ⟨message, -, hstep⟩
      · rw [hstep]
        exact (due?_blind hw).sink _ v
      · rw [hstep]
        cases v <;> rfl
    rw [hsink, hdeeds]
    by_cases hv : w.outlet = v
    · subst hv
      rw [sink_withSink]
      simp [Deed.onto, houtlet, Write.made]
    · rw [sink_withSink_of_ne (Ne.symm hv)]
      simp [Deed.onto, houtlet, hv]
  | none =>
    rcases stepDeeds_of_not_due hw with hdeeds | ⟨r, hp⟩ | ⟨r, failure, hp⟩
    · rw [hdeeds]
      rcases step_of_not_due hw with ⟨f, hf, hstep⟩ | ⟨r, hp⟩ | ⟨r, failure, hp⟩
      · rw [hstep s rfl]
        exact hf.blind.sink s v
      · simp [stepDeeds, hp] at hdeeds
      · simp [stepDeeds, hp] at hdeeds
    · simp only [Session.step, stepDeeds, hp]
      cases v <;> rfl
    · simp only [Session.step, stepDeeds, hp]
      cases v <;> rfl

theorem handle_sink (s : Session) (e : SessionEvent) (v : Outlet) :
    (s.handle setup e).sink v = (s.deeds setup e).foldl (Deed.onto v) (s.sink v) := by
  by_cases he : e = .step
  · subst he
    exact step_sink s v
  · have hnone : s.deeds setup e = [] := by
      cases e with
      | step => exact absurd rfl he
      | _ => rfl
    rw [hnone]
    exact (handle_blind setup he).sink s v

/-- The log accounts for the sinks. -/
theorem run_sink (s : Session) (events : List SessionEvent) (v : Outlet) :
    (s.run setup events).sink v = (s.log setup events).foldl (Deed.onto v) (s.sink v) := by
  induction events generalizing s with
  | nil => rfl
  | cons e rest ih =>
    change ((s.handle setup e).run setup rest).sink v =
      (s.deeds setup e ++ (s.handle setup e).log setup rest).foldl (Deed.onto v) (s.sink v)
    rw [ih, List.foldl_append, handle_sink]

theorem run_closings (s : Session) (events : List SessionEvent) (v : Outlet) :
    ((s.run setup events).sink v).closings = (s.sink v).closings ++
      List.replicate ((s.log setup events).countP (Deed.closes v)) (s.sink v).closing := by
  obtain ⟨written, room, heq⟩ := Deed.foldl_onto_eq v (s.log setup events) (s.sink v)
  rw [run_sink, heq]

theorem run_closeFailure? (s : Session) (events : List SessionEvent) (v : Outlet) :
    ((s.run setup events).sink v).closeFailure? = (s.sink v).closeFailure? := by
  obtain ⟨written, room, heq⟩ := Deed.foldl_onto_eq v (s.log setup events) (s.sink v)
  rw [run_sink, heq]
  rfl

end Sinks
end Session
end PromptLoop
