import PromptLoop.Proofs.Session.Journal

set_option autoImplicit false

/-!
# What the driver does at its sinks

A step of the driver writes one text at most, to one of the two sinks (`due?`), and goes on with
what comes behind the write or closes the session. Whatever else the driver does, and whatever comes
from outside, is blind to the sinks: it does not look at them and leaves them as they are. Only the
closing of the sinks brings a session nearer to its end (`step_lag`).
-/
namespace PromptLoop

inductive Outlet where
  | output
  | errors
deriving DecidableEq

variable {U : Type}

namespace Phase

def lag : Phase → Nat
  | .ended _ => 0
  | .closingErrors _ _ => 1
  | _ => 2

theorem lag_le (p : Phase) : p.lag ≤ 2 := by
  cases p <;> simp [lag]

theorem ended_of_lag {p : Phase} (h : p.lag = 0) : ∃ result, p = .ended result := by
  cases p with
  | ended result => exact ⟨result, rfl⟩
  | _ => simp [lag] at h

theorem Behind.lag {E : SessionError → Prop} {p : Phase} (h : p.Behind E) : p.lag = 2 := by
  cases p with
  | closingErrors result failure => exact False.elim h
  | ended result => exact False.elim h
  | _ => rfl

end Phase

theorem Setup.landing_lag (setup : Setup U) (source : String) (context : Bindings Value) :
    (setup.landing source context).phase.lag = 2 := by
  rcases setup.landing_cases source context with ⟨-, h⟩ | ⟨-, -, hb | hp⟩
  · rw [h]
    rfl
  · exact hb.lag
  · cases hphase : (setup.landing source context).phase with
    | pending declaration d interrupted => rfl
    | _ => simp [hphase, Phase.isPending] at hp

namespace Session

def sink (s : Session) : Outlet → Sink
  | .output => s.output
  | .errors => s.errors

def withSink (s : Session) (v : Outlet) (x : Sink) : Session :=
  match v with
  | .output => { s with output := x }
  | .errors => { s with errors := x }

section Sinks
variable (s : Session) (v : Outlet) (x y : Sink)

theorem sink_withSink : (s.withSink v x).sink v = x := by
  cases v <;> rfl

theorem sink_withSink_of_ne {v w : Outlet} (h : w ≠ v) (s : Session) (x : Sink) :
    (s.withSink v x).sink w = s.sink w := by
  cases v <;> cases w <;> first | rfl | exact absurd rfl h

theorem withSink_sink : s.withSink v (s.sink v) = s := by
  cases v <;> rfl

theorem withSink_withSink : (s.withSink v x).withSink v y = s.withSink v y := by
  cases v <;> rfl

theorem withSink_comm {v w : Outlet} (h : v ≠ w) (s : Session) (x y : Sink) :
    (s.withSink v x).withSink w y = (s.withSink w y).withSink v x := by
  cases v <;> cases w <;> first | rfl | exact absurd rfl h

theorem withSink_phase : (s.withSink v x).phase = s.phase := by
  cases v <;> rfl

theorem withSink_buffer : (s.withSink v x).buffer = s.buffer := by
  cases v <;> rfl

theorem withSink_accumulated : (s.withSink v x).accumulated = s.accumulated := by
  cases v <;> rfl

end Sinks

/-- A change of the session that neither depends on the sinks nor touches them. -/
def Blind (f : Session → Session) : Prop :=
  ∀ s v x, f (s.withSink v x) = (f s).withSink v x

theorem Blind.sink {f : Session → Session} (h : Blind f) (s : Session) (v : Outlet) :
    (f s).sink v = s.sink v := by
  have hself := h s v (s.sink v)
  rw [withSink_sink] at hself
  rw [hself, sink_withSink]

section Blind
variable (setup : Setup U)

theorem fail_blind (e : SessionError) : Blind (fail e) := by
  intro s v x
  rw [fail_eq, fail_eq]
  cases v <;> rfl

theorem transformed_blind (outcome : Except SessionError (Option Value)) :
    Blind (transformed outcome) := by
  intro s v x
  rw [transformed_eq, transformed_eq]
  cases v <;> rfl

theorem settled_blind (declaration : Option Declaration)
    (outcome : Except SessionError (Option Value)) :
    Blind (settled setup declaration outcome) := by
  intro s v x
  rw [settled_eq, settled_eq]
  cases v <;> rfl

theorem evaluate_blind (line : String) : Blind (evaluate setup line) := by
  intro s v x
  rw [evaluate_eq, evaluate_eq]
  cases v <;> rfl

theorem receive_blind (a : Answer) : Blind (receive setup a) := by
  intro s v x
  cases a with
  | line l =>
    simp only [Session.receive]
    split
    · cases v <;> rfl
    · split
      · cases v <;> rfl
      · exact evaluate_blind setup l s v x
  | _ => cases v <;> rfl

theorem read_blind : Blind (read setup) := by
  intro s v x
  unfold Session.read
  rw [withSink_buffer]
  cases s.buffer.read with
  | error fault => cases v <;> rfl
  | ok r =>
    obtain ⟨buffer, a⟩ := r
    cases a with
    | none => cases v <;> rfl
    | some a =>
      have hreceive := receive_blind setup a { s with buffer } v x
      cases v <;> exact hreceive

theorem iterate_blind : Blind (iterate setup) := by
  intro s v x
  unfold Session.iterate
  rw [withSink_buffer]
  split
  · cases v <;> rfl
  · split
    · exact read_blind setup s v x
    · cases v <;> rfl

theorem load_iterate_blind (bytes : List UInt8) :
    Blind fun s => (s.load bytes).iterate setup := by
  intro s v x
  have hload : (s.withSink v x).load bytes = (s.load bytes).withSink v x := by cases v <;> rfl
  dsimp only
  rw [hload]
  exact iterate_blind setup (s.load bytes) v x

theorem afterBreak_blind : Blind afterBreak := by
  intro s v x
  unfold afterBreak
  rw [withSink_accumulated]
  split <;> cases v <;> rfl

theorem supply_blind (f : LineBuffer → LineBuffer × Option Answer) :
    Blind fun s => s.supply (f s.buffer) := by
  intro s v x
  simp only [Session.supply, withSink_buffer, withSink_phase]
  split <;> cases v <;> rfl

theorem interrupt_blind : Blind interrupt := by
  intro s v x
  have hsupply : (s.withSink v x).supply (s.withSink v x).buffer.interrupt =
      (s.supply s.buffer.interrupt).withSink v x := supply_blind LineBuffer.interrupt s v x
  simp only [Session.interrupt, hsupply, withSink_phase]
  split <;> cases v <;> rfl

theorem resolve_blind : Blind (resolve setup) := by
  intro s v x
  unfold Session.resolve
  rw [withSink_phase]
  split
  · exact settled_blind setup _ _ s v x
  · exact transformed_blind _ s v x
  · rfl

/-- Only a step can write. -/
theorem handle_blind {e : SessionEvent} (he : e ≠ .step) : Blind fun s => s.handle setup e := by
  cases e with
  | step => exact absurd rfl he
  | resolve => exact resolve_blind setup
  | feed chunk => exact supply_blind (LineBuffer.feed chunk)
  | finish => exact supply_blind LineBuffer.finish
  | fail message => exact supply_blind (LineBuffer.fail message)
  | interrupt => exact interrupt_blind
  | embed change =>
    intro s v x
    cases v <;> rfl

end Blind

section Lag
variable (setup : Setup U) (s : Session)

theorem evaluate_lag (line : String) : (s.evaluate setup line).phase.lag = 2 := by
  rw [evaluate_eq]
  exact setup.landing_lag _ _

theorem receive_lag (a : Answer) : (s.receive setup a).phase.lag = 2 := by
  cases a with
  | line l =>
    unfold Session.receive
    dsimp only
    split
    · rfl
    · split
      · rfl
      · exact evaluate_lag setup s l
  | _ => rfl

theorem read_lag : (s.read setup).phase.lag = 2 := by
  unfold Session.read
  split
  · exact receive_lag setup _ _
  · rfl
  · rfl

theorem iterate_lag : (s.iterate setup).phase.lag = 2 := by
  unfold Session.iterate
  split
  · rfl
  · split
    · exact read_lag setup s
    · rfl

theorem fail_lag (e : SessionError) : (s.fail e).phase.lag = 2 := by
  rw [fail_eq]
  exact (Phase.behindError_behind (E := fun _ => True) trivial).lag

end Lag

structure Write where
  outlet : Outlet
  text : String
  next : Session → Session

/-- The write that the next step makes. -/
def due? (setup : Setup U) (s : Session) : Option Write :=
  match s.phase with
  | .prompting (some l) => some ⟨.output, s.promptText setup, fun s => { s with phase := .echoing l }⟩
  | .prompting none => some ⟨.output, s.promptText setup, read setup⟩
  | .echoing line => some ⟨.output, line, evaluate setup line⟩
  | .printing v => some ⟨.output, setup.format v ++ "\n", yield⟩
  | .reporting e => some ⟨.errors, errorText setup e, yield⟩
  | .breaking => some ⟨.output, "\n", afterBreak⟩
  | _ => none

def Write.made (w : Write) (s : Session) : Sink × Option String :=
  (s.sink w.outlet).write w.text

variable {setup : Setup U} {s : Session} {w : Write}

theorem due?_blind (hw : s.due? setup = some w) : Blind w.next := by
  unfold due? at hw
  split at hw <;> cases hw
  · intro s v x
    cases v <;> rfl
  · exact read_blind setup
  · exact evaluate_blind setup _
  · intro s v x
    cases v <;> rfl
  · intro s v x
    cases v <;> rfl
  · exact afterBreak_blind

theorem due?_lag (hw : s.due? setup = some w) (t : Session) : (w.next t).phase.lag = 2 := by
  unfold due? at hw
  split at hw <;> cases hw
  · rfl
  · exact read_lag setup t
  · exact evaluate_lag setup t _
  · rfl
  · rfl
  · change (afterBreak t).phase.lag = 2
    unfold afterBreak
    split <;> rfl

theorem due?_withSink (v : Outlet) (x : Sink) : (s.withSink v x).due? setup = s.due? setup := by
  cases v <;> rfl

/-- A step makes its write and goes on, or closes the session if that fails. -/
theorem step_of_due (hw : s.due? setup = some w) :
    ((w.made s).2 = none ∧ s.step setup = w.next (s.withSink w.outlet (w.made s).1)) ∨
    ∃ message, (w.made s).2 = some message ∧
      s.step setup = (s.withSink w.outlet (w.made s).1).close (.error (.transport message)) := by
  unfold due? at hw
  split at hw <;> cases hw <;> rename_i hp <;> simp only [Session.step, hp]
  · exact write_cases _ _ s
  · exact write_cases _ _ s
  · exact write_cases _ _ s
  · exact write_cases _ _ s
  · exact writeError_cases _ _ s
  · exact write_cases _ _ s

theorem step_of_written (hw : s.due? setup = some w) (h : (w.made s).2 = none) :
    s.step setup = w.next (s.withSink w.outlet (w.made s).1) := by
  rcases step_of_due hw with ⟨-, hstep⟩ | ⟨message, hm, -⟩
  · exact hstep
  · rw [h] at hm
    cases hm

theorem step_of_refused (hw : s.due? setup = some w) {message : String}
    (h : (w.made s).2 = some message) :
    s.step setup = (s.withSink w.outlet (w.made s).1).close (.error (.transport message)) := by
  rcases step_of_due hw with ⟨hn, -⟩ | ⟨message', hm, hstep⟩
  · rw [h] at hn
    cases hn
  · rw [h] at hm
    obtain rfl := Option.some.inj hm
    exact hstep

/-- A change inside an iteration: the session is where it was, or the sinks are not closed. -/
structure Inner (f : Session → Session) : Prop where
  blind : Blind f
  stays_or_open : ∀ s, f s = s ∨ (f s).phase.lag = 2

/-- A step that writes nothing is an inner change, or it closes one of the sinks. -/
theorem step_of_not_due (hw : s.due? setup = none) :
    (∃ f, Inner f ∧ ∀ t : Session, t.phase = s.phase → t.step setup = f t) ∨
      (∃ result, s.phase = .closing result) ∨ ∃ result failure,
        s.phase = .closingErrors result failure := by
  have hstays : Inner id := ⟨fun _ _ _ => rfl, fun _ => .inl rfl⟩
  have hphase {p : Phase} (hp : p.lag = 2) : Inner fun s => { s with phase := p } :=
    ⟨fun s v x => by cases v <;> rfl, fun _ => .inr hp⟩
  have hiterate : Inner (iterate setup) := ⟨iterate_blind setup, fun s => .inr (iterate_lag setup s)⟩
  have hload (bytes : List UInt8) : Inner fun s => (s.load bytes).iterate setup :=
    ⟨load_iterate_blind setup bytes, fun s => .inr (iterate_lag setup _)⟩
  cases hp : s.phase with
  | created =>
    cases hsrc : setup.source with
    | text bytes => exact .inl ⟨_, hload bytes, fun t ht => by simp only [Session.step, ht, hsrc]⟩
    | stream => exact .inl ⟨_, hiterate, fun t ht => by simp only [Session.step, ht, hsrc]⟩
    | file content =>
      exact .inl ⟨_, hphase (p := .loading) rfl, fun t ht => by simp only [Session.step, ht, hsrc]⟩
  | loading =>
    cases hsrc : setup.source with
    | file content =>
      cases content with
      | ok bytes => exact .inl ⟨_, hload bytes, fun t ht => by simp only [Session.step, ht, hsrc]⟩
      | error e =>
        exact .inl ⟨_, hphase (p := .closing (.error (.transport e.message))) rfl,
          fun t ht => by simp only [Session.step, ht, hsrc, close]⟩
    | _ => exact .inl ⟨_, hstays, fun t ht => by simp only [Session.step, ht, hsrc, id]⟩
  | awaiting answer =>
    cases answer with
    | none => exact .inl ⟨_, hstays, fun t ht => by simp only [Session.step, ht, id]⟩
    | some a =>
      exact .inl ⟨_, ⟨receive_blind setup a, fun s => .inr (receive_lag setup s a)⟩,
        fun t ht => by simp only [Session.step, ht]⟩
  | pending declaration d interrupted =>
    cases interrupted with
    | false => exact .inl ⟨_, hstays, fun t ht => by simp only [Session.step, ht, id]⟩
    | true =>
      exact .inl ⟨_, ⟨fail_blind .interrupted, fun s => .inr (fail_lag s .interrupted)⟩,
        fun t ht => by simp only [Session.step, ht]⟩
  | transforming d => exact .inl ⟨_, hstays, fun t ht => by simp only [Session.step, ht, id]⟩
  | yielding => exact .inl ⟨_, hiterate, fun t ht => by simp only [Session.step, ht]⟩
  | ended result => exact .inl ⟨_, hstays, fun t ht => by simp only [Session.step, ht, id]⟩
  | closing result => exact .inr (.inl ⟨result, rfl⟩)
  | closingErrors result failure => exact .inr (.inr ⟨result, failure, rfl⟩)
  | prompting line => cases line <;> simp [due?, hp] at hw
  | _ => simp [due?, hp] at hw

theorem step_lag (setup : Setup U) (s : Session) :
    s.phase.lag ≤ (s.step setup).phase.lag + 1 := by
  have hle := s.phase.lag_le
  cases hw : s.due? setup with
  | some w =>
    rcases step_of_due hw with ⟨-, hstep⟩ | ⟨message, -, hstep⟩
    · rw [hstep, due?_lag hw]
      exact Nat.le_succ_of_le hle
    · rw [hstep]
      exact Nat.le_succ_of_le hle
  | none =>
    rcases step_of_not_due hw with ⟨f, hf, hstep⟩ | ⟨result, hp⟩ | ⟨result, failure, hp⟩
    · rw [hstep s rfl]
      rcases hf.stays_or_open s with hstays | hopen
      · rw [hstays]
        exact Nat.le_succ _
      · rw [hopen]
        exact Nat.le_succ_of_le hle
    · simp only [Session.step, hp]
      exact Nat.le_refl 2
    · simp only [Session.step, hp]
      exact Nat.le_refl 1

theorem sink_step (setup : Setup U) (s : Session) (v : Outlet) :
    (s.step setup).sink v = s.sink v ∨ (s.step setup).sink v = (s.sink v).close.1 ∨
      ∃ w, s.due? setup = some w ∧ w.outlet = v ∧ (s.step setup).sink v = (w.made s).1 := by
  cases hw : s.due? setup with
  | none =>
    rcases step_of_not_due hw with ⟨f, hf, hstep⟩ | ⟨result, hp⟩ | ⟨result, failure, hp⟩
    · rw [hstep s rfl]
      exact .inl (hf.blind.sink s v)
    · simp only [Session.step, hp]
      cases v
      · exact .inr (.inl rfl)
      · exact .inl rfl
    · simp only [Session.step, hp]
      cases v
      · exact .inl rfl
      · exact .inr (.inl rfl)
  | some w =>
    have hsink : (s.step setup).sink v = (s.withSink w.outlet (w.made s).1).sink v := by
      rcases step_of_due hw with ⟨-, hstep⟩ | ⟨message, -, hstep⟩
      · rw [hstep]
        exact (due?_blind hw).sink _ v
      · rw [hstep]
        cases v <;> rfl
    by_cases hv : v = w.outlet
    · subst hv
      rw [sink_withSink] at hsink
      exact .inr (.inr ⟨w, rfl, rfl, hsink⟩)
    · rw [sink_withSink_of_ne hv] at hsink
      exact .inl hsink

/-- What is journaled of a step depends on its sinks only as far as the write succeeds. -/
theorem stepEntries_withSink {v : Outlet} {x : Sink}
    (h : ∀ w, s.due? setup = some w → (w.made (s.withSink v x)).2 = (w.made s).2) :
    (s.withSink v x).stepEntries setup = s.stepEntries setup := by
  have hreads : (s.withSink v x).readEntries setup = s.readEntries setup := by cases v <;> rfl
  have hprompt : (s.withSink v x).promptText setup = s.promptText setup := by cases v <;> rfl
  unfold stepEntries
  rw [withSink_phase]
  cases hp : s.phase with
  | prompting line =>
    have hsame : ((s.withSink v x).output.write (s.promptText setup)).2 =
        (s.output.write (s.promptText setup)).2 := by
      cases line <;> exact h _ (by unfold due?; rw [hp])
    simp only [hprompt, hsame, hreads]
  | echoing line =>
    have hsame : ((s.withSink v x).output.write line).2 = (s.output.write line).2 :=
      h ⟨.output, line, evaluate setup line⟩ (by unfold due?; rw [hp])
    simp only [hsame, withSink_accumulated]
  | breaking =>
    have hsame : ((s.withSink v x).output.write "\n").2 = (s.output.write "\n").2 :=
      h ⟨.output, "\n", afterBreak⟩ (by unfold due?; rw [hp])
    simp only [hsame, withSink_accumulated]
  | awaiting answer => cases answer <;> cases v <;> rfl
  | _ => cases v <;> rfl

theorem stepEntries_of_due (hw : s.due? setup = some w) {v : Outlet} {x : Sink}
    (h : (w.made (s.withSink v x)).2 = (w.made s).2) :
    (s.withSink v x).stepEntries setup = s.stepEntries setup := by
  refine stepEntries_withSink fun w' hw' => ?_
  rw [hw] at hw'
  obtain rfl := Option.some.inj hw'
  exact h

theorem stepEntries_of_failed (hw : s.due? setup = some w) {message : String}
    (hf : (w.made s).2 = some message) :
    ∃ lost : List String, s.stepEntries setup = lost.map .lost := by
  unfold due? at hw
  split at hw <;> cases hw <;> rename_i hp <;> simp only [stepEntries, hp]
  · rename_i line
    have hfailed : (s.output.write (s.promptText setup)).2 = some message := hf
    rw [hfailed]
    exact ⟨[line], rfl⟩
  · have hfailed : (s.output.write (s.promptText setup)).2 = some message := hf
    rw [hfailed]
    exact ⟨[], rfl⟩
  · rename_i line
    have hfailed : (s.output.write line).2 = some message := hf
    rw [hfailed]
    exact ⟨[line], rfl⟩
  · exact ⟨[], rfl⟩
  · exact ⟨[], rfl⟩
  · have hfailed : (s.output.write "\n").2 = some message := hf
    rw [hfailed]
    exact ⟨[], rfl⟩

end Session
end PromptLoop
