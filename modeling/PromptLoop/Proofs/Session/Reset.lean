import PromptLoop.Proofs.Session.Accumulation
import PromptLoop.Proofs.Session.Sinks

set_option autoImplicit false

/-!
# An interrupt while a unit is unfinished

A read that waits finds the buffer empty but for the beginning of a line, so the interrupt that
answers it leaves nothing at all in the buffer. The driver drops the unfinished unit, and from then
on it goes through the same phases as a session that begins with the bindings of this one and reads
what arrives after the interrupt (`Resumes`).
-/
namespace PromptLoop

variable {U : Type}

def Setup.streaming (setup : Setup U) : Setup U :=
  { setup with source := .stream }

namespace Phase

def begun : Phase → Bool
  | .created => false
  | .loading => false
  | _ => true

theorem Behind.begun {E : SessionError → Prop} {p : Phase} (h : p.Behind E) : p.begun = true := by
  cases p <;> first | rfl | exact False.elim h

theorem begun_of_isPending {p : Phase} (h : p.isPending = true) : p.begun = true := by
  cases p <;> first | rfl | cases h

theorem eq_of_awaits {p : Phase} (h : p.awaits = true) : p = .awaiting none := by
  cases p with
  | awaiting a =>
    cases a with
    | none => rfl
    | some a => cases h
  | _ => cases h

end Phase

theorem Setup.landing_begun (setup : Setup U) (source : String) (context : Bindings Value) :
    (setup.landing source context).phase.begun = true := by
  rcases setup.landing_cases source context with ⟨-, heq⟩ | ⟨-, -, hp | hp⟩
  · rw [heq]
    rfl
  · exact hp.begun
  · exact Phase.begun_of_isPending hp

namespace Session

/-- `s` stands where `t` stands, or has dropped its unit where `t` has not begun. -/
structure Resumes (s t : Session) (out err : ByteArray) : Prop where
  phase : s.phase = t.phase ∧ s.phase.begun = true ∨ s.phase = .yielding ∧ t.phase = .created
  buffer : s.buffer = t.buffer
  context : s.context = t.context
  accumulated : s.accumulated = t.accumulated
  output : s.output.Trails t.output out
  errors : s.errors.Trails t.errors err

variable {setup : Setup U} {s t : Session} {out err : ByteArray}

section Driver
variable (h : s.Resumes t out err)
include h

theorem Resumes.goes {p : Phase} (hp : p.begun = true) :
    Resumes { s with phase := p } { t with phase := p } out err :=
  { h with phase := .inl ⟨rfl, hp⟩ }

theorem Resumes.written {sink sink' : Sink} (hsink : sink.Trails sink' out) :
    Resumes { s with output := sink } { t with output := sink' } out err :=
  { h with output := hsink }

theorem Resumes.evaluate (line : String) :
    (s.evaluate setup line).Resumes (t.evaluate setup.streaming line) out err := by
  rw [evaluate_eq, evaluate_eq, ← h.accumulated, ← h.context]
  have hbegun := setup.landing_begun (s.accumulated ++ line) s.context
  exact ⟨.inl ⟨rfl, hbegun⟩, h.buffer, rfl, rfl, h.output, h.errors⟩

theorem Resumes.receive (a : Answer) :
    (s.receive setup a).Resumes (t.receive setup.streaming a) out err ∧
      s.receiveEntries setup a = t.receiveEntries setup.streaming a := by
  cases a with
  | failed message => exact ⟨h.goes rfl, rfl⟩
  | ended => exact ⟨h.goes rfl, rfl⟩
  | line l =>
    have hecho : setup.streaming.echo = setup.echo := rfl
    by_cases hm : l = interruptMarker
    · simp only [Session.receive, receiveEntries, if_pos hm]
      exact ⟨h.goes rfl, trivial⟩
    · simp only [Session.receive, receiveEntries, if_neg hm, hecho, h.accumulated]
      by_cases he : setup.echo = true
      · simp only [if_pos he]
        exact ⟨{ h with phase := .inl ⟨rfl, rfl⟩ }, trivial⟩
      · simp only [if_neg he]
        exact ⟨h.evaluate l, trivial⟩

theorem Resumes.read :
    (s.read setup).Resumes (t.read setup.streaming) out err ∧
      s.readEntries setup = t.readEntries setup.streaming := by
  unfold Session.read readEntries
  rw [← h.buffer]
  cases s.buffer.read with
  | error fault => exact ⟨h.goes rfl, rfl⟩
  | ok r =>
    obtain ⟨buffer, a⟩ := r
    have hnext : Resumes { s with buffer } { t with buffer } out err := { h with buffer := rfl }
    cases a with
    | none => exact ⟨hnext.goes rfl, rfl⟩
    | some a =>
      exact ⟨(hnext.receive a).1, congrArg (a.entries ++ ·) (hnext.receive a).2⟩

theorem Resumes.iterate :
    (s.iterate setup).Resumes (t.iterate setup.streaming) out err ∧
      s.iterateEntries setup = t.iterateEntries setup.streaming := by
  unfold Session.iterate iterateEntries
  rw [← h.buffer]
  have hecho : setup.streaming.echo = setup.echo := rfl
  by_cases hd : s.buffer.isDone = true
  · simp only [if_pos hd]
    exact ⟨h.goes rfl, trivial⟩
  · simp only [if_neg hd, hecho]
    by_cases he : setup.echo = true
    · simp only [if_pos he]
      exact h.read
    · simp only [if_neg he]
      exact ⟨{ h with phase := .inl ⟨rfl, rfl⟩ }, trivial⟩

theorem Resumes.write {next next' : Session → Session} (text : String)
    (hnext : ∀ sink sink', sink.Trails sink' out →
      (next { s with output := sink }).Resumes (next' { t with output := sink' }) out err) :
    (s.write text next).Resumes (t.write text next') out err := by
  obtain ⟨hs, ht, hsink⟩ := h.output.write text
  unfold Session.write
  simp only [hs, ht]
  exact hnext _ _ hsink

theorem Resumes.writeError (text : String) :
    (s.writeError text yield).Resumes (t.writeError text yield) out err := by
  obtain ⟨hs, ht, hsink⟩ := h.errors.write text
  unfold Session.writeError
  simp only [hs, ht]
  exact { h with phase := .inl ⟨rfl, rfl⟩, errors := hsink }

theorem Resumes.afterBreak : s.afterBreak.Resumes t.afterBreak out err := by
  have hsame : s.accumulated = "" ↔ t.accumulated = "" := by rw [h.accumulated]
  unfold Session.afterBreak
  by_cases ha : s.accumulated = ""
  · rw [if_pos ha, if_pos (hsame.1 ha)]
    exact h.goes rfl
  · rw [if_neg ha, if_neg (fun hn => ha (hsame.2 hn))]
    exact { h with phase := .inl ⟨rfl, rfl⟩, accumulated := rfl }

/-- Both take the same step and write the same, with the same entries in their journals. -/
theorem Resumes.step :
    (s.step setup).Resumes (t.step setup.streaming) out err ∧
      s.stepEntries setup = t.stepEntries setup.streaming := by
  have hprompt : t.promptText setup.streaming = s.promptText setup := by
    simp only [promptText, h.accumulated]
    rfl
  have hsinks := h.output.write
  unfold Session.step stepEntries
  rcases h.phase with ⟨hsame, hbegun⟩ | ⟨hs, ht⟩
  · rw [← hsame]
    cases hp : s.phase with
    | created => simp [hp, Phase.begun] at hbegun
    | loading => simp [hp, Phase.begun] at hbegun
    | prompting line =>
      obtain ⟨hw, hw', -⟩ := hsinks (s.promptText setup)
      simp only [hprompt, hw, hw']
      cases line with
      | some l =>
        refine ⟨h.write _ fun sink sink' hsink => ?_, rfl⟩
        exact (h.written hsink).goes rfl
      | none =>
        refine ⟨h.write _ fun sink sink' hsink => ?_, h.read.2⟩
        exact (h.written hsink).read.1
    | echoing line =>
      obtain ⟨hw, hw', -⟩ := hsinks line
      simp only [hw, hw', h.accumulated]
      refine ⟨h.write _ fun sink sink' hsink => ?_, trivial⟩
      exact (h.written hsink).evaluate line
    | awaiting answer =>
      cases answer with
      | none => exact ⟨h, rfl⟩
      | some a => exact h.receive a
    | pending declaration d interrupted =>
      cases interrupted with
      | false => exact ⟨h, rfl⟩
      | true =>
        simp only [fail_eq]
        exact ⟨h.goes rfl, trivial⟩
    | transforming d => exact ⟨h, rfl⟩
    | printing v => exact ⟨h.write _ fun sink sink' hsink => (h.written hsink).goes rfl, rfl⟩
    | reporting e => exact ⟨h.writeError _, rfl⟩
    | breaking =>
      obtain ⟨hw, hw', -⟩ := hsinks "\n"
      simp only [hw, hw', h.accumulated]
      exact ⟨h.write _ fun sink sink' hsink => (h.written hsink).afterBreak, trivial⟩
    | yielding => exact h.iterate
    | closing result =>
      obtain ⟨hc, hc', hsink⟩ := h.output.close
      simp only [hc, hc']
      exact ⟨(h.written hsink).goes rfl, trivial⟩
    | closingErrors result failure =>
      obtain ⟨hc, hc', hsink⟩ := h.errors.close
      simp only [hc, hc']
      exact ⟨{ h with phase := .inl ⟨rfl, rfl⟩, errors := hsink }, trivial⟩
    | ended result => exact ⟨h, rfl⟩
  · simp only [hs, ht]
    exact h.iterate

theorem Resumes.supply (r : LineBuffer × Option Answer) :
    (s.supply r).Resumes (t.supply r) out err ∧ s.supplyEntries r = t.supplyEntries r := by
  have hbuffer : Resumes { s with buffer := r.1 } { t with buffer := r.1 } out err :=
    { h with buffer := rfl }
  have hawaits : t.phase.awaits = s.phase.awaits := by
    rcases h.phase with ⟨hsame, -⟩ | ⟨hs, ht⟩
    · rw [hsame]
    · rw [hs, ht]
      rfl
  cases hs : s.phase.awaits with
  | false =>
    have hkept := supply_idle hs r
    have hkept' := supply_idle (hawaits.trans hs) r
    rw [hkept.1, hkept'.1, hkept.2, hkept'.2]
    exact ⟨hbuffer, rfl⟩
  | true =>
    have hp := Phase.eq_of_awaits hs
    have hp' := Phase.eq_of_awaits (hawaits.trans hs)
    unfold Session.supply supplyEntries
    rw [hp, hp']
    cases r.2 with
    | none => exact ⟨hbuffer.goes rfl, rfl⟩
    | some a => exact ⟨hbuffer.goes rfl, rfl⟩

theorem Resumes.interrupt :
    s.interrupt.Resumes t.interrupt out err := by
  have hnext := (h.supply s.buffer.interrupt).1
  unfold Session.interrupt
  rw [← h.buffer]
  generalize s.supply s.buffer.interrupt = s' at hnext
  generalize t.supply s.buffer.interrupt = t' at hnext
  dsimp only
  rcases hnext.phase with ⟨hsame, hbegun⟩ | ⟨hs, ht⟩
  · rw [← hsame]
    split
    · exact hnext.goes rfl
    · exact hnext
  · rw [hs, ht]
    exact hnext

theorem Resumes.resolve :
    (s.resolve setup).Resumes (t.resolve setup.streaming) out err := by
  unfold Session.resolve
  rcases h.phase with ⟨hsame, hbegun⟩ | ⟨hs, ht⟩
  · rw [← hsame]
    split
    · rename_i declaration d interrupted hp
      have hb := Phase.behindUnit_any setup.transform declaration d.outcome
      rw [settled_eq, settled_eq, ← h.context]
      exact { h with phase := .inl ⟨rfl, hb.begun⟩, context := rfl }
    · rename_i d hp
      rw [transformed_eq, transformed_eq]
      exact h.goes (Phase.behindTransform_any d.outcome).begun
    · exact h
  · rw [hs, ht]
    exact h

theorem Resumes.handle (e : SessionEvent) :
    (s.handle setup e).Resumes (t.handle setup.streaming e) out err ∧
      s.entries setup e = t.entries setup.streaming e := by
  cases e with
  | step => exact h.step
  | resolve => exact ⟨h.resolve, rfl⟩
  | feed chunk =>
    have hnext := h.supply (s.buffer.feed chunk)
    simp only [Session.handle, Session.feed, entries, ← h.buffer]
    exact hnext
  | finish =>
    have hnext := h.supply s.buffer.finish
    simp only [Session.handle, Session.finish, entries, ← h.buffer]
    exact hnext
  | fail message =>
    have hnext := h.supply (s.buffer.fail message)
    simp only [Session.handle, failInput, entries, ← h.buffer]
    exact hnext
  | interrupt =>
    have hnext := (h.supply s.buffer.interrupt).2
    simp only [Session.handle, entries, ← h.buffer]
    exact ⟨h.interrupt, hnext⟩
  | embed change =>
    refine ⟨{ h with context := ?_ }, rfl⟩
    change change s.context = change t.context
    rw [h.context]

end Driver

theorem Resumes.run (h : s.Resumes t out err) (events : List SessionEvent) :
    (s.run setup events).Resumes (t.run setup.streaming events) out err ∧
      s.journal setup events = t.journal setup.streaming events := by
  induction events generalizing s t with
  | nil => exact ⟨h, rfl⟩
  | cons e rest ih =>
    obtain ⟨hrest, hjournal⟩ := ih (h.handle e).1
    refine ⟨hrest, ?_⟩
    simp only [journal, (h.handle e).2, hjournal]

theorem Resumes.result (h : s.Resumes t out err) : s.result? = t.result? := by
  unfold result?
  rcases h.phase with ⟨hsame, -⟩ | ⟨hs, ht⟩
  · rw [hsame]
  · rw [hs, ht]

theorem run_busy (setup : Setup U) (s : Session) {events : List SessionEvent}
    (he : ∀ e ∈ events, e ≠ .step)
    (ha : s.phase.awaits = false) (hw : s.phase.waits = false) :
    s.run setup events =
        { s with buffer := refill events s.buffer, context := rebind events s.context } ∧
      s.journal setup events = [] := by
  induction events generalizing s with
  | nil => exact ⟨rfl, rfl⟩
  | cons e rest ih =>
    obtain ⟨heq, hentries⟩ : s.handle setup e = _ ∧ s.entries setup e = [] :=
      handle_idle setup (he e (by simp)) ha fun _ => hw
    rw [e.mark_of_waits hw] at heq
    have hrest := ih (s.handle setup e) (fun e' h => he e' (by simp [h]))
      (by rw [heq]; exact ha) (by rw [heq]; exact hw)
    constructor
    · change (s.handle setup e).run setup rest = _
      rw [hrest.1, heq]
      rfl
    · simp only [journal, hentries, hrest.2, List.append_nil]

theorem interrupt_waiting {terms : Terms} (hs : s.Lawful setup terms)
    (hp : s.phase = .awaiting none) :
    s.interrupt = { s with
        buffer := {}
        phase := .awaiting (some (.line interruptMarker)) } ∧
      s.entries setup .interrupt = [] := by
  have hslot : s.buffer.slot = .awaited := by
    rw [hs.slot, hp]
    rfl
  -- Nothing but the beginning of a line is in the buffer, or the read would not wait.
  obtain ⟨-, hf, he⟩ := hs.sound.waiting (by simp [hslot])
  have hanswer : s.buffer.interrupt = ({}, some (.line interruptMarker)) := by
    simp [LineBuffer.interrupt, LineBuffer.settle, LineBuffer.answer?, hslot, hf, he]
  constructor
  · unfold Session.interrupt Session.supply
    rw [hanswer]
    simp only [hp]
  · simp [entries, supplyEntries, hanswer, hp, Answer.entries]

theorem step_of_breaking (setup : Setup U) (hp : s.phase = .breaking) (ho : ¬ s.output.MayFail)
    (ha : s.accumulated ≠ "") :
    s.step setup = { s with
        output := { s.output with written := s.output.written ++ "\n".toUTF8 }
        accumulated := ""
        phase := .yielding } ∧
      s.stepEntries setup = [.dropped s.accumulated] := by
  have hw := Sink.write_of_steady ho "\n"
  constructor
  · unfold Session.step
    simp only [hp, Session.write, hw, Session.afterBreak, if_neg ha, yield]
  · unfold stepEntries
    simp only [hp, hw]

section Reset
variable {terms : Terms} (hs : s.Lawful setup terms) (hp : s.phase = .awaiting none)
  {a b : List SessionEvent} (hab : ∀ e ∈ a ++ b, e ≠ .step)
include hs hp hab

theorem run_answered :
    s.run setup (.interrupt :: a) = { s with
        buffer := refill a {}
        context := rebind a s.context
        phase := .awaiting (some (.line interruptMarker)) } ∧
      s.journal setup (.interrupt :: a) = [] := by
  obtain ⟨heq, hentries⟩ := interrupt_waiting hs hp
  have hquiet : ∀ e ∈ a, e ≠ .step := fun e h => hab e (by simp [h])
  have hbusy := run_busy setup s.interrupt hquiet (by rw [heq]; rfl) (by rw [heq]; rfl)
  constructor
  · change s.interrupt.run setup a = _
    rw [hbusy.1, heq]
  · simp only [journal, hentries, List.nil_append]
    exact hbusy.2

theorem run_breaking :
    s.run setup (.interrupt :: a ++ .step :: b) = { s with
        buffer := refill (a ++ b) {}
        context := rebind (a ++ b) s.context
        phase := .breaking } ∧
      s.journal setup (.interrupt :: a ++ .step :: b) = [] := by
  obtain ⟨heq, hjournal⟩ := run_answered hs hp hab
  have hstep : (s.run setup (.interrupt :: a)).step setup =
      { s.run setup (.interrupt :: a) with phase := .breaking } := by
    rw [heq]
    rfl
  have hentries : (s.run setup (.interrupt :: a)).stepEntries setup = [] := by
    rw [heq]
    rfl
  have hquiet : ∀ e ∈ b, e ≠ .step := fun e h => hab e (by simp [h])
  have hbusy := run_busy setup ((s.run setup (.interrupt :: a)).step setup) hquiet
    (by rw [hstep]; rfl) (by rw [hstep]; rfl)
  constructor
  · rw [run_append]
    change ((s.run setup (.interrupt :: a)).step setup).run setup b = _
    rw [hbusy.1, hstep, heq]
    simp [refill, rebind]
  · rw [journal_append, hjournal]
    change [] ++ ((s.run setup (.interrupt :: a)).stepEntries setup ++ _) = _
    rw [hentries]
    exact hbusy.2

/-- The unit is dropped, and the session resumes as one that has not begun. -/
theorem run_resumes (ho : ¬ s.output.MayFail) (he : ¬ s.errors.MayFail) (ha : s.accumulated ≠ "") :
    Resumes (s.run setup (.interrupt :: a ++ .step :: b ++ [.step]))
        (run setup.streaming { context := s.context } (a ++ b))
        (s.output.written ++ "\n".toUTF8) s.errors.written ∧
      s.journal setup (.interrupt :: a ++ .step :: b ++ [.step]) = [.dropped s.accumulated] ∧
      journal setup.streaming { context := s.context } (a ++ b) = [] := by
  obtain ⟨heq, hjournal⟩ := run_breaking hs hp hab
  obtain ⟨hfresh, hnothing⟩ :=
    run_busy setup.streaming ({ context := s.context } : Session) hab rfl rfl
  have hbreaking : (s.run setup (.interrupt :: a ++ .step :: b)).phase = .breaking := by rw [heq]
  obtain ⟨hstep, hentries⟩ := step_of_breaking setup hbreaking (by rw [heq]; exact ho)
    (by rw [heq]; exact ha)
  refine ⟨?_, ?_, hnothing⟩
  · rw [run_concat, hfresh]
    change ((s.run setup (.interrupt :: a ++ .step :: b)).step setup).Resumes _ _ _
    rw [hstep, heq]
    exact ⟨.inr ⟨rfl, rfl⟩, rfl, rfl, rfl, ⟨by simp, ho, by simp [Sink.MayFail]⟩,
      ⟨by simp, he, by simp [Sink.MayFail]⟩⟩
  · rw [journal_concat, hjournal]
    change [] ++ (s.run setup (.interrupt :: a ++ .step :: b)).stepEntries setup = _
    rw [hentries, heq]
    rfl

theorem run_reset (ho : ¬ s.output.MayFail) (he : ¬ s.errors.MayFail) (ha : s.accumulated ≠ "")
    (c : List SessionEvent) :
    Resumes (s.run setup (.interrupt :: a ++ .step :: b ++ .step :: c))
        (run setup.streaming { context := s.context } (a ++ b ++ c))
        (s.output.written ++ "\n".toUTF8) s.errors.written ∧
      s.journal setup (.interrupt :: a ++ .step :: b ++ .step :: c) =
        .dropped s.accumulated :: journal setup.streaming { context := s.context } (a ++ b ++ c) := by
  obtain ⟨hr, hdropped, hnothing⟩ := run_resumes hs hp hab ho he ha
  let front : List SessionEvent := .interrupt :: a ++ .step :: b ++ [.step]
  have hsplit : .interrupt :: a ++ .step :: b ++ .step :: c = front ++ c := by simp [front]
  rw [hsplit]
  constructor
  · rw [run_append setup s front c, run_append setup.streaming _ (a ++ b) c]
    exact (hr.run c).1
  · rw [journal_append setup s front c, journal_append setup.streaming _ (a ++ b) c, hdropped,
      hnothing, (hr.run c).2]
    rfl

end Reset

theorem run_of_rests (setup : Setup U) (h : s.phase.rests = true) (n : Nat) :
    s.run setup (List.replicate n .step) = s := by
  induction n with
  | zero => rfl
  | succ n ih =>
    change (s.step setup).run setup (List.replicate n .step) = s
    rw [step_of_rests h]
    exact ih

theorem fresh_reads (setup : Setup U) (context : Bindings Value) (n : Nat) :
    let s := run setup.streaming ({ context } : Session) (List.replicate (n + 2) .step)
    s.phase = .awaiting none ∧ s.accumulated = "" ∧ s.context = context ∧
      s.errors.written = .empty ∧
      s.output.written =
        (if setup.echo then "" else promptText setup ({ context } : Session)).toUTF8 := by
  intro s
  by_cases he : setup.echo = true
  · have hfirst : Session.step setup.streaming ({ context } : Session) =
        { phase := .awaiting none, buffer := { slot := .awaited }, context } := by
      simp [Session.step, Session.iterate, Setup.streaming, LineBuffer.isDone, he, Session.read,
        LineBuffer.read]
    have hs : s = { phase := .awaiting none, buffer := { slot := .awaited }, context } := by
      change (Session.step setup.streaming ({ context } : Session)).run setup.streaming
        (List.replicate (n + 1) .step) = _
      rw [hfirst]
      exact run_of_rests _ rfl _
    rw [hs]
    simp [he]
  · have hfirst : Session.step setup.streaming ({ context } : Session) =
        { phase := .prompting none, context, state := .running } := by
      simp [Session.step, Session.iterate, Setup.streaming, LineBuffer.isDone, he, enterPrompt,
        SessionState.start]
    let prompt := promptText setup ({ context } : Session)
    have hsecond : Session.step setup.streaming
          { phase := .prompting none, context, state := .running } =
        { phase := .awaiting none, buffer := { slot := .awaited }, context, state := .running,
          output := { written := prompt.toUTF8 } } := by
      have hprompt (s : Session) (ha : s.accumulated = "") :
          s.promptText setup.streaming = prompt := by
        simp only [prompt, promptText, ha]
        rfl
      simp [Session.step, Session.write, Sink.write, Session.read, LineBuffer.read, hprompt]
    have hs : s = { phase := .awaiting none, buffer := { slot := .awaited }, context,
                    state := .running, output := { written := prompt.toUTF8 } } := by
      change (Session.step setup.streaming (Session.step setup.streaming
        ({ context } : Session))).run setup.streaming (List.replicate n .step) = _
      rw [hfirst, hsecond]
      exact run_of_rests _ rfl _
    rw [hs]
    simp [he, prompt]

/-- An interrupt while a read waits and a unit is unfinished resets the session. Until the driver
has answered it the session writes nothing and goes on. The answer is the end of a line, and with it
the unit is dropped. From then on the output, the errors, the bindings, the unfinished text, the
result and the journal are those of a fresh session with the same bindings, for which the input is
what arrives after the interrupt. -/
theorem interrupt_resets (setup : Setup U) (o : Options) (host : Host) (output errors : Sink)
    (before : List SessionEvent)
    (hp : ((create o host output errors).run setup before).phase = .awaiting none)
    (ha : ((create o host output errors).run setup before).accumulated ≠ "")
    (ho : ¬ ((create o host output errors).run setup before).output.MayFail)
    (he : ¬ ((create o host output errors).run setup before).errors.MayFail) :
    let s := (create o host output errors).run setup before
    let fresh : Session := { context := s.context }
    (∀ a b, (∀ e ∈ a ++ b, e ≠ .step) →
      ∀ t ∈ [s.run setup (.interrupt :: a), s.run setup (.interrupt :: a ++ .step :: b)],
        t.result? = none ∧ t.output = s.output ∧ t.errors = s.errors) ∧
    (∀ a b c, (∀ e ∈ a ++ b, e ≠ .step) →
      let events := .interrupt :: a ++ .step :: b ++ .step :: c
      let t := s.run setup events
      let r := fresh.run setup.streaming (a ++ b ++ c)
      t.output.written = s.output.written ++ "\n".toUTF8 ++ r.output.written ∧
      t.errors.written = s.errors.written ++ r.errors.written ∧
      t.context = r.context ∧ t.accumulated = r.accumulated ∧ t.result? = r.result? ∧
      s.journal setup events =
        .dropped s.accumulated :: fresh.journal setup.streaming (a ++ b ++ c)) ∧
    ∀ n, let t := s.run setup (.interrupt :: List.replicate (n + 4) .step)
      t.phase = .awaiting none ∧ t.accumulated = "" ∧ t.context = s.context ∧
      t.errors.written = s.errors.written ∧
      t.output.written = s.output.written ++
        ("\n" ++ if setup.echo then "" else fresh.promptText setup).toUTF8 := by
  intro s fresh
  have hs : s.Lawful setup .any := lawful_of_open o host output errors before (by rw [hp]; rfl)
  refine ⟨?_, ?_, ?_⟩
  · intro a b hab t ht
    simp only [List.mem_cons, List.not_mem_nil, or_false] at ht
    rcases ht with rfl | rfl
    · rw [(run_answered hs hp hab).1]
      exact ⟨rfl, rfl, rfl⟩
    · rw [(run_breaking hs hp hab).1]
      exact ⟨rfl, rfl, rfl⟩
  · intro a b c hab events t r
    obtain ⟨hr, hjournal⟩ := run_reset hs hp hab ho he ha c
    exact ⟨hr.output.written, hr.errors.written, hr.context, hr.accumulated, hr.result, hjournal⟩
  · intro n t
    have hnone : ∀ e ∈ ([] ++ [] : List SessionEvent), e ≠ .step := by simp
    have hr : t.Resumes (fresh.run setup.streaming (List.replicate (n + 2) .step))
        (s.output.written ++ "\n".toUTF8) s.errors.written :=
      (run_reset hs hp hnone ho he ha (List.replicate (n + 2) .step)).1
    obtain ⟨hphase, hacc, hcontext, herrors, houtput⟩ := fresh_reads setup s.context n
    refine ⟨?_, hr.accumulated.trans hacc, hr.context.trans hcontext, ?_, ?_⟩
    · rcases hr.phase with ⟨hsame, -⟩ | ⟨-, hcreated⟩
      · exact hsame.trans hphase
      · cases hcreated.symm.trans hphase
    · rw [hr.errors.written, herrors, ByteArray.append_empty]
    · rw [hr.output.written, houtput, ByteArray.append_assoc]
      simp [fresh]

def unfinished : Session :=
  (create {} {} {} {}).run Script.terminalSetup
    [.step, .step, .feed [91, 10], .step, .step, .step, .feed [49]]

theorem unfinished_resets :
    unfinished.phase = .awaiting none ∧ unfinished.accumulated = "[\n" ∧
    unfinished.buffer.residue = [49] ∧
    ∀ c, let t := unfinished.run Script.terminalSetup ([.interrupt, .step, .step] ++ c)
      let r := run Script.terminalSetup ({ context := unfinished.context } : Session) c
      t.output.written = unfinished.output.written ++ "\n".toUTF8 ++ r.output.written ∧
      t.result? = r.result? := by
  have hp : unfinished.phase = .awaiting none := by rfl
  have ha : unfinished.accumulated = "[\n" := by rfl
  have hroom : unfinished.output.room = none ∧ unfinished.errors.room = none ∧
      unfinished.output.failsToClose = false ∧ unfinished.errors.failsToClose = false := by
    refine ⟨?_, ?_, ?_, ?_⟩ <;> rfl
  have h := interrupt_resets Script.terminalSetup {} {} {} {}
    [.step, .step, .feed [91, 10], .step, .step, .step, .feed [49]] hp
    (by change unfinished.accumulated ≠ ""; rw [ha]; decide)
    (by change ¬ unfinished.output.MayFail; simp [Sink.MayFail, hroom])
    (by change ¬ unfinished.errors.MayFail; simp [Sink.MayFail, hroom])
  refine ⟨hp, ha, by rfl, fun c => ?_⟩
  have hnone : ∀ e ∈ ([] ++ [] : List SessionEvent), e ≠ .step := by simp
  obtain ⟨houtput, -, -, -, hresult, -⟩ := h.2.1 [] [] c hnone
  exact ⟨houtput, hresult⟩

end Session
end PromptLoop
