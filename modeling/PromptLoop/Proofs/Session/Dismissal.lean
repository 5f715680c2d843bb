import PromptLoop.Proofs.Session.Accumulation
import PromptLoop.Proofs.Session.Sinks

set_option autoImplicit false

namespace PromptLoop

variable {U V : Type}

namespace LineBuffer

structure Marked (b : LineBuffer) : Prop where
  slot : b.slot = .free
  head : b.lines.head? = some interruptMarker

variable {b : LineBuffer}

theorem Marked.settle (h : b.Marked) : b.settle.1.Marked := by
  have heq : b.settle = (b, none) := by simp [LineBuffer.settle, h.slot]
  rw [heq]
  exact h

theorem Marked.append (h : b.Marked) (more : List String) :
    (b.lines ++ more).head? = some interruptMarker := by
  simp [List.head?_append, h.head]

theorem Marked.feed (h : b.Marked) (chunk : List UInt8) : (b.feed chunk).1.Marked := by
  unfold LineBuffer.feed
  split
  · exact h
  · exact Marked.settle ⟨h.slot, h.append _⟩

theorem Marked.finish (h : b.Marked) : b.finish.1.Marked := by
  unfold LineBuffer.finish
  split
  · exact h
  · exact Marked.settle ⟨h.slot, h.append _⟩

theorem Marked.fail (h : b.Marked) (message : String) : (b.fail message).1.Marked := by
  unfold LineBuffer.fail
  split
  · exact h
  · exact Marked.settle ⟨h.slot, h.head⟩

theorem interrupt_marked (h : b.slot = .free) : b.interrupt.1.Marked :=
  Marked.settle ⟨h, rfl⟩

theorem Marked.refill (h : b.Marked) (e : SessionEvent) : (e.refill b).Marked := by
  cases e with
  | feed chunk => exact h.feed chunk
  | finish => exact h.finish
  | fail message => exact h.fail message
  | interrupt => exact interrupt_marked h.slot
  | _ => exact h

theorem Marked.isDone (h : b.Marked) : b.isDone = false := by
  have hhead := h.head
  cases hl : b.lines with
  | nil => simp [hl] at hhead
  | cons line rest => simp [LineBuffer.isDone, hl]

theorem Marked.read (h : b.Marked) :
    b.read = .ok ({ b with lines := b.lines.tail, slot := .free }, some (.line interruptMarker)) := by
  have hhead := h.head
  cases hl : b.lines with
  | nil => simp [hl] at hhead
  | cons line rest =>
    obtain rfl : line = interruptMarker := by simpa [hl] using hhead
    simp [LineBuffer.read, h.slot, hl]

end LineBuffer

/-- The results of a session that was interrupted while it waited for a result. `E` are the errors
of the unit and of the transform, and the sinks are those of the session. -/
inductive Dismissal (E : SessionError → Prop) (output errors : Sink) : SessionResult → Prop where
  | interrupted : Dismissal E output errors (.ok .interrupted)
  | fatal {e : SessionError} (he : E e) (hf : e.isFatal = true) :
      Dismissal E output errors (.error e)
  | unwritten (h : output.room ≠ none ∨ errors.room ≠ none) :
      Dismissal E output errors (.error (.transport Sink.writeFailure))
  | unclosed {message : String}
      (h : output.closeFailure? = some message ∨ errors.closeFailure? = some message) :
      Dismissal E output errors (.error (.transport message))

namespace Phase
variable {E : SessionError → Prop} {R : SessionResult → Prop} {p : Phase}

def BeforeMarker (E : SessionError → Prop) : Phase → Prop
  | .pending _ d interrupted => interrupted = true ∧ ∀ e, d.outcome = .error e → E e
  | .transforming d => ∀ e, d.outcome = .error e → E e
  | .prompting line => line = none
  | .printing _ => True
  | .reporting _ => True
  | .yielding => True
  | _ => False

def BehindMarker (R : SessionResult → Prop) : Phase → Prop
  | .breaking => True
  | .closing r => R r
  | .closingErrors r failure => R r ∧ ∀ message ∈ failure, R (.error (.transport message))
  | .ended r => R r
  | _ => False

/-- The steps to the end of a session that was interrupted while it waited for a result. A result
that is waited for counts as one. -/
def stepsLeft : Phase → Nat
  | .ended _ => 0
  | .closingErrors _ _ => 1
  | .closing _ => 2
  | .breaking => 3
  | .prompting _ => 4
  | .yielding => 5
  | .printing _ => 6
  | .reporting _ => 6
  | .transforming _ => 7
  | _ => 8

theorem Behind.splits (h : p.Behind E) (hR : ∀ e, E e → e.isFatal = true → R (.error e)) :
    p.BeforeMarker E ∨ p.BehindMarker R := by
  cases p with
  | yielding => exact .inl trivial
  | printing v => exact .inl trivial
  | reporting e => exact .inl trivial
  | transforming d => exact .inl h
  | closing r =>
    obtain ⟨e, rfl, hf, he⟩ := h
    exact .inr (hR e he hf)
  | _ => exact False.elim h

theorem Behind.stepsLeft (h : p.Behind E) : p.stepsLeft ≤ 7 := by
  cases p <;> first | exact False.elim h | simp [Phase.stepsLeft]

theorem behindTransform_stepsLeft (outcome : Except SessionError (Option Value)) :
    (behindTransform outcome).stepsLeft ≤ 6 := by
  cases outcome with
  | error e =>
    unfold behindTransform behindError
    dsimp only
    split <;> simp [Phase.stepsLeft]
  | ok v => cases v <;> simp [behindTransform, Phase.stepsLeft]

end Phase

namespace SessionEvent

def isStep : SessionEvent → Bool
  | .step => true
  | _ => false

end SessionEvent

namespace Session

/-- The session comes to its end within `n` steps, and handles no line any more. -/
structure Dismissed (E : SessionError → Prop) (output errors : Sink) (n : Nat) (s : Session) :
    Prop where
  stage : s.phase.BeforeMarker E ∧ s.buffer.Marked ∨
    s.phase.BehindMarker (Dismissal E output errors)
  left : s.phase.stepsLeft ≤ n
  accumulated : s.accumulated = ""
  output : s.output.Alike output
  errors : s.errors.Alike errors

variable {setup : Setup U} {s : Session} {E : SessionError → Prop} {output errors : Sink} {n m : Nat}

theorem Dismissed.mono (h : s.Dismissed E output errors n) (hle : n ≤ m) :
    s.Dismissed E output errors m :=
  { h with left := Nat.le_trans h.left hle }

theorem Dismissed.before {p : Phase} (h : s.Dismissed E output errors n)
    (hm : s.buffer.Marked) (hp : p.BeforeMarker E) (hl : p.stepsLeft ≤ m) :
    Dismissed E output errors m { s with phase := p } :=
  ⟨.inl ⟨hp, hm⟩, hl, h.accumulated, h.output, h.errors⟩

theorem Dismissed.write {text : String} {next : Session → Session}
    (h : s.Dismissed E output errors n) (hm : 2 ≤ m)
    (hnext : ∀ sink, sink.Alike output →
      (next { s with output := sink }).Dismissed E output errors m) :
    (s.write text next).Dismissed E output errors m := by
  have hsink := h.output.write text
  unfold Session.write
  rcases Sink.write_cases s.output text with ⟨hw, -⟩ | ⟨hw, hroom, -⟩
  · simp only [hw]
    exact hnext _ hsink
  · simp only [hw]
    have hlimited : output.room ≠ none := fun hn => hroom (h.output.room.2 hn)
    exact ⟨.inr (.unwritten (.inl hlimited)), hm, h.accumulated, hsink, h.errors⟩

theorem Dismissed.report (h : s.Dismissed E output errors n) (hb : s.buffer.Marked) (hm : 5 ≤ m)
    (text : String) : (s.writeError text yield).Dismissed E output errors m := by
  have hsink := h.errors.write text
  unfold Session.writeError
  rcases Sink.write_cases s.errors text with ⟨hw, -⟩ | ⟨hw, hroom, -⟩
  · simp only [hw]
    exact ⟨.inl ⟨trivial, hb⟩, hm, h.accumulated, h.output, hsink⟩
  · simp only [hw]
    have hlimited : errors.room ≠ none := fun hn => hroom (h.errors.room.2 hn)
    have htwo : 2 ≤ m := by omega
    exact ⟨.inr (.unwritten (.inr hlimited)), htwo, h.accumulated, h.output, hsink⟩

theorem read_marked (h : s.buffer.Marked) :
    s.read setup =
        { s with
          buffer := { s.buffer with lines := s.buffer.lines.tail, slot := .free }
          phase := .breaking } ∧
      s.readEntries setup = [] := by
  constructor
  · unfold Session.read
    rw [h.read]
    simp [Session.receive]
  · unfold readEntries
    rw [h.read]
    simp [Answer.entries, receiveEntries]

theorem Dismissed.read (h : s.Dismissed E output errors n) (hb : s.buffer.Marked) (hm : 3 ≤ m) :
    (s.read setup).Dismissed E output errors m := by
  rw [(read_marked hb).1]
  exact ⟨.inr trivial, hm, h.accumulated, h.output, h.errors⟩

theorem Dismissed.iterate (h : s.Dismissed E output errors n) (hb : s.buffer.Marked)
    (hm : 4 ≤ m) : (s.iterate setup).Dismissed E output errors m := by
  unfold Session.iterate
  rw [hb.isDone, if_neg (by simp)]
  split
  · exact h.read hb (by omega)
  · exact ⟨.inl ⟨rfl, hb⟩, hm, h.accumulated, h.output, h.errors⟩

/-- A step brings the end nearer, unless a transform is waited for. -/
theorem Dismissed.step (h : s.Dismissed E output errors (n + 1))
    (hw : ∀ d, s.phase ≠ .transforming d) : (s.step setup).Dismissed E output errors n := by
  have hleft := h.left
  have hstage := h.stage
  unfold Session.step
  cases hp : s.phase <;> simp only [hp, Phase.stepsLeft] at hleft <;>
    simp only [hp, Phase.BeforeMarker, Phase.BehindMarker, or_false, false_or, false_and] at hstage
  case pending declaration d interrupted =>
    obtain ⟨⟨rfl, -⟩, hb⟩ := hstage
    exact h.before hb (p := .reporting .interrupted) trivial (by simp [Phase.stepsLeft]; omega)
  case prompting line =>
    obtain ⟨rfl, hb⟩ := hstage
    refine h.write (by omega) fun sink hsink => ?_
    exact Dismissed.read { h with output := hsink } hb (by omega)
  case transforming d => exact absurd hp (hw d)
  case printing v =>
    refine h.write (by omega) fun sink hsink => ?_
    exact ⟨.inl ⟨trivial, hstage.2⟩, by simp [yield, Phase.stepsLeft]; omega, h.accumulated, hsink,
      h.errors⟩
  case reporting e => exact h.report hstage.2 (by omega) _
  case yielding => exact h.iterate hstage.2 (by omega)
  case breaking =>
    refine h.write (by omega) fun sink hsink => ?_
    unfold afterBreak
    rw [if_pos h.accumulated]
    exact ⟨.inr .interrupted, by simp [close, Phase.stepsLeft]; omega, h.accumulated, hsink,
      h.errors⟩
  case closing r =>
    refine ⟨.inr ⟨hstage, ?_⟩, by simp [Phase.stepsLeft]; omega, h.accumulated, ?_, h.errors⟩
    · intro message hm
      exact .unclosed (.inl (h.output.closing.symm.trans hm))
    · exact ⟨h.output.room, h.output.closing⟩
  case closingErrors r failure =>
    refine ⟨.inr ?_, Nat.zero_le n, h.accumulated, h.output, ⟨h.errors.room, h.errors.closing⟩⟩
    refine finalResult_mem hstage.1 hstage.2 ?_
    intro message hm
    exact .unclosed (.inr (h.errors.closing.symm.trans hm))
  case ended r => exact { h with left := by simp [hp, Phase.stepsLeft] }

theorem Dismissed.awaits (h : s.Dismissed E output errors n) : s.phase.awaits = false := by
  have hstage := h.stage
  cases hp : s.phase with
  | awaiting a => simp [hp, Phase.BeforeMarker, Phase.BehindMarker] at hstage
  | _ => rfl

theorem Dismissed.mark (h : s.Dismissed E output errors n) (e : SessionEvent) :
    e.mark s.phase = s.phase := by
  have hstage := h.stage
  cases hp : s.phase with
  | pending declaration d interrupted =>
    rw [hp] at hstage
    obtain ⟨⟨rfl, -⟩, -⟩ | hbehind := hstage
    · cases e <;> rfl
    · exact False.elim hbehind
  | _ => cases e <;> rfl

/-- Whatever comes from outside, the driver stays where it is, and the marker stays in front. -/
theorem Dismissed.idle (h : s.Dismissed E output errors n) {e : SessionEvent} (he : e ≠ .step)
    (hr : e = .resolve → s.phase.waits = false) :
    (s.handle setup e).Dismissed E output errors n ∧ (s.handle setup e).phase = s.phase ∧
      (s.handle setup e).output = s.output ∧ (s.handle setup e).errors = s.errors := by
  rw [(handle_idle setup he h.awaits hr).1, h.mark e]
  refine ⟨{ h with stage := ?_ }, rfl, rfl, rfl⟩
  rcases h.stage with ⟨hp, hb⟩ | hp
  · exact .inl ⟨hp, hb.refill e⟩
  · exact .inr hp

section Events
variable (ht : ∀ f v e, setup.transform = some f → (f v).outcome = .error e → E e)
include ht

theorem Dismissed.resolve (h : s.Dismissed E output errors n) :
    (s.resolve setup).Dismissed E output errors n := by
  have hleft := h.left
  have hstage := h.stage
  have hfatal : ∀ e, E e → e.isFatal = true → Dismissal E output errors (.error e) :=
    fun e => .fatal
  unfold Session.resolve
  split
  · rename_i declaration d interrupted hp
    simp only [hp, Phase.stepsLeft] at hleft
    simp only [hp, Phase.BeforeMarker, Phase.BehindMarker, or_false] at hstage
    obtain ⟨⟨-, hd⟩, hb⟩ := hstage
    have hnext := Phase.behindUnit_behind ht declaration hd
    have hleft' : (Phase.behindUnit setup.transform declaration d.outcome).stepsLeft ≤ n :=
      Nat.le_trans hnext.stepsLeft (by omega)
    rw [settled_eq]
    refine { h with stage := ?_, left := hleft' }
    rcases hnext.splits hfatal with hp | hp
    · exact .inl ⟨hp, hb⟩
    · exact .inr hp
  · rename_i d hp
    simp only [hp, Phase.stepsLeft] at hleft
    simp only [hp, Phase.BeforeMarker, Phase.BehindMarker, or_false] at hstage
    obtain ⟨hd, hb⟩ := hstage
    have hleft' : (Phase.behindTransform d.outcome).stepsLeft ≤ n :=
      Nat.le_trans (Phase.behindTransform_stepsLeft d.outcome) (by omega)
    rw [transformed_eq]
    refine { h with stage := ?_, left := hleft' }
    rcases (Phase.behindTransform_behind hd).splits hfatal with hp | hp
    · exact .inl ⟨hp, hb⟩
    · exact .inr hp
  · exact h

theorem Dismissed.handle (h : s.Dismissed E output errors n) (e : SessionEvent) :
    (s.handle setup e).Dismissed E output errors n := by
  cases e with
  | step =>
    change (s.step setup).Dismissed E output errors n
    by_cases hw : ∃ d, s.phase = .transforming d
    · obtain ⟨d, hp⟩ := hw
      rw [step_of_rests (by rw [hp]; rfl)]
      exact h
    · exact (h.mono (Nat.le_succ n)).step fun d hp => hw ⟨d, hp⟩
  | resolve => exact h.resolve ht
  | _ => exact (h.idle (by simp) (by simp)).1

theorem Dismissed.run (h : s.Dismissed E output errors n) (events : List SessionEvent) :
    (s.run setup events).Dismissed E output errors n := by
  induction events generalizing s with
  | nil => exact h
  | cons e rest ih => exact ih (h.handle ht e)

end Events

theorem Dismissed.no_compile (h : s.Dismissed E output errors n) (e : SessionEvent)
    (source : String) : .compiled source ∉ s.entries setup e := by
  by_cases he : e = .step
  · subst he
    have hstage := h.stage
    change _ ∉ s.stepEntries setup
    unfold stepEntries
    cases hp : s.phase <;>
      simp only [hp, Phase.BeforeMarker, Phase.BehindMarker, or_false, false_and] at hstage
    case prompting line =>
      obtain ⟨rfl, hb⟩ := hstage
      dsimp only
      rw [(read_marked hb).2]
      split <;> simp_all
    case breaking =>
      dsimp only
      split <;> simp
    case yielding =>
      simp only [iterateEntries, (read_marked hstage.2).2]
      split <;> simp
    all_goals simp
  · by_cases hr : e = .resolve
    · simp [hr, entries]
    · rw [(handle_idle setup he h.awaits fun heq => absurd heq hr).2]
      simp

theorem Dismissed.over (h : s.Dismissed E output errors 0) : s.result?.isSome = true := by
  have hleft := h.left
  unfold result?
  cases hp : s.phase <;> simp [hp, Phase.stepsLeft] at hleft ⊢

/-- The driver comes to the end, or to a transform. -/
theorem Dismissed.ends
    (ht : ∀ f v e, setup.transform = some f → (f v).outcome = .error e → E e)
    (h : s.Dismissed E output errors n) {events : List SessionEvent}
    (hn : n ≤ events.countP SessionEvent.isStep) :
    (s.run setup events).result?.isSome = true ∨
      ∃ front back d, events = front ++ back ∧ (s.run setup front).phase = .transforming d := by
  induction events generalizing s n with
  | nil =>
    obtain rfl : n = 0 := Nat.le_zero.1 hn
    exact .inl h.over
  | cons e rest ih =>
    by_cases hw : ∃ d, s.phase = .transforming d
    · obtain ⟨d, hp⟩ := hw
      exact .inr ⟨[], e :: rest, d, rfl, hp⟩
    · have hnext : ∃ k, k ≤ rest.countP SessionEvent.isStep ∧
          (s.handle setup e).Dismissed E output errors k := by
        by_cases he : e = .step
        · subst he
          rw [List.countP_cons_of_pos (by rfl)] at hn
          refine ⟨_, Nat.le_refl _, ?_⟩
          exact (h.mono hn).step fun d hp => hw ⟨d, hp⟩
        · have hcount : rest.countP SessionEvent.isStep = (e :: rest).countP SessionEvent.isStep := by
            cases e with
            | step => exact absurd rfl he
            | _ => rfl
          exact ⟨n, hcount ▸ hn, h.handle ht e⟩
      obtain ⟨k, hk, hnext⟩ := hnext
      rcases ih hnext hk with hover | ⟨front, back, d, rfl, hp⟩
      · exact .inl hover
      · exact .inr ⟨e :: front, back, d, rfl, hp⟩

theorem Dismissed.ends_resolved
    (ht : ∀ f v e, setup.transform = some f → (f v).outcome = .error e → E e)
    (h : s.Dismissed E output errors n) {d : Deferred} (hp : s.phase = .transforming d)
    {events : List SessionEvent} (hn : 6 ≤ events.countP SessionEvent.isStep) :
    ((s.resolve setup).run setup events).result?.isSome = true := by
  have hsoon : (s.resolve setup).Dismissed E output errors 6 := by
    refine { h.resolve ht with left := ?_ }
    unfold Session.resolve
    rw [hp]
    dsimp only
    rw [transformed_eq]
    exact Phase.behindTransform_stepsLeft d.outcome
  -- Six steps are fewer than those that lead from a transform to the end, so there is no other.
  rcases hsoon.ends ht hn with hover | ⟨front, back, d', -, hp'⟩
  · exact hover
  · have hleft := (hsoon.run ht front).left
    simp [hp', Phase.stepsLeft] at hleft

theorem Dismissed.dismissal (h : s.Dismissed E output errors n) {result : SessionResult}
    (hr : s.result? = some result) : Dismissal E output errors result := by
  have hstage := h.stage
  rw [ended_of_result hr] at hstage
  rcases hstage with ⟨hbefore, -⟩ | hbehind
  · exact False.elim hbefore
  · exact hbehind

theorem Dismissed.run_idle (h : s.Dismissed E output errors n) (events : List SessionEvent)
    (he : ∀ e ∈ events, e ≠ .step ∧ e ≠ .resolve) :
    (s.run setup events).phase = s.phase ∧ (s.run setup events).output = s.output ∧
      (s.run setup events).errors = s.errors ∧
      (s.run setup events).context = rebind events s.context := by
  induction events generalizing s with
  | nil => exact ⟨rfl, rfl, rfl, rfl⟩
  | cons e rest ih =>
    obtain ⟨hstep, hresolve⟩ := he e (by simp)
    have hcontext : (s.handle setup e).context = e.rebind s.context :=
      handle_context (h.no_compile e) fun hr => absurd hr hresolve
    obtain ⟨hnext, hp, ho, herr⟩ : (s.handle setup e).Dismissed E output errors n ∧ _ :=
      h.idle hstep fun hr => absurd hr hresolve
    obtain ⟨hp', ho', herr', hc⟩ := ih hnext fun e' hmem => he e' (by simp [hmem])
    rw [hcontext] at hc
    exact ⟨hp'.trans hp, ho'.trans ho, herr'.trans herr, hc⟩

theorem Dismissed.journal
    (ht : ∀ f v e, setup.transform = some f → (f v).outcome = .error e → E e)
    (h : s.Dismissed E output errors n) (events : List SessionEvent) (source : String) :
    .compiled source ∉ s.journal setup events := by
  induction events generalizing s with
  | nil => simp [Session.journal]
  | cons e rest ih =>
    simp only [Session.journal, List.mem_append, not_or]
    exact ⟨h.no_compile e source, ih (h.handle ht e)⟩

end Session
end PromptLoop
