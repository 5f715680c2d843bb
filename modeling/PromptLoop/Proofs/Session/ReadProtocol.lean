import PromptLoop.Proofs.Session.Invariant
import PromptLoop.Script.Evaluator

set_option autoImplicit false

/-!
# The read protocol of the driver

A read must not be started while another one is outstanding, nor when the reader is done. The driver
looks at the reader at the beginning of an iteration. A session that echoes reads at once, so it
keeps the protocol. A session that prompts first reads when the prompt has been written, and breaks
the protocol in exactly one case: the input ended in between and left nothing to be read.
-/
namespace PromptLoop

variable {U : Type} {terms : Terms}

def Terms.abiding : Terms where
  errors e := ∀ message, e ≠ .protocolViolation message
  results r := ∀ message, r ≠ .error (.protocolViolation message)
  interrupts := True

def Terms.undisturbed : Terms where
  errors e := e.isFatal = false
  results r := r = .ok .endOfInput
  interrupts := False

theorem Terms.abiding_cover {setup : Setup U} (h : setup.Reports abiding.errors) :
    abiding.Cover setup where
  reports := h
  fatal e he _ message heq := he message (Except.error.inj heq)
  input_ended := by simp [abiding]
  abandoned := by simp [abiding]
  interrupted := by simp [abiding]
  file := by simp [abiding]

theorem Terms.undisturbed_cover {setup : Setup U} (h : setup.Reports undisturbed.errors)
    (hf : ∀ e, setup.source ≠ .file (.error e)) : undisturbed.Cover setup where
  reports := h
  fatal e he hfatal := by simp [undisturbed, hfatal] at he
  input_ended := rfl
  abandoned := False.elim
  interrupted := False.elim
  file e he := absurd he (hf e)

def Terms.any : Terms where
  errors _ := True
  results _ := True
  interrupts := True

theorem Terms.any_cover (setup : Setup U) : any.Cover setup where
  reports := ⟨fun _ _ _ => trivial, fun _ _ _ _ => trivial, fun _ _ _ _ _ _ => trivial,
    fun _ _ _ _ _ => trivial⟩
  fatal _ _ _ := trivial
  input_ended := trivial
  abandoned _ := trivial
  interrupted _ := trivial
  file _ _ := trivial

theorem Phase.Within.verdict {p : Phase} {echo : Bool} (h : p.Within terms echo)
    {r : SessionResult} (hv : p.verdict? = some r) : terms.results r := by
  cases p with
  | closing r' =>
    obtain rfl : r' = r := Option.some.inj hv
    exact h
  | closingErrors r' failure =>
    obtain rfl : r' = r := Option.some.inj hv
    exact h.1
  | ended r' =>
    obtain rfl : r' = r := Option.some.inj hv
    exact h
  | _ => simp [Phase.verdict?] at hv

theorem Phase.Within.inside {p : Phase} {echo : Bool} (h : p.Within terms echo)
    (hv : p.verdict?.isSome = true) : p.Inside terms := by
  cases p with
  | closing r => exact h
  | closingErrors r failure => exact h
  | ended r => exact h
  | _ => simp [Phase.verdict?] at hv

/-- The language reports what is wrong with a text or a run. Neither ends a session. -/
theorem Script.evaluator_reports {setup : Setup Statement} (he : setup.evaluator = evaluator)
    (ht : setup.transform = none) : setup.Reports fun e => e.isFatal = false := by
  have hrun : ∀ (run : Timed RuntimeError (Option Value)) (e : SessionError),
      (run.outcome.mapError fun e => SessionError.runtime e.message) = .error e →
        e.isFatal = false := by
    intro run e h
    cases ho : run.outcome with
    | ok v => simp [ho, Except.mapError] at h
    | error e' =>
      rw [ho] at h
      cases h
      rfl
  refine ⟨?_, ?_, ?_, ?_⟩
  · intro source e h
    rw [he] at h
    change compile source = .fatal e at h
    unfold compile at h
    split at h <;> cases h
    rfl
  · intro unit context e h
    rw [he] at h
    change execution (unit.run context) = .failed e at h
    unfold execution at h
    dsimp only at h
    split at h
    · cases h
    · split at h <;> cases h
      rename_i ho
      exact hrun _ e ho
  · intro unit context d e h hd
    rw [he] at h
    change execution (unit.run context) = .pending d at h
    unfold execution at h
    dsimp only at h
    split at h
    · cases h
      exact hrun _ e hd
    · split at h <;> cases h
  · intro transform v e h
    simp [ht] at h

def Script.terminalSetup : Setup Statement where
  evaluator := evaluator
  source := .stream
  prompt := "> "
  continuation := "... "
  echo := false
  styled := false
  errorsStyled := false
  format := Value.displayText false
  transform := none

namespace Session
variable {setup : Setup U} {s : Session}

theorem create_lawful (o : Options) (host : Host) {output errors : Sink}
    (ho : output.MayFail → ∀ message, terms.results (.error (.transport message)))
    (he : errors.MayFail → ∀ message, terms.results (.error (.transport message))) :
    (create o host output errors).Lawful setup terms where
  sound := LineBuffer.sound_empty
  slot := rfl
  phase := trivial
  buffer := ⟨by simp [create], by simp [create]⟩
  output := ho
  errors := he

theorem verdict_handle {failure : SessionError}
    (h : s.phase.verdict? = some (.error failure)) (e : SessionEvent) :
    (s.handle setup e).phase.verdict? = some (.error failure) := by
  have hkept : ∀ r : LineBuffer × Option Answer, (s.supply r).phase = s.phase := by
    intro r
    unfold Session.supply
    split
    · rename_i hp
      simp [hp, Phase.verdict?] at h
    · rfl
  cases hp : s.phase with
  | closing r =>
    obtain rfl : r = .error failure := by simpa [hp, Phase.verdict?] using h
    cases e <;> simp [handle, Session.step, Session.resolve, Session.feed, Session.finish,
      failInput, Session.interrupt, embed, hkept, hp, Phase.verdict?]
  | closingErrors r closed =>
    obtain rfl : r = .error failure := by simpa [hp, Phase.verdict?] using h
    cases e <;> simp [handle, Session.step, Session.resolve, Session.feed, Session.finish,
      failInput, Session.interrupt, embed, hkept, hp, Phase.verdict?, finalResult]
  | ended r =>
    obtain rfl : r = .error failure := by simpa [hp, Phase.verdict?] using h
    cases e <;> simp [handle, Session.step, Session.resolve, Session.feed, Session.finish,
      failInput, Session.interrupt, embed, hkept, hp, Phase.verdict?]
  | _ => simp [hp, Phase.verdict?] at h

theorem verdict_run {failure : SessionError} (events : List SessionEvent)
    (h : s.phase.verdict? = some (.error failure)) :
    (s.run setup events).phase.verdict? = some (.error failure) := by
  induction events generalizing s with
  | nil => exact h
  | cons e rest ih => exact ih (verdict_handle h e)

theorem ReadsLate.step (h : s.ReadsLate setup) (hs : s.Lawful setup terms) :
    (s.step setup).phase = .closing (.error (.protocolViolation ReadFault.afterEnd.message)) := by
  have hfree : s.buffer.slot = .free := hs.free (by rw [h.phase]; rfl)
  have hread : s.buffer.read = .error .afterEnd := by
    have hstart := LineBuffer.read_starting s.buffer
    cases hr : s.buffer.read with
    | ok r => exact absurd hr (LineBuffer.read_of_isDone h.done)
    | error fault =>
      rw [hr] at hstart
      cases hstart with
      | outstanding hs' => simp [hfree] at hs'
      | afterEnd _ _ => rfl
  unfold Session.step
  rw [h.phase]
  dsimp only
  rcases write_cases (s.promptText setup) _ s with ⟨-, heq⟩ | ⟨message, hm, -⟩
  · rw [heq]
    simp [Session.read, hread, close]
  · simp [h.written] at hm

/-- While a prompt is written, only the end of the input leaves nothing to be read. -/
theorem Lawful.done_before (hs : s.Lawful setup terms) (hp : s.phase = .prompting none)
    {e : SessionEvent} (hstep : e ≠ .step) (hfinish : e ≠ .finish)
    (hd : (s.handle setup e).buffer.isDone = true) : s.buffer.isDone = true := by
  have hfree : s.buffer.slot = .free := hs.free (by rw [hp]; rfl)
  have hsupply : ∀ r : LineBuffer × Option Answer, (s.supply r).buffer = r.1 := by
    intro r
    simp [Session.supply, hp]
  cases e with
  | step => exact absurd rfl hstep
  | finish => exact absurd rfl hfinish
  | resolve => simpa [Session.handle, Session.resolve, hp] using hd
  | embed change => exact hd
  | feed chunk =>
    simp only [Session.handle, Session.feed, hsupply] at hd
    have he := ((LineBuffer.isDone_iff _).1 hd).1
    rw [LineBuffer.feed_ended] at he
    simpa [LineBuffer.feed, he] using hd
  | fail message =>
    simp only [Session.handle, failInput, hsupply, LineBuffer.fail] at hd
    split at hd
    · exact hd
    · simp [LineBuffer.settle, LineBuffer.isDone, hfree] at hd
  | interrupt =>
    have hkept : s.interrupt.buffer = s.buffer.interrupt.1 := by
      simp [Session.interrupt, Session.supply, hp]
    simp [Session.handle, hkept, LineBuffer.interrupt, LineBuffer.settle, LineBuffer.isDone,
      hfree] at hd

theorem Lawful.prompting_before (ht : terms.Cover setup) (hs : s.Lawful setup terms)
    {e : SessionEvent} (hstep : e ≠ .step) (hp : (s.handle setup e).phase = .prompting none) :
    s.phase = .prompting none := by
  have hsupply : ∀ r : LineBuffer × Option Answer, (s.supply r).phase = .prompting none →
      s.phase = .prompting none := by
    intro r h
    unfold Session.supply at h
    split at h
    · simp at h
    · exact h
  cases e with
  | step => exact absurd rfl hstep
  | resolve =>
    have hphase := hs.phase
    simp only [Session.handle, Session.resolve] at hp
    split at hp
    · rename_i declaration d interrupted heq
      simp only [heq, Phase.Within, Phase.Inside] at hphase
      have hi := (settled_moves ht s declaration hphase.2).phase
      simp [hp, Phase.Inside] at hi
    · rename_i d heq
      simp only [heq, Phase.Within, Phase.Inside] at hphase
      have hi := (transformed_moves ht s hphase).phase
      simp [hp, Phase.Inside] at hi
    · exact hp
  | feed chunk => exact hsupply _ hp
  | finish => exact hsupply _ hp
  | fail message => exact hsupply _ hp
  | interrupt =>
    simp only [Session.handle, Session.interrupt] at hp
    split at hp
    · simp at hp
    · exact hsupply _ hp
  | embed change => exact hp

/-- The input ends in `window`, while the prompt is written, and the driver reads nevertheless. -/
structure EndsWhilePrompting (setup : Setup U) (s : Session)
    (before window : List SessionEvent) : Prop where
  prompting : (s.run setup before).phase = .prompting none
  opened : (s.run setup before).buffer.isDone = false
  waiting : .step ∉ window
  ending : .finish ∈ window
  late : (s.run setup (before ++ window)).ReadsLate setup

structure RefusedRead (setup : Setup U) (s : Session) (events : List SessionEvent) : Prop where
  verdict : (s.run setup events).phase.verdict? =
    some (.error (.protocolViolation ReadFault.afterEnd.message))
  prompts_first : setup.echo = false
  cause : ∃ before window after, events = before ++ window ++ .step :: after ∧
    s.EndsWhilePrompting setup before window

/-- A run that has not been refused a read. If it has just prompted and nothing is left to be read,
the input has ended since the prompt was due. -/
structure SafeRun (setup : Setup U) (terms : Terms) (s : Session) (events : List SessionEvent) :
    Prop where
  lawful : (s.run setup events).Lawful setup terms
  ended_since : (s.run setup events).phase = .prompting none →
    (s.run setup events).buffer.isDone = true →
    ∃ before window, events = before ++ window ∧ (s.run setup before).phase = .prompting none ∧
      (s.run setup before).buffer.isDone = false ∧ .step ∉ window ∧ .finish ∈ window

theorem SafeRun.step {events : List SessionEvent} (ht : terms.Cover setup)
    (hs : s.SafeRun setup terms events) :
    s.SafeRun setup terms (events ++ [.step]) ∨ s.RefusedRead setup (events ++ [.step]) := by
  by_cases hl : (s.run setup events).ReadsLate setup
  · right
    obtain ⟨before, window, rfl, hp, ho, hw, hf⟩ := hs.ended_since hl.phase hl.done
    refine ⟨?_, ?_, before, window, [], rfl, hp, ho, hw, hf, hl⟩
    · rw [run_concat]
      simp [Session.handle, hl.step hs.lawful, Phase.verdict?]
    · simpa [hl.phase, Phase.Within] using hs.lawful.phase
  · left
    have harrived : ((s.run setup events).step setup).Arrived setup terms := hs.lawful.step ht hl
    refine ⟨?_, ?_⟩
    · rw [run_concat]
      exact harrived.toLawful
    · rw [run_concat]
      intro hp hd
      have ho := harrived.open_prompt hp
      exact absurd (ho.symm.trans hd) Bool.false_ne_true

theorem SafeRun.other {events : List SessionEvent} {e : SessionEvent} (ht : terms.Cover setup)
    (hs : s.SafeRun setup terms events) (he : e.Within terms) (hstep : e ≠ .step) :
    s.SafeRun setup terms (events ++ [e]) := by
  refine ⟨?_, ?_⟩
  · rw [run_concat]
    exact hs.lawful.handle ht he fun h => absurd h hstep
  · rw [run_concat]
    intro hp hd
    have hprev := hs.lawful.prompting_before ht hstep hp
    cases hdone : (s.run setup events).buffer.isDone with
    | false =>
      have hfinish : e = .finish := by
        refine Classical.byContradiction fun hn => ?_
        have htrue := hs.lawful.done_before hprev hstep hn hd
        exact absurd (hdone.symm.trans htrue) Bool.false_ne_true
      exact ⟨events, [e], rfl, hprev, hdone, by simp [hfinish], by simp [hfinish]⟩
    | true =>
      obtain ⟨before, window, rfl, hbp, hbo, hbw, hbf⟩ := hs.ended_since hprev hdone
      refine ⟨before, window ++ [e], by simp, hbp, hbo, ?_, ?_⟩
      · simpa [hbw] using hstep.symm
      · simp [hbf]

theorem RefusedRead.other {events : List SessionEvent} (h : s.RefusedRead setup events)
    (e : SessionEvent) : s.RefusedRead setup (events ++ [e]) := by
  obtain ⟨before, window, after, rfl, hcause⟩ := h.cause
  refine ⟨?_, h.prompts_first, before, window, after ++ [e], by simp, hcause⟩
  rw [run_concat]
  exact verdict_handle h.verdict e

/-- Every run keeps the read protocol or was refused a read behind the end. -/
theorem run_safe_or_refused (ht : terms.Cover setup) (hs : s.Lawful setup terms)
    (hp : s.phase ≠ .prompting none) (events : List SessionEvent)
    (he : ∀ e ∈ events, e.Within terms) :
    s.SafeRun setup terms events ∨ s.RefusedRead setup events := by
  -- The induction is on the events that are left; the invariant speaks of those in front of them.
  have hgo (front : List SessionEvent)
      (hfront : s.SafeRun setup terms front ∨ s.RefusedRead setup front) :
      s.SafeRun setup terms (front ++ events) ∨ s.RefusedRead setup (front ++ events) := by
    induction events generalizing front with
    | nil => simpa using hfront
    | cons e rest ih =>
      have hnext : s.SafeRun setup terms (front ++ [e]) ∨ s.RefusedRead setup (front ++ [e]) := by
        rcases hfront with hsafe | hrefused
        · by_cases hstep : e = .step
          · subst hstep
            exact hsafe.step ht
          · exact .inl (hsafe.other ht (he e (by simp)) hstep)
        · exact .inr (hrefused.other e)
      have hrest := ih (fun e' h => he e' (by simp [h])) (front ++ [e]) hnext
      rwa [List.append_assoc, List.singleton_append] at hrest
  exact hgo [] (.inl ⟨hs, fun h => absurd h hp⟩)

/-- Until there is a verdict, nothing has gone wrong with the reads. -/
theorem lawful_of_open (o : Options) (host : Host) (output errors : Sink)
    (events : List SessionEvent)
    (hv : ((create o host output errors).run setup events).phase.verdict? = none) :
    ((create o host output errors).run setup events).Lawful setup .any := by
  have hstart : (create o host output errors).Lawful setup .any :=
    create_lawful o host (fun _ _ => trivial) (fun _ _ => trivial)
  have hwithin : ∀ e ∈ events, e.Within .any := by
    intro e _
    cases e <;> trivial
  rcases run_safe_or_refused (Terms.any_cover setup) hstart (by simp [create]) events hwithin with
    h | h
  · exact h.lawful
  · exact absurd (hv.symm.trans h.verdict) (by simp)

/-- The verdict is a broken protocol exactly if the input ended while a prompt was written and left
nothing to be read. It is then a read behind the end, never a second read, in a session that does
not echo. Such a verdict is also the only one that an undisturbed session can come to besides the
end of the input. -/
theorem protocol_broken_iff_ends_while_prompting (setup : Setup U)
    (hr : setup.Reports fun e => ∀ message, e ≠ .protocolViolation message)
    (o : Options) (host : Host) (output errors : Sink) (events : List SessionEvent) :
    ((∃ message, ((create o host output errors).run setup events).phase.verdict? =
        some (.error (.protocolViolation message))) ↔
      ∃ before window after, events = before ++ window ++ .step :: after ∧
        (create o host output errors).EndsWhilePrompting setup before window) ∧
    (∀ message, ((create o host output errors).run setup events).phase.verdict? =
        some (.error (.protocolViolation message)) →
      message = ReadFault.afterEnd.message ∧ setup.echo = false) ∧
    ((∀ e, setup.source ≠ .file (.error e)) → (setup.Reports fun e => e.isFatal = false) →
      ¬ output.MayFail → ¬ errors.MayFail → (∀ e ∈ events, e.Within .undisturbed) →
      ∀ result, ((create o host output errors).run setup events).result? = some result →
        result = .ok .endOfInput ∨
        result = .error (.protocolViolation ReadFault.afterEnd.message)) := by
  have ht : Terms.abiding.Cover setup := Terms.abiding_cover hr
  have hstart : (create o host output errors).Lawful setup .abiding :=
    create_lawful o host (by simp [Terms.abiding]) (by simp [Terms.abiding])
  have hwithin : ∀ events : List SessionEvent, ∀ e ∈ events, e.Within .abiding := by
    intro _ e _
    cases e <;> simp [SessionEvent.Within, Terms.abiding]
  have hruns (events : List SessionEvent) :=
    run_safe_or_refused ht hstart (by simp [create]) events (hwithin events)
  have hsafe {events : List SessionEvent}
      (h : (create o host output errors).SafeRun setup .abiding events) (message : String) :
      ((create o host output errors).run setup events).phase.verdict? ≠
        some (.error (.protocolViolation message)) :=
    fun hv => h.lawful.phase.verdict hv message rfl
  refine ⟨⟨?_, ?_⟩, ?_, ?_⟩
  · rintro ⟨message, hv⟩
    rcases hruns events with h | h
    · exact absurd hv (hsafe h message)
    · exact h.cause
  · rintro ⟨before, window, after, rfl, hends⟩
    refine ⟨ReadFault.afterEnd.message, ?_⟩
    rw [run_append]
    rcases hruns (before ++ window) with h | h
    · have hv := hends.late.step h.lawful
      exact verdict_run after (by rw [Session.handle, hv]; rfl)
    · have hv := h.verdict
      simp [hends.late.phase, Phase.verdict?] at hv
  · intro message hv
    rcases hruns events with h | h
    · exact absurd hv (hsafe h message)
    · have heq := h.verdict.symm.trans hv
      simp only [Option.some.injEq, Except.error.injEq, SessionError.protocolViolation.injEq] at heq
      exact ⟨heq.symm, h.prompts_first⟩
  · intro hfile hnonfatal ho he hevents result hresult
    have hv : ((create o host output errors).run setup events).phase.verdict? = some result := by
      rw [ended_of_result hresult]
      rfl
    have hquiet : (create o host output errors).Lawful setup .undisturbed :=
      create_lawful o host (fun h => absurd h ho) (fun h => absurd h he)
    rcases run_safe_or_refused (Terms.undisturbed_cover hnonfatal hfile) hquiet (by simp [create])
      events hevents with h | h
    · exact .inl (h.lawful.phase.verdict hv)
    · exact .inr (Option.some.inj (hv.symm.trans h.verdict))

theorem end_while_prompting_is_refused :
    (Script.terminalSetup.Reports fun e => e.isFatal = false) ∧
    ((create {} {} {} {}).run Script.terminalSetup
      [.step, .finish, .step, .step, .step]).result? =
        some (.error (.protocolViolation ReadFault.afterEnd.message)) :=
  ⟨Script.evaluator_reports rfl rfl, rfl⟩

theorem first_prompt_ends_while_prompting :
    (Script.terminalSetup.Reports fun e => ∀ message, e ≠ .protocolViolation message) ∧
    ∃ before window after,
      [SessionEvent.step, .finish, .step, .step, .step] = before ++ window ++ .step :: after ∧
        (create {} {} {} {}).EndsWhilePrompting Script.terminalSetup before window := by
  have hr : Script.terminalSetup.Reports fun e => ∀ message, e ≠ .protocolViolation message :=
    (Script.evaluator_reports rfl rfl).mono fun e he message heq => by
      simp [heq, SessionError.isFatal] at he
  have h := protocol_broken_iff_ends_while_prompting Script.terminalSetup hr {} {} {} {}
    [.step, .finish, .step, .step, .step]
  exact ⟨hr, h.1.1 ⟨ReadFault.afterEnd.message, rfl⟩⟩

end Session
end PromptLoop
