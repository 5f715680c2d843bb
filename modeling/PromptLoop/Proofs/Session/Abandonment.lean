import PromptLoop.Proofs.Session.Dismissal

set_option autoImplicit false

namespace PromptLoop

variable {U : Type}

namespace Session

variable {setup : Setup U} {s : Session} {E : SessionError → Prop} {output errors : Sink} {n : Nat}

/-- Since `origin`, `s` has written this to the error sink and to the output. -/
structure Wrote (s origin : Session) (report answer : String) : Prop where
  errors : s.errors.written = origin.errors.written ++ report.toUTF8
  output : s.output.written = origin.output.written ++ answer.toUTF8

structure WroteAtMost (s origin : Session) (report answer : String) : Prop where
  errors : ∃ rest, s.errors.written ++ rest = origin.errors.written ++ report.toUTF8
  output : ∃ rest, s.output.written ++ rest = origin.output.written ++ answer.toUTF8

section Writing
variable {origin : Session} {report answer : String}

theorem Wrote.atMost (h : s.Wrote origin report answer) : s.WroteAtMost origin report answer :=
  ⟨⟨.empty, by simp [h.errors]⟩, ⟨.empty, by simp [h.output]⟩⟩

theorem WroteAtMost.report_more (h : s.WroteAtMost origin report answer) (more : String) :
    s.WroteAtMost origin (report ++ more) answer := by
  obtain ⟨⟨rest, hr⟩, ho⟩ := h
  exact ⟨⟨rest ++ more.toUTF8, by simp [← ByteArray.append_assoc, hr]⟩, ho⟩

theorem WroteAtMost.answer_more (h : s.WroteAtMost origin report answer) (more : String) :
    s.WroteAtMost origin report (answer ++ more) := by
  obtain ⟨he, ⟨rest, hr⟩⟩ := h
  exact ⟨he, ⟨rest ++ more.toUTF8, by simp [← ByteArray.append_assoc, hr]⟩⟩

theorem Wrote.write (h : s.Wrote origin report answer) (text : String)
    (next : Session → Session) :
    (∃ sink, s.write text next = next { s with output := sink } ∧
      Wrote { s with output := sink } origin report (answer ++ text)) ∨
    ∃ sink message, s.write text next = close (.error (.transport message)) { s with output := sink } ∧
      WroteAtMost { s with output := sink } origin report (answer ++ text) := by
  unfold Session.write
  rcases Sink.write_cases s.output text with ⟨hw, htext⟩ | ⟨hw, -, rest, htext⟩
  · simp only [hw]
    refine .inl ⟨_, rfl, h.errors, ?_⟩
    simp [htext, h.output, ByteArray.append_assoc]
  · simp only [hw]
    refine .inr ⟨_, _, rfl, h.atMost.errors, rest, ?_⟩
    simp [htext, h.output, ByteArray.append_assoc]

theorem Wrote.writeError (h : s.Wrote origin report answer) (text : String)
    (next : Session → Session) :
    (∃ sink, s.writeError text next = next { s with errors := sink } ∧
      Wrote { s with errors := sink } origin (report ++ text) answer) ∨
    ∃ sink message,
      s.writeError text next = close (.error (.transport message)) { s with errors := sink } ∧
      WroteAtMost { s with errors := sink } origin (report ++ text) answer := by
  unfold Session.writeError
  rcases Sink.write_cases s.errors text with ⟨hw, htext⟩ | ⟨hw, -, rest, htext⟩
  · simp only [hw]
    refine .inl ⟨_, rfl, ?_, h.output⟩
    simp [htext, h.errors, ByteArray.append_assoc]
  · simp only [hw]
    refine .inr ⟨_, _, rfl, ⟨rest, ?_⟩, h.atMost.output⟩
    simp [htext, h.errors, ByteArray.append_assoc]

end Writing

/-- What answers the marker: the end of a line, behind the prompt if the driver had to write one. -/
def lastLine (setup : Setup U) (origin : Session) : String :=
  (if setup.echo then "" else origin.promptText setup) ++ "\n"

/-- `s` has given its unit up in `origin`, and this is what it has written since. -/
def GivesUp (setup : Setup U) (s origin : Session) : Prop :=
  let report := errorText setup .interrupted
  match s.phase with
  | .reporting e => e = .interrupted ∧ s.Wrote origin "" ""
  | .yielding => s.Wrote origin report ""
  | .prompting _ => setup.echo = false ∧ s.Wrote origin report ""
  | .breaking => s.Wrote origin report (if setup.echo then "" else origin.promptText setup)
  | .closing r => s.WroteAtMost origin report (lastLine setup origin) ∧
      (r = .ok .interrupted → s.Wrote origin report (lastLine setup origin))
  | .closingErrors r _ => s.WroteAtMost origin report (lastLine setup origin) ∧
      (r = .ok .interrupted → s.Wrote origin report (lastLine setup origin))
  | .ended r => s.WroteAtMost origin report (lastLine setup origin) ∧
      (r = .ok .interrupted → s.Wrote origin report (lastLine setup origin))
  | _ => False

section GivesUp
variable {origin : Session}

theorem GivesUp.isPending (h : s.GivesUp setup origin) : s.phase.isPending = false := by
  unfold GivesUp at h
  cases hp : s.phase <;> first | rfl | simp [hp] at h

theorem GivesUp.waits (h : s.GivesUp setup origin) : s.phase.waits = false := by
  unfold GivesUp at h
  cases hp : s.phase <;> first | rfl | simp [hp] at h

theorem GivesUp.shows (h : s.GivesUp setup origin) : s.phase.shows = false := by
  unfold GivesUp at h
  cases hp : s.phase <;> first | rfl | simp [hp] at h

theorem finalResult_ok {r : SessionResult} {e : SessionEnd} {outputFailure errorsFailure : Option String}
    (h : finalResult r outputFailure errorsFailure = .ok e) : r = .ok e := by
  unfold finalResult at h
  split at h <;> first | exact h | cases h

theorem GivesUp.write {answer text : String} {next : Session → Session} (more : String)
    (h : s.Wrote origin (errorText setup .interrupted) answer)
    (hline : answer ++ text ++ more = lastLine setup origin)
    (hnext : ∀ sink,
      Wrote { s with output := sink } origin (errorText setup .interrupted) (answer ++ text) →
      (next { s with output := sink }).GivesUp setup origin) :
    (s.write text next).GivesUp setup origin := by
  rcases h.write text next with ⟨sink, heq, hwrote⟩ | ⟨sink, message, heq, hwrote⟩
  · rw [heq]
    exact hnext sink hwrote
  · have hmost := hwrote.answer_more more
    rw [hline] at hmost
    rw [heq]
    exact ⟨⟨hmost.errors, hmost.output⟩, by simp⟩

theorem GivesUp.step (h : s.GivesUp setup origin) (hd : s.Dismissed E output errors n)
    (ho : origin.accumulated = "") : (s.step setup).GivesUp setup origin := by
  have hstage := hd.stage
  have hprompt : s.promptText setup = origin.promptText setup := by
    simp only [promptText, hd.accumulated, ho]
  unfold GivesUp at h
  unfold Session.step
  cases hp : s.phase <;> simp only [hp] at h <;>
    simp only [hp, Phase.BeforeMarker, Phase.BehindMarker, or_false, false_or, false_and] at hstage
  case reporting e =>
    obtain ⟨rfl, h⟩ := h
    dsimp only
    rcases h.writeError (errorText setup .interrupted) yield with
      ⟨sink, heq, hnext⟩ | ⟨sink, message, heq, hnext⟩ <;> rw [heq] <;>
      rw [String.empty_append] at hnext
    · exact ⟨hnext.errors, hnext.output⟩
    · have hmost := hnext.answer_more (lastLine setup origin)
      rw [String.empty_append] at hmost
      exact ⟨⟨hmost.errors, hmost.output⟩, by simp⟩
  case yielding =>
    simp only [Session.iterate, hstage.2.isDone]
    by_cases he : setup.echo = true
    · simp only [he, if_true, Bool.false_eq_true, if_false, (read_marked hstage.2).1]
      exact ⟨h.errors, by simpa [he] using h.output⟩
    · simp only [he, Bool.false_eq_true, if_false]
      exact ⟨by simpa using he, h.errors, h.output⟩
  case prompting line =>
    obtain ⟨he, h⟩ := h
    obtain ⟨rfl, hb⟩ := hstage
    dsimp only
    refine GivesUp.write "\n" h (by simp [lastLine, he, hprompt]) fun sink hwrote => ?_
    rw [(read_marked (s := { s with output := sink }) hb).1]
    refine ⟨hwrote.errors, ?_⟩
    simpa [he, hprompt] using hwrote.output
  case breaking =>
    dsimp only
    refine GivesUp.write "" h (by simp [lastLine]) fun sink hwrote => ?_
    unfold afterBreak
    rw [if_pos hd.accumulated]
    have hdone : Wrote { s with output := sink } origin (errorText setup .interrupted)
        (lastLine setup origin) := hwrote
    exact ⟨⟨hdone.atMost.errors, hdone.atMost.output⟩, fun _ => ⟨hdone.errors, hdone.output⟩⟩
  case closing r => exact ⟨⟨h.1.errors, h.1.output⟩, fun hr => ⟨(h.2 hr).errors, (h.2 hr).output⟩⟩
  case closingErrors r failure =>
    refine ⟨⟨h.1.errors, h.1.output⟩, fun hr => ?_⟩
    have hwrote := h.2 (finalResult_ok hr)
    exact ⟨hwrote.errors, hwrote.output⟩
  case ended r =>
    unfold GivesUp
    rw [hp]
    exact h

theorem GivesUp.congr {t : Session} (h : s.GivesUp setup origin) (hp : t.phase = s.phase)
    (ho : t.output = s.output) (he : t.errors = s.errors) : t.GivesUp setup origin := by
  have hwrote (report answer : String) :
      t.Wrote origin report answer ↔ s.Wrote origin report answer := by
    constructor <;> intro hw
    · exact ⟨he ▸ hw.errors, ho ▸ hw.output⟩
    · exact ⟨he ▸ hw.errors, ho ▸ hw.output⟩
  have hmost (report answer : String) :
      t.WroteAtMost origin report answer ↔ s.WroteAtMost origin report answer := by
    constructor <;> intro hw
    · exact ⟨he ▸ hw.errors, ho ▸ hw.output⟩
    · exact ⟨he ▸ hw.errors, ho ▸ hw.output⟩
  unfold GivesUp at h ⊢
  rw [hp]
  simpa only [hwrote, hmost] using h

theorem GivesUp.atMost (h : s.GivesUp setup origin) :
    s.WroteAtMost origin (errorText setup .interrupted) (lastLine setup origin) := by
  have hnothing {report : String} (hw : s.WroteAtMost origin report "") :
      s.WroteAtMost origin report (lastLine setup origin) := by
    have hmost := hw.answer_more (lastLine setup origin)
    rwa [String.empty_append] at hmost
  unfold GivesUp at h
  cases hp : s.phase <;> simp only [hp] at h
  case reporting e =>
    have hmost := hnothing (h.2.atMost.report_more (errorText setup .interrupted))
    rwa [String.empty_append] at hmost
  case yielding => exact hnothing h.atMost
  case prompting line => exact hnothing h.2.atMost
  case breaking => exact h.atMost.answer_more "\n"
  all_goals exact h.1

theorem GivesUp.complete (h : s.GivesUp setup origin)
    (hr : s.result? = some (.ok .interrupted)) :
    s.Wrote origin (errorText setup .interrupted) (lastLine setup origin) := by
  unfold GivesUp at h
  rw [ended_of_result hr] at h
  exact h.2 rfl

theorem GivesUp.reports (h : s.GivesUp setup origin) {e : SessionError}
    (hp : s.phase = .reporting e) : e = .interrupted := by
  unfold GivesUp at h
  rw [hp] at h
  exact h.1

end GivesUp

section Runs
variable (ht : ∀ f v e, setup.transform = some f → (f v).outcome = .error e → E e)
include ht

theorem GivesUp.run {origin : Session} (h : s.GivesUp setup origin)
    (hd : s.Dismissed E output errors n) (ho : origin.accumulated = "")
    (events : List SessionEvent) :
    (s.run setup events).GivesUp setup origin ∧
      (s.run setup events).context = rebind events s.context := by
  induction events generalizing s with
  | nil => exact ⟨h, rfl⟩
  | cons e rest ih =>
    have hcontext : (s.handle setup e).context = e.rebind s.context :=
      handle_context (hd.no_compile e) fun _ => h.isPending
    have hnext : (s.handle setup e).GivesUp setup origin := by
      by_cases he : e = .step
      · subst he
        exact h.step hd ho
      · obtain ⟨-, hp, hout, herr⟩ := hd.idle he fun _ => h.waits
        exact h.congr hp hout herr
    obtain ⟨hrest, hlast⟩ := ih hnext (hd.handle ht e)
    rw [hcontext] at hlast
    exact ⟨hrest, hlast⟩

end Runs

theorem interrupt_pending (setup : Setup U) {declaration : Option Declaration} {d : Deferred}
    {interrupted : Bool} (hp : s.phase = .pending declaration d interrupted) :
    s.interrupt = { s with
      buffer := s.buffer.interrupt.1
      phase := .pending declaration d true } := by
  have hidle : s.handle setup .interrupt = _ ∧ _ :=
    handle_idle setup (by simp) (by rw [hp]; rfl) (by simp)
  rw [hp] at hidle
  exact hidle.1

theorem Lawful.dismissed {terms : Terms} (hs : s.Lawful setup terms) (ha : s.accumulated = "")
    {declaration : Option Declaration} {d : Deferred} {interrupted : Bool}
    (hp : s.phase = .pending declaration d interrupted) (hd : ∀ e, d.outcome = .error e → E e) :
    s.interrupt.Dismissed E s.output s.errors 8 := by
  have hfree : s.buffer.slot = .free := hs.free (by rw [hp]; rfl)
  rw [interrupt_pending setup hp]
  exact ⟨.inl ⟨⟨rfl, hd⟩, LineBuffer.interrupt_marked hfree⟩, Nat.le_refl 8, ha, .refl _, .refl _⟩

/-- The first step behind the interrupt gives the unit up, if the result has not come before. -/
theorem Dismissed.gives_up {origin : Session} {buffer : LineBuffer}
    {declaration : Option Declaration} {d : Deferred}
    (h : s.Dismissed E output errors n)
    (heq : s = { origin with buffer := buffer, phase := .pending declaration d true })
    {wait : List SessionEvent} (hwait : ∀ e ∈ wait, e ≠ .step ∧ e ≠ .resolve) :
    ((s.run setup wait).step setup).GivesUp setup origin ∧
      ((s.run setup wait).step setup).context = rebind wait origin.context := by
  obtain ⟨hp, ho, herr, hcontext⟩ : (s.run setup wait).phase = s.phase ∧ _ := h.run_idle wait hwait
  have hstep : (s.run setup wait).step setup =
      { s.run setup wait with phase := .reporting .interrupted } := by
    have hpending : (s.run setup wait).phase = .pending declaration d true := by rw [hp, heq]
    unfold Session.step
    rw [hpending]
    exact fail_eq _ _
  have hsame : s.output = origin.output ∧ s.errors = origin.errors ∧
      s.context = origin.context := by
    rw [heq]
    exact ⟨rfl, rfl, rfl⟩
  rw [hstep]
  exact ⟨⟨rfl, by simp [herr, hsame.2.1], by simp [ho, hsame.1]⟩, by simp [hcontext, hsame.2.2]⟩

/-- An interrupt while a result is waited for ends the session, whatever else happens. Nothing more
is compiled or executed, so the evaluator does not matter any more, and the result is the interrupt,
a fatal error of the unit or the transform, or the failure of a sink. The end takes no more than
eight steps, and the result of a transform if the driver comes to one. Where the driver gives the
unit up, it reports the interrupt and no other error, displays nothing and binds nothing. -/
theorem interrupt_dismisses (setup : Setup U) (o : Options) (host : Host) (output errors : Sink)
    (before : List SessionEvent) (declaration : Option Declaration) (d : Deferred)
    (interrupted : Bool)
    (hp : ((create o host output errors).run setup before).phase =
      .pending declaration d interrupted) :
    let s := (create o host output errors).run setup before
    (∀ rest source, .compiled source ∉ s.journal setup (.interrupt :: rest)) ∧
    (∀ (V : Type) (evaluator : Evaluator V) (rest : List SessionEvent),
      s.run (setup.withEvaluator evaluator) (.interrupt :: rest) =
        s.run setup (.interrupt :: rest)) ∧
    (∀ rest result, (s.run setup (.interrupt :: rest)).result? = some result →
      Dismissal (fun e => d.outcome = .error e ∨
        ∃ transform v, setup.transform = some transform ∧ (transform v).outcome = .error e)
        s.output s.errors result) ∧
    (∀ rest, 8 ≤ rest.countP SessionEvent.isStep →
      (s.run setup (.interrupt :: rest)).result?.isSome = true ∨
      ∃ front back d', rest = front ++ back ∧
        (s.run setup (.interrupt :: front)).phase = .transforming d') ∧
    (∀ front d' rest, (s.run setup (.interrupt :: front)).phase = .transforming d' →
      6 ≤ rest.countP SessionEvent.isStep →
      (s.run setup (.interrupt :: front ++ .resolve :: rest)).result?.isSome = true) ∧
    ∀ wait rest, (∀ e ∈ wait, e ≠ .step ∧ e ≠ .resolve) →
      let t := s.run setup (.interrupt :: wait ++ .step :: rest)
      (∀ e, t.phase = .reporting e → e = .interrupted) ∧
      t.phase.shows = false ∧
      t.context = rebind (wait ++ rest) s.context ∧
      t.WroteAtMost s (errorText setup .interrupted) (lastLine setup s) ∧
      (t.result? = some (.ok .interrupted) →
        t.Wrote s (errorText setup .interrupted) (lastLine setup s)) := by
  intro s
  let E : SessionError → Prop := fun e => d.outcome = .error e ∨
    ∃ transform v, setup.transform = some transform ∧ (transform v).outcome = .error e
  have ht : ∀ f v e, setup.transform = some f → (f v).outcome = .error e → E e :=
    fun f v e hf he => .inr ⟨f, v, hf, he⟩
  have hempty : s.accumulated = "" :=
    ((create_booked o host output errors).run before).idle (.inl (by rw [hp]; rfl))
  have hlawful : s.Lawful setup .any :=
    lawful_of_open o host output errors before (by rw [hp]; rfl)
  have hd : s.interrupt.Dismissed E s.output s.errors 8 :=
    hlawful.dismissed hempty hp fun e he => .inl he
  have hquiet (rest : List SessionEvent) (source : String) :
      .compiled source ∉ s.journal setup (.interrupt :: rest) := by
    have hentries : s.entries setup .interrupt = [] := by
      rcases supply_turn s s.buffer.interrupt with ⟨a, -, ha, -, -⟩ | ⟨-, hentries⟩
      · cases hp.symm.trans ha
      · exact hentries
    simp only [Session.journal, hentries, List.nil_append]
    exact hd.journal ht rest source
  refine ⟨hquiet, fun V evaluator rest => run_withEvaluator evaluator (hquiet rest), ?_, ?_, ?_, ?_⟩
  · intro rest result hr
    exact (hd.run ht rest).dismissal hr
  · intro rest hn
    exact hd.ends ht hn
  · intro front d' rest hw hn
    rw [run_append]
    exact (hd.run ht front).ends_resolved ht hw hn
  · intro wait rest hwait t
    obtain ⟨hgives, hkept⟩ := hd.gives_up (interrupt_pending setup hp) hwait
    obtain ⟨hlast, hcontext⟩ := hgives.run ht ((hd.run ht wait).handle ht .step) hempty rest
    have heq : t = ((s.interrupt.run setup wait).step setup).run setup rest := by
      change s.run setup (.interrupt :: wait ++ .step :: rest) = _
      rw [run_append]
      rfl
    rw [heq]
    refine ⟨fun e => hlast.reports, hlast.shows, ?_, hlast.atMost, hlast.complete⟩
    rw [hcontext, hkept]
    simp [rebind]

def delayed : Session :=
  (create {} {} {} {}).run Script.terminalSetup [.step, .step,
    .feed ("x = delay(5, null)\n".toList.map fun c => c.toNat.toUInt8), .step]

theorem delayed_ends_interrupted :
    delayed.phase = .pending (some ⟨"x", false⟩) ⟨some 5, .ok (some .null)⟩ false ∧
    ∀ rest result, (delayed.run Script.terminalSetup (.interrupt :: rest)).result? = some result →
      result = .ok .interrupted := by
  have hp : delayed.phase = .pending (some ⟨"x", false⟩) ⟨some 5, .ok (some .null)⟩ false := by rfl
  have hsinks : delayed.output.room = none ∧ delayed.errors.room = none ∧
      delayed.output.failsToClose = false ∧ delayed.errors.failsToClose = false := by
    refine ⟨?_, ?_, ?_, ?_⟩ <;> rfl
  have h := interrupt_dismisses Script.terminalSetup {} {} {} {} _ _ _ _ hp
  refine ⟨hp, fun rest result hr => ?_⟩
  have hdismissal : Dismissal _ delayed.output delayed.errors result := h.2.2.1 rest result hr
  cases hdismissal with
  | interrupted => rfl
  | fatal he _ => simp [Script.terminalSetup] at he
  | unwritten hroom => simp [hsinks] at hroom
  | unclosed hfails => simp [Sink.closeFailure?, hsinks] at hfails

end Session
end PromptLoop
