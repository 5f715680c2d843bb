import PromptLoop.Proofs.Session.Outlook
import PromptLoop.Proofs.Session.Sinks

set_option autoImplicit false

namespace PromptLoop

variable {U : Type}

def Entry.source? : Entry → Option String
  | .compiled source => some source
  | _ => none

theorem Setup.landing_fresh (setup : Setup U) (source : String) (context : Bindings Value)
    (declaration : Option Declaration) (d : Deferred) (interrupted : Bool)
    (h : (setup.landing source context).phase = .pending declaration d interrupted) :
    interrupted = false := by
  have hp {p : Phase} (hb : p.Behind fun _ => True) (heq : p = .pending declaration d interrupted) :
      interrupted = false := by
    rw [heq] at hb
    exact False.elim hb
  cases hc : setup.evaluator.compile source with
  | incomplete => simp [landing, hc] at h
  | fatal e =>
    simp only [landing, hc] at h
    exact hp (Phase.behindError_behind trivial) h
  | ready unit declared =>
    cases hx : setup.evaluator.execute unit context with
    | mk execution context' =>
      cases execution with
      | immediate v =>
        simp only [landing, hc, hx] at h
        exact hp (Phase.behindUnit_any _ _ _) h
      | failed e =>
        simp only [landing, hc, hx] at h
        exact hp (Phase.behindError_behind trivial) h
      | pending d' =>
        simp only [landing, hc, hx, Phase.pending.injEq] at h
        exact h.2.2.symm

structure LineBuffer.Complete (b : LineBuffer) : Prop where
  slot : b.slot = .free
  ended : b.ended = true
  failure : b.failure = none
  marker : interruptMarker ∉ b.lines

namespace LineBuffer
variable {b : LineBuffer}

theorem Complete.isDone_iff (h : b.Complete) : b.isDone = true ↔ b.lines = [] := by
  rw [LineBuffer.isDone_iff]
  simp [h.ended, h.failure]

theorem Complete.read (h : b.Complete) {line : String} {rest : List String}
    (hl : b.lines = line :: rest) :
    b.read = .ok ({ b with lines := rest }, some (.line line)) ∧
      Complete { b with lines := rest } ∧ line ≠ interruptMarker := by
  have hmarker := h.marker
  rw [hl, List.mem_cons, not_or] at hmarker
  refine ⟨?_, ⟨h.slot, h.ended, h.failure, hmarker.2⟩, Ne.symm hmarker.1⟩
  have hslot := h.slot
  simp [LineBuffer.read, hl, hslot]

theorem load_complete (bytes : List UInt8) :
    (({} : LineBuffer).feed bytes).1.finish.1.Complete ∧
      (({} : LineBuffer).feed bytes).1.finish.1.lines = logicalLines bytes := by
  have hfed := (feed_releases {} bytes).free rfl
  have hfin := (finish_releases (feed bytes {}).1).free hfed.1
  have hended := finish_ended (feed bytes {}).1
  have hwithin : ({} : LineBuffer).Within .undisturbed := ⟨by simp, by simp⟩
  have hkept := (finish_within (feed_within hwithin bytes).1).1
  have hplain := finish_plain (feed_plain (b := {}) rfl bytes).1
  have hfeed := feed_remaining sound_empty bytes []
  have hfinish := finish_remaining (sound_empty.feed bytes) []
  rw [hfed.2] at hfeed
  rw [hfin.2] at hfinish
  refine ⟨⟨hfin.1, hended, hplain.1, hkept.marker⟩, ?_⟩
  simp only [handed, Option.bind_none, Option.toList_none, List.nil_append, List.append_nil]
    at hfeed hfinish
  rw [hfeed, remaining_empty] at hfinish
  simpa [remaining, hended] using hfinish

end LineBuffer

namespace Phase

def span : Phase → Nat
  | .prompting none => 2
  | p => p.ahead

def isInitial : Phase → Bool
  | .created => true
  | .loading => true
  | _ => false

def Undisturbed (setup : Setup U) (b : LineBuffer) : Phase → Prop
  | .created => setup.source ≠ .stream ∧ b = {}
  | .loading => (∃ content, setup.source = .file content) ∧ b = {}
  | .prompting none => b.Complete ∧ setup.echo = false ∧ b.lines ≠ []
  | .prompting (some _) => b.Complete ∧ setup.echo = true
  | .echoing _ => b.Complete ∧ setup.echo = true
  | .awaiting _ => False
  | .breaking => False
  | .pending _ _ interrupted => b.Complete ∧ interrupted = false
  | .closing _ => True
  | .closingErrors _ _ => True
  | .ended _ => True
  | _ => b.Complete

theorem Behind.span_le {E : SessionError → Prop} {p : Phase} (h : p.Behind E) :
    p.isInitial = false ∧ p.span ≤ 5 := by
  cases p with
  | yielding => exact ⟨rfl, by decide⟩
  | printing v => exact ⟨rfl, Nat.le_succ 4⟩
  | reporting e => exact ⟨rfl, Nat.le_succ 4⟩
  | transforming d => exact ⟨rfl, Nat.le_refl 5⟩
  | closing r => exact ⟨rfl, by simp [span, ahead]⟩
  | _ => exact False.elim h

theorem behindTransform_span (outcome : Except SessionError (Option Value)) :
    (behindTransform outcome).span ≤ 4 := by
  cases outcome with
  | error e =>
    unfold behindTransform behindError
    dsimp only
    split <;> simp [span, ahead]
  | ok v => cases v <;> simp [behindTransform, span, ahead]

theorem Behind.undisturbed {E : SessionError → Prop} {p : Phase} (h : p.Behind E)
    {setup : Setup U} {b : LineBuffer} (hb : b.Complete) : p.Undisturbed setup b := by
  cases p with
  | yielding => exact hb
  | printing v => exact hb
  | reporting e => exact hb
  | transforming d => exact hb
  | closing r => trivial
  | _ => exact False.elim h

end Phase

namespace Session

structure Unattended (setup : Setup U) (s : Session) : Prop where
  output : ¬ s.output.MayFail
  errors : ¬ s.errors.MayFail
  phase : s.phase.Undisturbed setup s.buffer

def unread (setup : Setup U) (s : Session) : List String :=
  if s.phase.isInitial then setup.source.lines else s.buffer.lines

def measure (setup : Setup U) (s : Session) : Nat :=
  6 * (s.unread setup).length + s.phase.span

structure Proceeds (setup : Setup U) (s t : Session) (deeds : List Deed)
    (compiled : List String) : Prop where
  unattended : t.Unattended setup
  outlook : s.outlook setup = (t.outlook setup).after deeds compiled
  measure : t.measure setup < s.measure setup

def sources (setup : Setup U) (s : Session) (e : SessionEvent) : List String :=
  (s.entries setup e).filterMap Entry.source?

structure Supplied (s : Session) : Prop where
  output : ¬ s.output.MayFail
  errors : ¬ s.errors.MayFail
  buffer : s.buffer.Complete

/-- The driver stands inside the loop, with `n` events ahead of the next iteration at most. -/
structure Stands (setup : Setup U) (s : Session) (n : Nat) : Prop extends
    s.Unattended setup where
  inside : s.phase.isInitial = false
  span : s.phase.span ≤ n

section Proceeding
variable {setup : Setup U} {s : Session}

theorem Unattended.supplied (h : s.Unattended setup) (hp : s.phase.isInitial = false)
    (hv : s.phase.verdict? = none) : s.Supplied := by
  refine ⟨h.output, h.errors, ?_⟩
  have hphase := h.phase
  cases hq : s.phase <;> rw [hq] at hphase
  case created => simp [hq, Phase.isInitial] at hp
  case loading => simp [hq, Phase.isInitial] at hp
  case prompting line => cases line <;> exact hphase.1
  case echoing line => exact hphase.1
  case awaiting answer => exact False.elim hphase
  case breaking => exact False.elim hphase
  case pending declaration d interrupted => exact hphase.1
  case closing result => simp [hq, Phase.verdict?] at hv
  case closingErrors result failure => simp [hq, Phase.verdict?] at hv
  case ended result => simp [hq, Phase.verdict?] at hv
  all_goals exact hphase

theorem Stands.measure_le {n : Nat} (h : s.Stands setup n) :
    s.measure setup ≤ 6 * s.buffer.lines.length + n := by
  have hspan := h.span
  have hunread : s.unread setup = s.buffer.lines := by simp [unread, h.inside]
  rw [measure, hunread]
  omega

theorem Supplied.written (h : s.Supplied) (text : String) :
    (s.output.write text).2 = none ∧
      Supplied { s with output := (s.output.write text).1 } := by
  rw [Sink.write_of_steady h.output]
  exact ⟨rfl, h.output, h.errors, h.buffer⟩

theorem Supplied.reported (h : s.Supplied) (text : String) :
    (s.errors.write text).2 = none ∧
      Supplied { s with errors := (s.errors.write text).1 } := by
  rw [Sink.write_of_steady h.errors]
  exact ⟨rfl, h.output, h.errors, h.buffer⟩

theorem Supplied.behind (h : s.Supplied) {E : SessionError → Prop} (hp : s.phase.Behind E) :
    s.Stands setup 5 where
  output := h.output
  errors := h.errors
  phase := hp.undisturbed h.buffer
  inside := hp.span_le.1
  span := hp.span_le.2

theorem Supplied.land (h : s.Supplied) (source : String) :
    (s.land (setup.landing source s.context)).Stands setup 6 := by
  have hbehind (hp : (setup.landing source s.context).phase.Behind fun _ => True) :
      (s.land (setup.landing source s.context)).Stands setup 6 := by
    have hstands : (s.land (setup.landing source s.context)).Stands setup 5 :=
      Supplied.behind ⟨h.output, h.errors, h.buffer⟩ hp
    exact { hstands with span := Nat.le_succ_of_le hstands.span }
  rcases setup.landing_cases source s.context with ⟨-, heq⟩ | ⟨-, -, hp | hp⟩
  · exact hbehind (by rw [heq]; trivial)
  · exact hbehind hp
  · have hfresh := setup.landing_fresh source s.context
    cases hq : (setup.landing source s.context).phase with
    | pending declaration d interrupted =>
      obtain rfl := hfresh declaration d interrupted hq
      exact ⟨⟨h.output, h.errors, by
        simp only [Session.land, hq]
        exact ⟨h.buffer, rfl⟩⟩, by simp [Session.land, hq, Phase.isInitial],
        by simp [Session.land, hq, Phase.span, Phase.ahead]⟩
    | _ => simp [hq, Phase.isPending] at hp

theorem Supplied.evaluate (h : s.Supplied) (setup : Setup U) (line : String) :
    (s.evaluate setup line).Stands setup 6 ∧
      (s.evaluate setup line).outlook setup =
        setup.handled (s.accumulated ++ line) s.context (setup.outlook s.buffer.lines) ∧
      (s.evaluate setup line).buffer = s.buffer := by
  rw [evaluate_eq]
  exact ⟨h.land _, land_outlook _, rfl⟩

theorem Supplied.iterate (h : s.Supplied) (setup : Setup U) :
    (s.iterate setup).Unattended setup ∧ (s.iterate setup).outlook setup = s.rest setup ∧
      (s.iterate setup).measure setup ≤ 6 * s.buffer.lines.length + 2 ∧
      (s.iterateEntries setup).filterMap Entry.source? = [] := by
  unfold Session.iterate iterateEntries
  cases hl : s.buffer.lines with
  | nil =>
    rw [if_pos (h.buffer.isDone_iff.2 hl), if_pos (h.buffer.isDone_iff.2 hl)]
    have hstands : (s.close (.ok .endOfInput)).Stands setup 2 :=
      ⟨⟨h.output, h.errors, trivial⟩, rfl, Nat.le_refl 2⟩
    refine ⟨hstands.toUnattended, ?_, ?_, rfl⟩
    · simp only [Session.rest, hl]
      rfl
    · exact Nat.le_trans hstands.measure_le (by simp [Session.close, hl])
  | cons line rest =>
    have hopen : ¬ s.buffer.isDone = true := by
      rw [h.buffer.isDone_iff, hl]
      exact List.cons_ne_nil _ _
    rw [if_neg hopen, if_neg hopen]
    cases hecho : setup.echo with
    | false =>
      rw [if_neg (by simp), if_neg (by simp)]
      have hstands : (s.enterPrompt none).Stands setup 2 :=
        ⟨⟨h.output, h.errors, h.buffer, hecho, by
          change s.buffer.lines ≠ []
          simp [hl]⟩, rfl, Nat.le_refl 2⟩
      refine ⟨hstands.toUnattended, rfl, ?_, rfl⟩
      exact Nat.le_trans hstands.measure_le (by simp [enterPrompt, hl])
    | true =>
      obtain ⟨hread, hcomplete, hline⟩ := h.buffer.read hl
      have hnext : s.read setup =
          enterPrompt (some line) { s with buffer := { s.buffer with lines := rest } } := by
        simp [Session.read, hread, Session.receive, hline, hecho]
      have hentries : s.readEntries setup = [.delivered line] := by
        simp [readEntries, hread, Answer.entries, receiveEntries, hline, hecho]
      rw [if_pos rfl, if_pos rfl, hnext, hentries]
      have hstands : (enterPrompt (some line)
          { s with buffer := { s.buffer with lines := rest } }).Stands setup 8 :=
        ⟨⟨h.output, h.errors, hcomplete, hecho⟩, rfl, Nat.le_refl 8⟩
      refine ⟨hstands.toUnattended, ?_, ?_, rfl⟩
      · simp only [Session.rest, hl]
        rfl
      · refine Nat.le_trans hstands.measure_le ?_
        simp only [enterPrompt, List.length_cons]
        omega

theorem Stands.proceeds {t : Session} {n : Nat} {deeds : List Deed} {compiled : List String}
    (h : t.Stands setup n) (hs : s.phase.isInitial = false)
    (hlines : 6 * t.buffer.lines.length + n < 6 * s.buffer.lines.length + s.phase.span)
    (ho : s.outlook setup = (t.outlook setup).after deeds compiled) :
    s.Proceeds setup t deeds compiled := by
  refine ⟨h.toUnattended, ho, ?_⟩
  have hle := h.measure_le
  have hunread : s.unread setup = s.buffer.lines := by simp [unread, hs]
  simp only [Session.measure, hunread] at hle ⊢
  omega

theorem Supplied.iterate_proceeds (h : s.Supplied) (hp : s.phase = .yielding) :
    s.Proceeds setup (s.iterate setup) [] ((s.iterateEntries setup).filterMap Entry.source?) := by
  obtain ⟨hnext, houtlook, hmeasure, hentries⟩ := h.iterate setup
  rw [hentries]
  refine ⟨hnext, ?_, ?_⟩
  · rw [houtlook]
    simp only [Session.outlook, hp]
    rfl
  · have hunread : s.unread setup = s.buffer.lines := by simp [unread, hp, Phase.isInitial]
    simp only [Session.measure, hunread, hp, Phase.span, Phase.ahead] at hmeasure ⊢
    omega

theorem load_proceeds (hs : s.Unattended setup) (hp : s.phase.isInitial = true)
    (hb : s.buffer = {}) {bytes : List UInt8} (hc : setup.source.content = .ok bytes) :
    s.Proceeds setup ((s.load bytes).iterate setup) []
      (((s.load bytes).iterateEntries setup).filterMap Entry.source?) := by
  obtain ⟨hcomplete, hlines⟩ := LineBuffer.load_complete bytes
  have hbuffer : (s.load bytes).buffer = (({} : LineBuffer).feed bytes).1.finish.1 := by
    simp only [load, hb]
  have hsupplied : (s.load bytes).Supplied := ⟨hs.output, hs.errors, by rwa [hbuffer]⟩
  have hline : (s.load bytes).buffer.lines = logicalLines bytes := by rw [hbuffer, hlines]
  obtain ⟨hnext, houtlook, hmeasure, hentries⟩ := hsupplied.iterate setup
  rw [hline] at hmeasure
  rw [hentries]
  refine ⟨hnext, ?_, ?_⟩
  · rw [houtlook]
    simp only [Session.rest, hline]
    cases hq : s.phase with
    | created =>
      simp only [Session.outlook, hq, hc]
      rfl
    | loading =>
      simp only [Session.outlook, hq, hc]
      rfl
    | _ => simp [hq, Phase.isInitial] at hp
  · have hunread : s.unread setup = logicalLines bytes := by simp [unread, hp, Source.lines, hc]
    have hspan : 3 ≤ s.phase.span := by
      cases hq : s.phase with
      | created => exact Nat.le_succ 3
      | loading => exact Nat.le_refl 3
      | _ => simp [hq, Phase.isInitial] at hp
    simp only [Session.measure, hunread] at hmeasure ⊢
    omega

theorem Supplied.step_of_due (h : s.Supplied) {v : Outlet} {text : String}
    {next : Session → Session} (hw : s.due? setup = some ⟨v, text, next⟩) :
    ((s.sink v).write text).2 = none ∧
      s.step setup = next (s.withSink v ((s.sink v).write text).1) ∧
      (s.withSink v ((s.sink v).write text).1).Supplied := by
  have hmade : ((s.sink v).write text).2 = none ∧
      (s.withSink v ((s.sink v).write text).1).Supplied := by
    cases v with
    | output => exact h.written text
    | errors => exact h.reported text
  exact ⟨hmade.1, step_of_written hw hmade.1, hmade.2⟩

theorem Supplied.step_to (h : s.Supplied) {p : Phase} {v : Outlet} {text : String}
    (hw : s.due? setup = some ⟨v, text, fun s => { s with phase := p }⟩)
    (hp : p.span < s.phase.span) (hs : s.phase.isInitial = false) (hinside : p.isInitial = false)
    (hphase : p.Undisturbed setup s.buffer) {deeds : List Deed}
    (ho : s.outlook setup = (outlook setup { s with phase := p }).after deeds []) :
    s.Proceeds setup (s.step setup) deeds [] := by
  obtain ⟨-, hstep, hnext⟩ := h.step_of_due hw
  have hbuffer (x : Sink) : (s.withSink v x).buffer = s.buffer := withSink_buffer s v x
  have hstands : (s.step setup).Stands setup p.span := by
    rw [hstep]
    exact ⟨⟨hnext.output, hnext.errors, by simpa only [hbuffer] using hphase⟩, hinside,
      Nat.le_refl _⟩
  refine hstands.proceeds hs ?_ ?_
  · rw [hstep]
    simp only [hbuffer]
    omega
  · rw [ho, hstep]
    cases v <;> rfl

theorem prompting_proceeds (hs : s.Unattended setup) (hp : s.phase = .prompting none) :
    s.Proceeds setup (s.step setup) (s.stepDeeds setup) (s.sources setup .step) := by
  have hphase := hs.phase
  rw [hp] at hphase
  obtain ⟨hcomplete, hecho, hlines⟩ := hphase
  obtain ⟨line, rest, hl⟩ := List.exists_cons_of_ne_nil hlines
  obtain ⟨hread, hrest, hline⟩ := hcomplete.read hl
  have hdue : s.due? setup = some ⟨.output, s.promptText setup, Session.read setup⟩ := by
    simp only [due?, hp]
  have hsup := hs.supplied (by rw [hp]; rfl) (by rw [hp]; rfl)
  obtain ⟨hwritten, hstep, hnext⟩ := hsup.step_of_due hdue
  have hwrote : (s.output.write (s.promptText setup)).2 = none := hwritten
  generalize ((s.sink .output).write (s.promptText setup)).1 = sink at hstep hnext
  have hreceive : Session.read setup (s.withSink .output sink) = evaluate setup line { s with
      output := sink, buffer := { s.buffer with lines := rest } } := by
    simp [Session.read, withSink, hread, Session.receive, hline, hecho]
  have hdeeds : s.stepDeeds setup = [.wrote .prompt (s.promptText setup) none] := by
    simp only [stepDeeds, hp, hwrote]
  have hentries : s.stepEntries setup = [.delivered line, .compiled (s.accumulated ++ line)] := by
    simp [stepEntries, hp, hwrote, readEntries, hread, Answer.entries, receiveEntries, hline,
      hecho]
  have hsources : s.sources setup .step = [s.accumulated ++ line] := by
    simp only [Session.sources, entries, hentries]
    rfl
  have hready : Supplied { s with output := sink, buffer := { s.buffer with lines := rest } } :=
    ⟨hnext.output, hnext.errors, hrest⟩
  obtain ⟨hstands, houtlook, hbuffer⟩ := hready.evaluate setup line
  rw [hstep, hreceive, hdeeds, hsources]
  refine hstands.proceeds (by rw [hp]; rfl) ?_ ?_
  · rw [hbuffer, hl, hp]
    simp only [List.length_cons, Phase.span]
    omega
  · rw [houtlook]
    simp only [Session.outlook, hp, Session.rest, hl, Setup.outlook, Setup.opening, hecho]
    rfl

theorem echoing_proceeds (hs : s.Unattended setup) {line : String} (hp : s.phase = .echoing line) :
    s.Proceeds setup (s.step setup) (s.stepDeeds setup) (s.sources setup .step) := by
  have hdue : s.due? setup = some ⟨.output, line, Session.evaluate setup line⟩ := by
    simp only [due?, hp]
  have hsup := hs.supplied (by rw [hp]; rfl) (by rw [hp]; rfl)
  obtain ⟨hwritten, hstep, hnext⟩ := hsup.step_of_due hdue
  have hwrote : (s.output.write line).2 = none := hwritten
  have hdeeds : s.stepDeeds setup = [.wrote .echo line none] := by
    simp only [stepDeeds, hp, hwrote]
  have hentries : s.stepEntries setup = [.compiled (s.accumulated ++ line)] := by
    simp only [stepEntries, hp, hwrote]
  have hsources : s.sources setup .step = [s.accumulated ++ line] := by
    simp only [Session.sources, entries, hentries]
    rfl
  obtain ⟨hstands, houtlook, hbuffer⟩ := hnext.evaluate setup line
  rw [hstep, hdeeds, hsources]
  refine hstands.proceeds (by rw [hp]; rfl) ?_ ?_
  · rw [hbuffer, hp]
    simp only [withSink_buffer, Phase.span, Phase.ahead]
    omega
  · rw [houtlook]
    simp only [Session.outlook, hp]
    rfl

theorem created_proceeds (hs : s.Unattended setup) (hp : s.phase = .created) :
    s.Proceeds setup (s.step setup) (s.stepDeeds setup) (s.sources setup .step) := by
  have hphase := hs.phase
  rw [hp] at hphase
  unfold Session.step stepDeeds Session.sources entries stepEntries
  simp only [hp]
  cases hsrc : setup.source with
  | text bytes => exact load_proceeds hs (by rw [hp]; rfl) hphase.2 (by rw [hsrc]; rfl)
  | stream => exact absurd hsrc hphase.1
  | file content =>
    refine ⟨⟨hs.output, hs.errors, ⟨content, hsrc⟩, hphase.2⟩, ?_, ?_⟩
    · simp only [Session.outlook, hp]
      rfl
    · simp only [Session.measure, Session.unread, hp, Phase.span, Phase.ahead, Phase.isInitial]
      omega

theorem loading_proceeds (hs : s.Unattended setup) (hp : s.phase = .loading) :
    s.Proceeds setup (s.step setup) (s.stepDeeds setup) (s.sources setup .step) := by
  have hphase := hs.phase
  rw [hp] at hphase
  obtain ⟨⟨content, hsrc⟩, hbuffer⟩ := hphase
  unfold Session.step stepDeeds Session.sources entries stepEntries
  simp only [hp, hsrc]
  cases content with
  | ok bytes => exact load_proceeds hs (by rw [hp]; rfl) hbuffer (by rw [hsrc]; rfl)
  | error e =>
    refine ⟨⟨hs.output, hs.errors, trivial⟩, ?_, ?_⟩
    · simp only [Session.outlook, hp, Source.content, hsrc]
      rfl
    · have hnone : s.buffer.lines = [] := by rw [hbuffer]
      simp [Session.measure, Session.unread, hp, Phase.span, Phase.ahead, Phase.isInitial,
        Session.close, hnone]

theorem closing_proceeds (hs : s.Unattended setup) {result : SessionResult}
    (hp : s.phase = .closing result) :
    s.Proceeds setup (s.step setup) (s.stepDeeds setup) (s.sources setup .step) := by
  have hclose := Sink.close_of_steady hs.output
  unfold Session.step stepDeeds Session.sources entries stepEntries
  simp only [hp, hclose]
  have hstands : Stands setup { s with
      output := s.output.close.1, phase := .closingErrors result none } 1 :=
    ⟨⟨hs.output, hs.errors, trivial⟩, rfl, Nat.le_refl 1⟩
  refine hstands.proceeds (by rw [hp]; rfl) (by simp [hp, Phase.span, Phase.ahead]) ?_
  simp only [Session.outlook, hp]
  cases result <;> rfl

theorem closingErrors_proceeds (hs : s.Unattended setup) {result : SessionResult}
    {failure : Option String} (hp : s.phase = .closingErrors result failure) :
    s.Proceeds setup (s.step setup) (s.stepDeeds setup) (s.sources setup .step) := by
  have hclose := Sink.close_of_steady hs.errors
  unfold Session.step stepDeeds Session.sources entries stepEntries
  simp only [hp, hclose]
  have hstands : Stands setup { s with
      errors := s.errors.close.1
      phase := .ended (finalResult result failure none)
      state := (s.state.finish (finalResult result failure none)).1 } 0 :=
    ⟨⟨hs.output, hs.errors, trivial⟩, rfl, Nat.le_refl 0⟩
  refine hstands.proceeds (by rw [hp]; rfl) (by simp [hp, Phase.span, Phase.ahead]) ?_
  simp only [Session.outlook, hp]
  rfl

/-- Every step takes the session on, one point of its course after the other. -/
theorem step_proceeds (hs : s.Unattended setup) (hr : s.phase.rests = false) :
    s.Proceeds setup (s.step setup) (s.stepDeeds setup) (s.sources setup .step) := by
  have hphase := hs.phase
  cases hp : s.phase <;> rw [hp] at hphase
  case created => exact created_proceeds hs hp
  case loading => exact loading_proceeds hs hp
  case prompting line =>
    cases line with
    | none => exact prompting_proceeds hs hp
    | some line =>
      have hsup := hs.supplied (by rw [hp]; rfl) (by rw [hp]; rfl)
      have hwrote := (hsup.written (s.promptText setup)).1
      have hdue : s.due? setup = some ⟨.output, s.promptText setup,
          fun s => { s with phase := .echoing line }⟩ := by
        simp only [due?, hp]
      unfold stepDeeds Session.sources entries stepEntries
      simp only [hp, hwrote]
      refine hsup.step_to hdue (by rw [hp]; exact Nat.le_refl 8) (by rw [hp]; rfl) rfl hphase ?_
      simp only [Session.outlook, hp, Setup.outlook, Setup.opening, hphase.2]
      rfl
  case echoing line => exact echoing_proceeds hs hp
  case printing v =>
    have hsup := hs.supplied (by rw [hp]; rfl) (by rw [hp]; rfl)
    have hwrote := (hsup.written (setup.format v ++ "\n")).1
    have hdue : s.due? setup = some ⟨.output, setup.format v ++ "\n", yield⟩ := by
      simp only [due?, hp]
    unfold stepDeeds Session.sources entries stepEntries
    simp only [hp, hwrote]
    refine hsup.step_to hdue (by rw [hp]; exact Nat.le_refl 4) (by rw [hp]; rfl) rfl hphase ?_
    simp only [Session.outlook, hp]
    rfl
  case reporting e =>
    have hsup := hs.supplied (by rw [hp]; rfl) (by rw [hp]; rfl)
    have hwrote := (hsup.reported (errorText setup e)).1
    have hdue : s.due? setup = some ⟨.errors, errorText setup e, yield⟩ := by
      simp only [due?, hp]
    unfold stepDeeds Session.sources entries stepEntries
    simp only [hp, hwrote]
    refine hsup.step_to hdue (by rw [hp]; exact Nat.le_refl 4) (by rw [hp]; rfl) rfl hphase ?_
    simp only [Session.outlook, hp]
    rfl
  case yielding =>
    unfold Session.step stepDeeds Session.sources entries stepEntries
    simp only [hp]
    exact (hs.supplied (by rw [hp]; rfl) (by rw [hp]; rfl)).iterate_proceeds hp
  case closing result => exact closing_proceeds hs hp
  case closingErrors result failure => exact closingErrors_proceeds hs hp
  -- A session without surroundings never stands at these two points.
  case awaiting answer => exact False.elim hphase
  case breaking => exact False.elim hphase
  case pending declaration d interrupted =>
    obtain ⟨-, rfl⟩ := hphase
    simp [hp, Phase.rests] at hr
  case transforming d => simp [hp, Phase.rests] at hr
  case ended result => simp [hp, Phase.rests] at hr

theorem resolve_proceeds (hs : s.Unattended setup) (hw : s.phase.waits = true) :
    s.Proceeds setup (s.resolve setup) [] [] := by
  have hphase := hs.phase
  cases hp : s.phase with
  | pending declaration d interrupted =>
    have hsup := hs.supplied (by rw [hp]; rfl) (by rw [hp]; rfl)
    have hbehind := Phase.behindUnit_any setup.transform declaration d.outcome
    have hresolve : s.resolve setup = s.settled setup declaration d.outcome := by
      simp only [Session.resolve, hp]
    rw [hresolve, settled_eq]
    have hstands : Stands setup { s with
        phase := .behindUnit setup.transform declaration d.outcome
        context := Declaration.bindings declaration d.outcome s.context } 5 :=
      Supplied.behind ⟨hsup.output, hsup.errors, hsup.buffer⟩ hbehind
    refine hstands.proceeds (by rw [hp]; rfl) (by simp [hp, Phase.span, Phase.ahead]) ?_
    rw [behindUnit_outlook (s := { s with
      context := Declaration.bindings declaration d.outcome s.context })]
    simp only [Session.outlook, hp]
    rfl
  | transforming d =>
    have hsup := hs.supplied (by rw [hp]; rfl) (by rw [hp]; rfl)
    have hresolve : s.resolve setup = s.transformed d.outcome := by
      simp only [Session.resolve, hp]
    rw [hresolve, transformed_eq]
    have hbehind := Phase.behindTransform_any d.outcome
    have hstands : Stands setup { s with phase := .behindTransform d.outcome } 4 :=
      ⟨⟨hsup.output, hsup.errors, hbehind.undisturbed hsup.buffer⟩, hbehind.span_le.1,
        Phase.behindTransform_span d.outcome⟩
    refine hstands.proceeds (by rw [hp]; rfl) (by simp [hp, Phase.span, Phase.ahead]) ?_
    rw [behindTransform_outlook]
    simp only [Session.outlook, hp]
    rfl
  | _ => simp [hp, Phase.waits] at hw

end Proceeding
end Session
end PromptLoop
