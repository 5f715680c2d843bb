import PromptLoop.Proofs.Session.Events

set_option autoImplicit false

namespace PromptLoop

variable {U : Type} {terms : Terms}

/-- The phases of a session on these terms. Only a session that does not echo prompts before it
reads. -/
def Phase.Within (terms : Terms) (echo : Bool) : Phase → Prop
  | .created => True
  | .loading => True
  | .prompting none => echo = false
  | .awaiting none => True
  | .awaiting (some a) => a.Within terms
  | p => p.Inside terms

theorem Phase.Inside.within {p : Phase} (h : p.Inside terms) (echo : Bool) :
    p.Within terms echo := by
  cases p with
  | created => exact False.elim h
  | loading => exact False.elim h
  | prompting line =>
    cases line with
    | none => simp [Phase.Inside] at h
    | some l => exact h
  | awaiting a => exact False.elim h
  | _ => exact h

def Sink.MayFail (s : Sink) : Prop :=
  s.room ≠ none ∨ s.failsToClose = true

theorem Sink.write_mayFail {s : Sink} {text : String} {message : String}
    (h : (s.write text).2 = some message) : s.MayFail := by
  left
  intro hr
  simp [Sink.write, hr] at h

theorem Sink.mayFail_of_write {s : Sink} {text : String} (h : (s.write text).1.MayFail) :
    s.MayFail := by
  cases hr : s.room with
  | none => simpa [Sink.MayFail, Sink.write, hr] using h
  | some n => exact .inl (by simp [hr])

theorem Sink.close_mayFail {s : Sink} {message : String} (h : s.close.2 = some message) :
    s.MayFail := by
  cases hc : s.failsToClose with
  | true => exact .inr hc
  | false => simp [Sink.close, Sink.finish, Sink.closeFailure?, hc] at h

/-- The events that can happen on these terms. -/
def SessionEvent.Within (terms : Terms) : SessionEvent → Prop
  | .fail message => terms.results (.error (.transport message))
  | .interrupt => terms.interrupts
  | _ => True

namespace LineBuffer

structure Within (terms : Terms) (b : LineBuffer) : Prop where
  marker : interruptMarker ∈ b.lines → terms.interrupts
  failure : ∀ message, b.failure = some message → terms.results (.error (.transport message))

theorem settle_within {b : LineBuffer} (h : b.Within terms) :
    b.settle.1.Within terms ∧ ∀ a ∈ b.settle.2, a.Within terms := by
  have hset := settle_settling b
  generalize b.settle = r at hset
  cases hset with
  | kept _ => exact ⟨h, by simp⟩
  | abandoned _ => exact ⟨⟨h.marker, h.failure⟩, by simp⟩
  | @line line rest _ hl =>
    refine ⟨⟨fun hm => h.marker (by simp [hl, hm]), h.failure⟩, ?_⟩
    rintro _ ⟨rfl⟩ rfl
    exact h.marker (by simp [hl])
  | failed _ hl hf =>
    refine ⟨⟨h.marker, by simp⟩, ?_⟩
    rintro _ ⟨rfl⟩
    exact h.failure _ hf
  | ended _ _ _ _ =>
    refine ⟨⟨h.marker, h.failure⟩, ?_⟩
    rintro _ ⟨rfl⟩
    trivial

theorem feed_within {b : LineBuffer} (h : b.Within terms) (chunk : List UInt8) :
    (b.feed chunk).1.Within terms ∧ ∀ a ∈ (b.feed chunk).2, a.Within terms := by
  unfold LineBuffer.feed
  split
  · exact ⟨h, by simp⟩
  · refine settle_within ⟨?_, h.failure⟩
    intro hm
    rcases List.mem_append.1 hm with hm | hm
    · exact h.marker hm
    · exact absurd hm (Cut.marker_not_mem_lines chunk b.residue)

theorem finish_within {b : LineBuffer} (h : b.Within terms) :
    b.finish.1.Within terms ∧ ∀ a ∈ b.finish.2, a.Within terms := by
  unfold LineBuffer.finish
  split
  · exact ⟨h, by simp⟩
  · refine settle_within ⟨?_, h.failure⟩
    intro hm
    rcases List.mem_append.1 hm with hm | hm
    · exact h.marker hm
    · split at hm
      · simp at hm
      · exact absurd (List.mem_singleton.1 hm).symm (Utf8.toText_ne (by simp))

theorem fail_within {b : LineBuffer} (h : b.Within terms) {message : String}
    (hr : terms.results (.error (.transport message))) :
    (b.fail message).1.Within terms ∧ ∀ a ∈ (b.fail message).2, a.Within terms := by
  unfold LineBuffer.fail
  split
  · exact ⟨h, by simp⟩
  · refine settle_within ⟨h.marker, ?_⟩
    rintro _ ⟨rfl⟩
    exact hr

theorem interrupt_within {b : LineBuffer} (h : b.Within terms) (hi : terms.interrupts) :
    b.interrupt.1.Within terms ∧ ∀ a ∈ b.interrupt.2, a.Within terms :=
  settle_within ⟨fun _ => hi, h.failure⟩

theorem read_within {b rest : LineBuffer} {a : Option Answer} (h : b.Within terms)
    (hread : b.read = .ok (rest, a)) : rest.Within terms ∧ ∀ a' ∈ a, a'.Within terms := by
  have hs := read_starting b
  rw [hread] at hs
  cases hs with
  | line _ hl =>
    refine ⟨⟨fun hm => h.marker (by simp [hl, hm]), h.failure⟩, ?_⟩
    rintro _ ⟨rfl⟩ rfl
    exact h.marker (by simp [hl])
  | failed _ hl hf =>
    refine ⟨⟨h.marker, by simp⟩, ?_⟩
    rintro _ ⟨rfl⟩
    exact h.failure _ hf
  | waiting _ _ _ _ => exact ⟨⟨h.marker, h.failure⟩, by simp⟩

end LineBuffer

namespace Session

structure Lawful (setup : Setup U) (terms : Terms) (s : Session) : Prop where
  sound : s.buffer.Sound
  slot : s.buffer.slot = if s.phase.awaits then .awaited else .free
  phase : s.phase.Within terms setup.echo
  buffer : s.buffer.Within terms
  output : s.output.MayFail → ∀ message, terms.results (.error (.transport message))
  errors : s.errors.MayFail → ∀ message, terms.results (.error (.transport message))

/-- A session that the driver has led to a waiting point. It is not about to prompt without need. -/
structure Arrived (setup : Setup U) (terms : Terms) (s : Session) : Prop extends
    s.Lawful setup terms where
  open_prompt : s.phase = .prompting none → s.buffer.isDone = false

/-- The prompt has been written and the driver is about to read, but the input has ended and
nothing is left to be read. -/
structure ReadsLate (setup : Setup U) (s : Session) : Prop where
  phase : s.phase = .prompting none
  done : s.buffer.isDone = true
  written : (s.output.write (s.promptText setup)).2 = none

variable {setup : Setup U} {s : Session}

theorem Lawful.free (h : s.Lawful setup terms) (hp : s.phase.awaits = false) :
    s.buffer.slot = .free := by
  rw [h.slot, hp]
  rfl

/-- What the driver does between two waiting points keeps a session lawful. -/
theorem Moves.arrived {t : Session} (h : Moves terms s t) (hs : s.Lawful setup terms)
    (hf : s.phase.awaits = false) : t.Arrived setup terms where
  sound := h.buffer ▸ hs.sound
  slot := by rw [h.buffer, h.phase.awaits, hs.free hf]; rfl
  phase := h.phase.within setup.echo
  buffer := h.buffer ▸ hs.buffer
  output := h.output ▸ hs.output
  errors := h.errors ▸ hs.errors
  open_prompt := by
    intro hp
    have hi := h.phase
    simp [hp, Phase.Inside] at hi

theorem Lawful.written (hs : s.Lawful setup terms) (text : String) :
    Lawful setup terms { s with output := (s.output.write text).1 } :=
  { hs with output := fun h => hs.output (Sink.mayFail_of_write h) }

theorem Lawful.reported (hs : s.Lawful setup terms) (text : String) :
    Lawful setup terms { s with errors := (s.errors.write text).1 } :=
  { hs with errors := fun h => hs.errors (Sink.mayFail_of_write h) }

theorem Lawful.write (hs : s.Lawful setup terms) (hf : s.phase.awaits = false) (text : String)
    {next : Session → Session}
    (hnext : (s.output.write text).2 = none →
      Lawful setup terms { s with output := (s.output.write text).1 } →
      (next { s with output := (s.output.write text).1 }).Arrived setup terms) :
    (s.write text next).Arrived setup terms := by
  have hw := hs.written text
  rcases write_cases text next s with ⟨hn, heq⟩ | ⟨message, hm, heq⟩
  · rw [heq]
    exact hnext hn hw
  · rw [heq]
    exact (close_moves _ (hs.output (Sink.write_mayFail hm) message)).arrived hw hf

theorem Lawful.writeError (hs : s.Lawful setup terms) (hf : s.phase.awaits = false)
    (text : String) : (s.writeError text yield).Arrived setup terms := by
  have hw := hs.reported text
  rcases writeError_cases text yield s with ⟨-, heq⟩ | ⟨message, hm, heq⟩
  · rw [heq]
    exact (yield_moves _).arrived hw hf
  · rw [heq]
    exact (close_moves _ (hs.errors (Sink.write_mayFail hm) message)).arrived hw hf

theorem Lawful.load (hs : s.Lawful setup terms) (hf : s.phase.awaits = false)
    (bytes : List UInt8) : (s.load bytes).Lawful setup terms where
  sound := (hs.sound.feed bytes).finish
  slot := by
    have hfed := ((LineBuffer.feed_releases s.buffer bytes).free (hs.free hf)).1
    have hfin := ((LineBuffer.finish_releases (s.buffer.feed bytes).1).free hfed).1
    change (s.buffer.feed bytes).1.finish.1.slot = if s.phase.awaits then .awaited else .free
    rw [hfin, hf]
    rfl
  phase := hs.phase
  buffer := (LineBuffer.finish_within (LineBuffer.feed_within hs.buffer bytes).1).1
  output := hs.output
  errors := hs.errors

theorem finalResult_mem {R : SessionResult → Prop} {result : SessionResult}
    {output errors : Option String} (hr : R result)
    (ho : ∀ message ∈ output, R (.error (.transport message)))
    (he : ∀ message, errors = some message → R (.error (.transport message))) :
    R (finalResult result output errors) := by
  cases result with
  | error e => exact hr
  | ok e =>
    cases output with
    | some message => exact ho message rfl
    | none =>
      cases errors with
      | some message => exact he message rfl
      | none => exact hr

section Driver
variable (ht : terms.Cover setup)
include ht

theorem Lawful.read (hs : s.Lawful setup terms) (hf : s.phase.awaits = false)
    (hd : s.buffer.isDone = false) : (s.read setup).Arrived setup terms := by
  have hfree := hs.free hf
  have hstart := LineBuffer.read_starting s.buffer
  unfold Session.read
  cases hread : s.buffer.read with
  | error fault =>
    rw [hread] at hstart
    cases hstart with
    | outstanding hs' => simp [hfree] at hs'
    | afterEnd _ hd' => simp [hd] at hd'
  | ok r =>
    obtain ⟨rest, a⟩ := r
    obtain ⟨hrest, hanswer⟩ := LineBuffer.read_within hs.buffer hread
    have hsound := hs.sound.read hread
    rw [hread] at hstart
    cases a with
    | none =>
      cases hstart
      exact { hs with sound := hsound, slot := rfl, phase := trivial, buffer := hrest,
                      open_prompt := by simp }
    | some a =>
      have hslot : rest.slot = .free := by cases hstart <;> rfl
      have hnext : Lawful setup terms { s with buffer := rest } :=
        { hs with sound := hsound, slot := by simp [hf, hslot], buffer := hrest }
      exact (receive_moves ht _ (hanswer a rfl)).arrived hnext hf

theorem Lawful.iterate (hs : s.Lawful setup terms) (hf : s.phase.awaits = false) :
    (s.iterate setup).Arrived setup terms := by
  unfold Session.iterate
  split
  · exact (close_moves s ht.input_ended).arrived hs hf
  · rename_i hd
    have hopen : s.buffer.isDone = false := by simpa using hd
    split
    · exact hs.read ht hf hopen
    · rename_i he
      exact { hs with slot := hs.free hf
                      phase := by simpa [Phase.Within, enterPrompt] using he
                      open_prompt := fun _ => hopen }

/-- A step of the driver keeps a session lawful, unless it reads behind the end. -/
theorem Lawful.step (hs : s.Lawful setup terms) (hl : ¬ s.ReadsLate setup) :
    (s.step setup).Arrived setup terms := by
  have hphase := hs.phase
  unfold Session.step
  cases hp : s.phase with
  | created =>
    have hf : s.phase.awaits = false := by rw [hp]; rfl
    cases hsrc : setup.source with
    | text bytes => exact (hs.load hf bytes).iterate ht hf
    | file content =>
      exact { hs with slot := hs.free hf, phase := trivial, open_prompt := by simp }
    | stream => exact hs.iterate ht hf
  | loading =>
    have hf : s.phase.awaits = false := by rw [hp]; rfl
    cases hsrc : setup.source with
    | file content =>
      cases content with
      | ok bytes => exact (hs.load hf bytes).iterate ht hf
      | error e => exact (close_moves s (ht.file e hsrc)).arrived hs hf
    | _ => exact { hs with open_prompt := by simp [hp] }
  | prompting line =>
    have hf : s.phase.awaits = false := by rw [hp]; rfl
    refine hs.write hf _ ?_
    intro hw hws
    cases line with
    | some l => exact { hws with slot := hs.free hf, phase := trivial, open_prompt := by simp }
    | none =>
      -- The prompt is written before the read, so the buffer may be done by now.
      refine hws.read ht hf ?_
      cases hd : s.buffer.isDone with
      | true => exact absurd ⟨hp, hd, hw⟩ hl
      | false => rfl
  | echoing line =>
    have hf : s.phase.awaits = false := by rw [hp]; rfl
    exact hs.write hf line fun _ hw => (evaluate_moves ht _ line).arrived hw hf
  | awaiting answer =>
    cases answer with
    | none => exact { hs with open_prompt := by simp [hp] }
    | some a =>
      have ha : a.Within terms := by simpa only [hp, Phase.Within] using hphase
      exact (receive_moves ht s ha).arrived hs (by rw [hp]; rfl)
  | pending declaration d interrupted =>
    cases interrupted with
    | true =>
      have hi : terms.interrupts := by
        simp only [hp, Phase.Within, Phase.Inside] at hphase
        exact hphase.1 trivial
      exact (fail_moves ht s (ht.abandoned hi)).arrived hs (by rw [hp]; rfl)
    | false => exact { hs with open_prompt := by simp [hp] }
  | transforming d => exact { hs with open_prompt := by simp [hp] }
  | printing v =>
    have hf : s.phase.awaits = false := by rw [hp]; rfl
    exact hs.write hf _ fun _ hw => (yield_moves _).arrived hw hf
  | reporting e => exact hs.writeError (by rw [hp]; rfl) _
  | breaking =>
    have hf : s.phase.awaits = false := by rw [hp]; rfl
    have hi : terms.interrupts := by simpa only [hp, Phase.Within, Phase.Inside] using hphase
    exact hs.write hf "\n" fun _ hw => (afterBreak_moves ht _ hi).arrived hw hf
  | yielding => exact hs.iterate ht (by rw [hp]; rfl)
  | closing result =>
    have hf : s.phase.awaits = false := by rw [hp]; rfl
    have hr : terms.results result := by simpa only [hp, Phase.Within, Phase.Inside] using hphase
    exact { hs with slot := hs.free hf
                    phase := ⟨hr, fun _ hm => hs.output (Sink.close_mayFail hm) _⟩
                    open_prompt := by simp }
  | closingErrors result failure =>
    have hf : s.phase.awaits = false := by rw [hp]; rfl
    have hr : terms.results result ∧
        ∀ message ∈ failure, terms.results (.error (.transport message)) := by
      simpa only [hp, Phase.Within, Phase.Inside] using hphase
    have he : ∀ message, s.errors.close.2 = some message →
        terms.results (.error (.transport message)) :=
      fun message hm => hs.errors (Sink.close_mayFail hm) message
    exact { hs with slot := hs.free hf
                    phase := finalResult_mem hr.1 hr.2 he
                    open_prompt := by simp }
  | ended result => exact { hs with open_prompt := by simp [hp] }

theorem Lawful.resolve (hs : s.Lawful setup terms) : (s.resolve setup).Lawful setup terms := by
  have hphase := hs.phase
  unfold Session.resolve
  cases hp : s.phase with
  | pending declaration d interrupted =>
    have hd : ∀ e, d.outcome = .error e → terms.errors e := by
      simp only [hp, Phase.Within, Phase.Inside] at hphase
      exact hphase.2
    exact ((settled_moves ht s declaration hd).arrived hs (by rw [hp]; rfl)).toLawful
  | transforming d =>
    have hd : ∀ e, d.outcome = .error e → terms.errors e := by
      simpa only [hp, Phase.Within, Phase.Inside] using hphase
    exact ((transformed_moves ht s hd).arrived hs (by rw [hp]; rfl)).toLawful
  | _ => exact hs

end Driver

theorem Lawful.supply_cases (hs : s.Lawful setup terms) {r : LineBuffer × Option Answer}
    (hr : s.buffer.Releases r) :
    (r.2 = none ∧ r.1.slot = s.buffer.slot ∧ s.supply r = { s with buffer := r.1 }) ∨
    ∃ a, r.2 = some a ∧ r.1.slot = .free ∧ s.phase = .awaiting none ∧
      s.supply r = { s with buffer := r.1, phase := .awaiting (some a) } := by
  obtain ⟨b, a⟩ := r
  have hslot := hs.slot
  cases a with
  | none =>
    have hkept : s.buffer.slot ≠ .abandoned → b.slot = s.buffer.slot := hr
    exact .inl ⟨rfl, hkept (by rw [hslot]; split <;> simp), rfl⟩
  | some a =>
    obtain ⟨hw, hfree⟩ : s.buffer.slot = .awaited ∧ b.slot = .free := hr
    have hp : s.phase = .awaiting none := by
      rw [hslot] at hw
      unfold Phase.awaits at hw
      split at hw
      · assumption
      · simp at hw
    exact .inr ⟨a, rfl, hfree, hp, by simp [Session.supply, hp]⟩

theorem Lawful.supply (hs : s.Lawful setup terms) {r : LineBuffer × Option Answer}
    (hr : s.buffer.Releases r) (hb : r.1.Sound)
    (hw : r.1.Within terms ∧ ∀ a ∈ r.2, a.Within terms) : (s.supply r).Lawful setup terms := by
  rcases hs.supply_cases hr with ⟨-, hslot, heq⟩ | ⟨a, ha, hslot, -, heq⟩
  · rw [heq]
    exact { hs with sound := hb, slot := hslot.trans hs.slot, buffer := hw.1 }
  · rw [heq]
    exact { hs with sound := hb, slot := hslot, phase := hw.2 a ha, buffer := hw.1 }

theorem Lawful.interrupt (hs : s.Lawful setup terms) (hi : terms.interrupts) :
    s.interrupt.Lawful setup terms := by
  have hsup : (s.supply s.buffer.interrupt).Lawful setup terms :=
    hs.supply (LineBuffer.interrupt_releases _) hs.sound.interrupt
      (LineBuffer.interrupt_within hs.buffer hi)
  unfold Session.interrupt
  generalize s.supply s.buffer.interrupt = t at hsup
  dsimp only
  split
  · rename_i declaration d interrupted hp
    have hphase := hsup.phase
    simp only [hp, Phase.Within, Phase.Inside] at hphase
    exact { hsup with slot := hsup.free (by rw [hp]; rfl), phase := ⟨fun _ => hi, hphase.2⟩ }
  · exact hsup

theorem Lawful.handle (ht : terms.Cover setup) (hs : s.Lawful setup terms) {e : SessionEvent}
    (he : e.Within terms) (hl : e = .step → ¬ s.ReadsLate setup) :
    (s.handle setup e).Lawful setup terms := by
  cases e with
  | step => exact (hs.step ht (hl rfl)).toLawful
  | resolve => exact hs.resolve ht
  | feed chunk =>
    exact hs.supply (LineBuffer.feed_releases _ chunk) (hs.sound.feed chunk)
      (LineBuffer.feed_within hs.buffer chunk)
  | finish =>
    exact hs.supply (LineBuffer.finish_releases _) hs.sound.finish
      (LineBuffer.finish_within hs.buffer)
  | fail message =>
    exact hs.supply (LineBuffer.fail_releases _ message) (hs.sound.fail message)
      (LineBuffer.fail_within hs.buffer he)
  | interrupt => exact hs.interrupt he
  | embed change => exact { hs with }

end Session
end PromptLoop
