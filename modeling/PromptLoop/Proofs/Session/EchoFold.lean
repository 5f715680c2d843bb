import PromptLoop.Proofs.Session.ReadProtocol
import PromptLoop.Proofs.Session.Transcript

set_option autoImplicit false

/-!
# An echoing session folds over its lines

The input of a session that echoes may arrive in any pieces and at any waiting points. What the
session has made of it, once the iteration under way is over, is the fold of `Transcript.line` over
the lines that it has taken, and the lines still to be taken are the rest of the lines of the input
(`Follows`). A session whose input is complete goes on to its end: each step leaves less ahead,
unless it waits for a result.
-/
namespace PromptLoop

variable {U : Type}

def Phase.held : Phase → List String
  | .awaiting a => handed a
  | _ => []

def Phase.rests : Phase → Bool
  | .awaiting none => true
  | .pending _ _ false => true
  | .transforming _ => true
  | .ended _ => true
  | _ => false

def Phase.waits : Phase → Bool
  | .pending _ _ _ => true
  | .transforming _ => true
  | _ => false

namespace Session
variable {setup : Setup U} {origin s : Session} {start : Transcript} {lines : List String}
  {later : Option (List UInt8)}

def unloaded (setup : Setup U) (s : Session) : List UInt8 :=
  match s.phase, setup.source with
  | .created, .text bytes => bytes
  | .created, .file (.ok bytes) => bytes
  | .loading, .file (.ok bytes) => bytes
  | _, _ => []

/-- The lines that are still to be taken; `later` are the bytes that still arrive on a stream, and
`none` is the end of the input. -/
def upcoming (setup : Setup U) (s : Session) (later : Option (List UInt8)) : List String :=
  s.phase.held ++ s.buffer.remaining (s.unloaded setup ++ later.getD [])

def rank (setup : Setup U) (s : Session) (later : Option (List UInt8)) : Nat :=
  6 * (s.upcoming setup later).length + s.phase.ahead

/-- `s` has come from `start` by taking some of the lines, and the others are upcoming. -/
structure Follows (setup : Setup U) (s origin : Session) (start : Transcript)
    (lines : List String) (later : Option (List UInt8)) : Prop where
  lawful : s.Lawful setup .undisturbed
  taken : ∃ done, s.Comes setup origin (done.foldl (Transcript.line setup) start) ∧
    done ++ s.upcoming setup later = lines
  exhausted : s.phase.verdict?.isSome = true → s.buffer.isDone = true
  file : s.phase = .loading → ∃ bytes, setup.source = .file (.ok bytes)
  ended : later = none → s.buffer.ended = true ∨
    setup.source ≠ .stream ∧ (s.phase = .created ∨ s.phase = .loading)

structure Working (setup : Setup U) (s : Session) (lines : List String)
    (later : Option (List UInt8)) (done : List String) : Prop where
  lawful : s.Lawful setup .undisturbed
  idle : s.phase.awaits = false
  split : done ++ s.buffer.remaining (later.getD []) = lines
  ended : later = none → s.buffer.ended = true

theorem unloaded_stream (hsrc : setup.source = .stream) (s : Session) :
    s.unloaded setup = [] := by
  unfold unloaded
  rw [hsrc]
  cases s.phase <;> rfl

theorem upcoming_inside {terms : Terms} (h : s.phase.Inside terms) :
    s.upcoming setup later = s.buffer.remaining (later.getD []) := by
  unfold upcoming unloaded
  cases hp : s.phase with
  | created => simp [hp, Phase.Inside] at h
  | loading => simp [hp, Phase.Inside] at h
  | awaiting a => simp [hp, Phase.Inside] at h
  | _ => rfl

theorem rank_inside {terms : Terms} (h : s.phase.Inside terms) :
    s.rank setup later = 6 * (s.buffer.remaining (later.getD [])).length + s.phase.ahead := by
  rw [rank, upcoming_inside h]

theorem verdict_of_ahead {p : Phase} (h : 3 ≤ p.ahead) : p.verdict? = none := by
  cases p with
  | closing r => simp [Phase.ahead] at h
  | closingErrors r failure => simp [Phase.ahead] at h
  | ended r => simp [Phase.ahead] at h
  | _ => rfl

theorem Working.moves {t : Session} {done : List String} {n : Nat}
    (hw : s.Working setup lines later done) (hm : Moves .undisturbed s t)
    (hc : t.ComesWithin setup origin (done.foldl (Transcript.line setup) start) n) :
    t.Follows setup origin start lines later ∧
      t.rank setup later ≤ 6 * (s.buffer.remaining (later.getD [])).length + n := by
  have hup : t.upcoming setup later = s.buffer.remaining (later.getD []) := by
    rw [upcoming_inside hm.phase, hm.buffer]
  constructor
  · refine ⟨(hm.arrived hw.lawful hw.idle).toLawful, ⟨done, hc.comes, by rw [hup, hw.split]⟩,
      ?_, ?_, ?_⟩
    · simp [verdict_of_ahead hc.running]
    · intro hp
      have hi := hm.phase
      simp [hp, Phase.Inside] at hi
    · intro hl
      exact .inl (by rw [hm.buffer]; exact hw.ended hl)
  · have hwithin := hc.within
    rw [rank_inside hm.phase, hm.buffer]
    omega

theorem Working.close {done : List String} (hw : s.Working setup lines later done)
    (hshow : s.Shows origin (done.foldl (Transcript.line setup) start))
    (hd : s.buffer.isDone = true) :
    (s.close (.ok .endOfInput)).Follows setup origin start lines later ∧
      (s.close (.ok .endOfInput)).rank setup later ≤ 2 := by
  have hm : Moves .undisturbed s (s.close (.ok .endOfInput)) := close_moves s rfl
  have hnone : s.buffer.remaining (later.getD []) = [] := by
    obtain ⟨he, hl, -⟩ := (LineBuffer.isDone_iff _).1 hd
    simp [LineBuffer.remaining, he, hl]
  constructor
  · refine ⟨(hm.arrived hw.lawful hw.idle).toLawful, ⟨done, ⟨_, hshow.phase _, rfl⟩, ?_⟩,
      fun _ => hd, ?_, fun hl => .inl (hw.ended hl)⟩
    · rw [upcoming_inside hm.phase]
      exact hw.split
    · simp [Session.close]
  · rw [rank_inside hm.phase, hm.buffer, hnone]
    exact Nat.le_refl 2

/-- A line that was read is prompted for, and so is taken. -/
theorem receive_follows {a : Answer} {done : List String} (ht : Terms.undisturbed.Cover setup)
    (hecho : setup.echo = true) (hs : s.Lawful setup .undisturbed) (hidle : s.phase.awaits = false)
    (ha : a.Within .undisturbed)
    (hshow : s.Shows origin (done.foldl (Transcript.line setup) start))
    (hsplit : done ++ (handed (some a) ++ s.buffer.remaining (later.getD [])) = lines)
    (hended : later = none → s.buffer.ended = true) :
    (s.receive setup a).Follows setup origin start lines later ∧
      (s.receive setup a).rank setup later <
        6 * (handed (some a) ++ s.buffer.remaining (later.getD [])).length +
          (Phase.awaiting (some a)).ahead := by
  have hm := receive_moves ht s ha
  have hlawful := (hm.arrived hs hidle).toLawful
  cases a with
  | line l =>
    have hl : l ≠ interruptMarker := fun h => ha h
    have heq : s.receive setup (.line l) = s.enterPrompt (some l) := by
      simp [Session.receive, hl, hecho]
    rw [heq] at hm hlawful ⊢
    constructor
    · refine ⟨hlawful, ⟨done ++ [l], ⟨_, ⟨hshow.output, hshow.errors, hshow.context,
        hshow.accumulated⟩, ?_⟩, ?_⟩, ?_, ?_, fun h => .inl (hended h)⟩
      · rw [List.foldl_append]
        rfl
      · rw [upcoming_inside hm.phase, List.append_assoc]
        exact hsplit
      · simp [enterPrompt, Phase.verdict?]
      · simp [enterPrompt]
    · rw [rank_inside hm.phase]
      simp only [handed, Option.bind_some, Answer.line?, Option.toList_some, List.length_append,
        List.length_singleton, enterPrompt, Phase.ahead]
      omega
  | ended =>
    have hw : s.Working setup lines later done := ⟨hs, hidle, hsplit, hended⟩
    have hnext := hw.moves hm hshow.yield
    refine ⟨hnext.1, ?_⟩
    simpa [handed, Answer.line?, Phase.ahead, Nat.lt_succ_iff] using hnext.2
  | failed message => simp [Answer.Within, Terms.undisturbed] at ha

theorem Working.iterate {done : List String} (ht : Terms.undisturbed.Cover setup)
    (hecho : setup.echo = true) (hw : s.Working setup lines later done)
    (hshow : s.Shows origin (done.foldl (Transcript.line setup) start)) :
    (s.iterate setup).Follows setup origin start lines later ∧
      (s.iterate setup).rank setup later ≤
        6 * (s.buffer.remaining (later.getD [])).length + 2 := by
  have hlawful := (hw.lawful.iterate ht hw.idle).toLawful
  unfold Session.iterate at hlawful ⊢
  by_cases hd : s.buffer.isDone = true
  · rw [if_pos hd]
    have hclose := hw.close hshow hd
    exact ⟨hclose.1, by omega⟩
  · rw [if_neg hd, if_pos hecho] at hlawful ⊢
    have hfree := hw.lawful.free hw.idle
    have hstart := LineBuffer.read_starting s.buffer
    unfold Session.read at hlawful ⊢
    cases hread : s.buffer.read with
    | error fault =>
      rw [hread] at hstart
      cases hstart with
      | outstanding hs => simp [hfree] at hs
      | afterEnd _ hd' => exact absurd hd' hd
    | ok r =>
      obtain ⟨rest, a⟩ := r
      have hremaining := LineBuffer.read_remaining hread (later.getD [])
      have hended : later = none → rest.ended = true := by
        rw [LineBuffer.read_ended hread]
        exact hw.ended
      obtain ⟨hrest, hwithin⟩ := LineBuffer.read_within hw.lawful.buffer hread
      have hsound := hw.lawful.sound.read hread
      have hshow' (p : Phase) : Shows { s with buffer := rest, phase := p } origin
          (done.foldl (Transcript.line setup) start) :=
        ⟨hshow.output, hshow.errors, hshow.context, hshow.accumulated⟩
      simp only [hread] at hlawful ⊢
      rw [hread] at hstart
      have hsplit : done ++ (handed a ++ rest.remaining (later.getD [])) = lines := by
        rw [hremaining]
        exact hw.split
      cases a with
      | none =>
        have hup : upcoming setup { s with buffer := rest, phase := .awaiting none } later =
            s.buffer.remaining (later.getD []) := by
          rw [← hremaining]
          simp [upcoming, Phase.held, unloaded, handed]
        constructor
        · refine ⟨hlawful, ⟨done, ⟨_, hshow' _, rfl⟩, by rw [hup, hw.split]⟩, ?_, ?_,
            fun h => .inl (hended h)⟩
          · simp [Phase.verdict?]
          · simp
        · simp only [rank, hup, Phase.ahead]
          omega
      | some a =>
        have hslot : rest.slot = .free := by cases hstart <;> rfl
        have hnext : Lawful setup .undisturbed { s with buffer := rest } :=
          { hw.lawful with
            sound := hsound
            slot := by simp [hw.idle, hslot]
            buffer := hrest }
        have hline : (Phase.awaiting (some a)).ahead = 3 := by
          cases hstart with
          | line _ _ => rfl
          | failed _ _ _ => simp [Answer.Within, Terms.undisturbed] at hwithin
        have hreceived :=
          receive_follows ht hecho hnext hw.idle (hwithin a rfl) (hshow' s.phase) hsplit hended
        have hrank : (receive setup a { s with buffer := rest }).rank setup later <
            6 * (handed (some a) ++ rest.remaining (later.getD [])).length +
              (Phase.awaiting (some a)).ahead := hreceived.2
        rw [hremaining, hline] at hrank
        exact ⟨hreceived.1, Nat.le_of_lt_succ hrank⟩

theorem Shows.loaded {t : Transcript} (h : s.Shows origin t) (bytes : List UInt8) :
    (s.load bytes).Shows origin t :=
  ⟨h.output, h.errors, h.context, h.accumulated⟩

theorem load_remaining (hs : s.Lawful setup .undisturbed) (hidle : s.phase.awaits = false)
    (bytes : List UInt8) :
    (s.load bytes).buffer.remaining [] = s.buffer.remaining bytes := by
  have hfed := (LineBuffer.feed_releases s.buffer bytes).free (hs.free hidle)
  have hfin := (LineBuffer.finish_releases (s.buffer.feed bytes).1).free hfed.1
  have hfeed := LineBuffer.feed_remaining hs.sound bytes []
  have hfinish := LineBuffer.finish_remaining (hs.sound.feed bytes) []
  rw [hfed.2] at hfeed
  rw [hfin.2] at hfinish
  simp only [handed, Option.bind_none, Option.toList_none, List.nil_append,
    List.append_nil] at hfeed hfinish
  exact hfinish.trans hfeed

theorem Follows.load (hs : s.Follows setup origin start lines none)
    (hp : s.phase = .created ∨ s.phase = .loading) (ht : Terms.undisturbed.Cover setup)
    (hecho : setup.echo = true) :
    ((s.load (s.unloaded setup)).iterate setup).Follows setup origin start lines none ∧
      ((s.load (s.unloaded setup)).iterate setup).rank setup none < s.rank setup none := by
  have hidle : s.phase.awaits = false := by rcases hp with hp | hp <;> rw [hp] <;> rfl
  have hheld : s.phase.held = [] := by rcases hp with hp | hp <;> rw [hp] <;> rfl
  have hahead : 3 ≤ s.phase.ahead := by rcases hp with hp | hp <;> rw [hp] <;> decide
  have hloaded := load_remaining hs.lawful hidle (s.unloaded setup)
  have hup : s.upcoming setup none = s.buffer.remaining (s.unloaded setup) := by
    simp [upcoming, hheld]
  obtain ⟨done, ⟨now, hshow, hcomplete⟩, hsplit⟩ := hs.taken
  have hnow : now = done.foldl (Transcript.line setup) start := by
    rw [← hcomplete]
    rcases hp with hp | hp <;> rw [hp] <;> rfl
  have hw : (s.load (s.unloaded setup)).Working setup lines none done := by
    refine ⟨hs.lawful.load hidle _, hidle, ?_, fun _ => LineBuffer.finish_ended _⟩
    rw [← hsplit, hup]
    exact congrArg _ hloaded
  have hnext := hw.iterate ht hecho (hnow ▸ hshow.loaded _)
  refine ⟨hnext.1, ?_⟩
  have hrank := hnext.2
  simp only [Option.getD_none, hloaded] at hrank
  simp only [rank, hup]
  simp only [rank] at hrank
  omega

theorem Follows.working (hs : s.Follows setup origin start lines later)
    (hi : s.phase.Inside .undisturbed) :
    ∃ done now, s.Working setup lines later done ∧ s.Shows origin now ∧
      s.phase.complete setup now = done.foldl (Transcript.line setup) start := by
  obtain ⟨done, ⟨now, hshow, hcomplete⟩, hsplit⟩ := hs.taken
  rw [upcoming_inside hi] at hsplit
  refine ⟨done, now, ⟨hs.lawful, hi.awaits, hsplit, fun hl => ?_⟩, hshow, hcomplete⟩
  rcases hs.ended hl with he | ⟨-, hp | hp⟩
  · exact he
  · simp [hp, Phase.Inside] at hi
  · simp [hp, Phase.Inside] at hi

theorem Working.written {done : List String} (hw : s.Working setup lines later done)
    (text : String) :
    Working setup { s with output := (s.output.write text).1 } lines later done :=
  ⟨hw.lawful.written text, hw.idle, hw.split, hw.ended⟩

theorem Working.reported {done : List String} (hw : s.Working setup lines later done)
    (text : String) :
    Working setup { s with errors := (s.errors.write text).1 } lines later done :=
  ⟨hw.lawful.reported text, hw.idle, hw.split, hw.ended⟩

theorem Working.goes {s' t : Session} {done : List String} {n : Nat}
    (hw : s'.Working setup lines later done) (hb : s'.buffer = s.buffer)
    (hi : s.phase.Inside .undisturbed) (hm : Moves .undisturbed s' t)
    (hc : t.ComesWithin setup origin (done.foldl (Transcript.line setup) start) n)
    (hn : n < s.phase.ahead) :
    t.Follows setup origin start lines later ∧ t.rank setup later < s.rank setup later := by
  have hnext := hw.moves hm hc
  refine ⟨hnext.1, ?_⟩
  have hrank := hnext.2
  rw [hb] at hrank
  rw [rank_inside hi]
  omega

theorem Lawful.room (hs : s.Lawful setup .undisturbed) :
    s.output.room = none ∧ s.errors.room = none := by
  have hnever : ¬ ∀ message, Terms.undisturbed.results (.error (.transport message)) := by
    simp [Terms.undisturbed]
  constructor
  · refine Classical.byContradiction fun h => ?_
    exact hnever (hs.output (.inl h))
  · refine Classical.byContradiction fun h => ?_
    exact hnever (hs.errors (.inl h))

theorem complete_of_verdict {p : Phase} (h : p.verdict?.isSome = true) (now : Transcript) :
    p.complete setup now = now := by
  cases p with
  | closing r => rfl
  | closingErrors r failure => rfl
  | ended r => rfl
  | _ => simp [Phase.verdict?] at h

theorem Follows.write {n : Nat} (hs : s.Follows setup origin start lines later)
    (hi : s.phase.Inside .undisturbed) (text : String) (next : Session → Session)
    (hn : n < s.phase.ahead)
    (hm : Moves .undisturbed { s with output := (s.output.write text).1 }
      (next { s with output := (s.output.write text).1 }))
    (hc : ∀ now, Shows { s with output := (s.output.write text).1 } origin (now.write text) →
      (next { s with output := (s.output.write text).1 }).ComesWithin setup origin
        (s.phase.complete setup now) n) :
    (s.write text next).Follows setup origin start lines later ∧
      (s.write text next).rank setup later < s.rank setup later := by
  obtain ⟨done, now, hw, hshow, hcomplete⟩ := hs.working hi
  obtain ⟨heq, hwritten⟩ := hshow.write hs.lawful.room.1 text next
  have hnext := hc now hwritten
  rw [hcomplete] at hnext
  rw [heq]
  exact (hw.written text).goes rfl hi hm hnext hn

theorem Follows.shut {t : Session} (hs : s.Follows setup origin start lines later)
    (hv : s.phase.verdict?.isSome = true) (hvt : t.phase.verdict?.isSome = true)
    (hlawful : t.Lawful setup .undisturbed) (hb : t.buffer = s.buffer)
    (hshown : ∀ now, s.Shows origin now → t.Shows origin now)
    (hlt : t.phase.ahead < s.phase.ahead) :
    t.Follows setup origin start lines later ∧ t.rank setup later < s.rank setup later := by
  have hi := hs.lawful.phase.inside hv
  have hit := hlawful.phase.inside hvt
  obtain ⟨done, ⟨now, hshow, hnow⟩, hsplit⟩ := hs.taken
  rw [complete_of_verdict hv] at hnow
  have hcomplete : t.phase.complete setup now = now := complete_of_verdict hvt now
  constructor
  · refine ⟨hlawful, ⟨done, ⟨now, hshown now hshow, hcomplete.trans hnow⟩, ?_⟩, ?_, ?_, ?_⟩
    · rw [← hsplit, upcoming_inside hi, upcoming_inside hit, hb]
    · intro _
      rw [hb]
      exact hs.exhausted hv
    · intro hp
      simp [hp, Phase.verdict?] at hvt
    · intro _
      rw [hb]
      exact .inl ((LineBuffer.isDone_iff _).1 (hs.exhausted hv)).1
  · rw [rank_inside hi, rank_inside hit, hb]
    omega

theorem step_of_rests (h : s.phase.rests = true) : s.step setup = s := by
  unfold Session.step
  cases hp : s.phase with
  | awaiting a =>
    cases a with
    | none => rfl
    | some a => simp [hp, Phase.rests] at h
  | pending declaration d interrupted =>
    cases interrupted with
    | false => rfl
    | true => simp [hp, Phase.rests] at h
  | transforming d => rfl
  | ended result => rfl
  | _ => simp [hp, Phase.rests] at h

theorem resolve_of_waits (h : s.phase.waits = false) : s.resolve setup = s := by
  unfold Session.resolve
  cases hp : s.phase with
  | pending declaration d interrupted => simp [hp, Phase.waits] at h
  | transforming d => simp [hp, Phase.waits] at h
  | _ => rfl

theorem complete_echoing (l : String) (now : Transcript) :
    (Phase.echoing l).complete setup (now.write (now.promptText setup)) =
      (Phase.prompting (some l)).complete setup now := by
  simp only [Phase.complete, Transcript.line, Transcript.write, String.append_assoc]

theorem Follows.open_file {bytes : List UInt8} (hs : s.Follows setup origin start lines later)
    (hp : s.phase = .created) (hsrc : setup.source = .file (.ok bytes)) :
    Follows setup { s with phase := .loading } origin start lines later ∧
      rank setup { s with phase := .loading } later < s.rank setup later := by
  have hup : upcoming setup { s with phase := .loading } later = s.upcoming setup later := by
    simp [upcoming, hp, Phase.held, unloaded, hsrc]
  obtain ⟨done, ⟨now, hshow, hcomplete⟩, hsplit⟩ := hs.taken
  rw [hp] at hcomplete
  constructor
  · refine ⟨?_, ⟨done, ⟨now, hshow.phase _, hcomplete⟩, by rw [hup, hsplit]⟩, ?_,
      fun _ => ⟨bytes, hsrc⟩, fun _ => .inr ⟨by simp [hsrc], .inr rfl⟩⟩
    · exact { hs.lawful with slot := hs.lawful.free (by rw [hp]; rfl), phase := trivial }
    · simp [Phase.verdict?]
  · simp only [rank, hup, hp, Phase.ahead]
    omega

theorem Follows.attach (hs : s.Follows setup origin start lines later) (hp : s.phase = .created)
    (hsrc : setup.source = .stream) (ht : Terms.undisturbed.Cover setup)
    (hecho : setup.echo = true) :
    (s.iterate setup).Follows setup origin start lines later ∧
      (s.iterate setup).rank setup later < s.rank setup later := by
  have hup : s.upcoming setup later = s.buffer.remaining (later.getD []) := by
    simp [upcoming, hp, Phase.held, unloaded, hsrc]
  obtain ⟨done, ⟨now, hshow, hcomplete⟩, hsplit⟩ := hs.taken
  rw [hp] at hcomplete
  have hw : s.Working setup lines later done := by
    refine ⟨hs.lawful, by rw [hp]; rfl, by rw [← hup, hsplit], fun hl => ?_⟩
    rcases hs.ended hl with he | ⟨hn, -⟩
    · exact he
    · exact absurd hsrc hn
  have hnow : now = done.foldl (Transcript.line setup) start := hcomplete
  have hnext := hw.iterate ht hecho (hnow ▸ hshow)
  refine ⟨hnext.1, ?_⟩
  have hrank : s.rank setup later = 6 * (s.buffer.remaining (later.getD [])).length + 4 := by
    rw [rank, hup, hp]
    rfl
  have hle := hnext.2
  omega

theorem Follows.receive {a : Answer} (hs : s.Follows setup origin start lines later)
    (hp : s.phase = .awaiting (some a)) (ht : Terms.undisturbed.Cover setup)
    (hecho : setup.echo = true) :
    (s.receive setup a).Follows setup origin start lines later ∧
      (s.receive setup a).rank setup later < s.rank setup later := by
  have hup : s.upcoming setup later = handed (some a) ++ s.buffer.remaining (later.getD []) := by
    simp [upcoming, hp, Phase.held, unloaded]
  obtain ⟨done, ⟨now, hshow, hcomplete⟩, hsplit⟩ := hs.taken
  rw [hp] at hcomplete
  have hnow : now = done.foldl (Transcript.line setup) start := hcomplete
  have ha : a.Within .undisturbed := by
    have hphase := hs.lawful.phase
    simpa only [hp, Phase.Within] using hphase
  have hended : later = none → s.buffer.ended = true := by
    intro hl
    rcases hs.ended hl with he | ⟨-, hc | hc⟩
    · exact he
    · simp [hp] at hc
    · simp [hp] at hc
  have hnext := receive_follows ht hecho hs.lawful (by rw [hp]; rfl) ha (hnow ▸ hshow)
    (by rw [← hup, hsplit]) hended
  refine ⟨hnext.1, ?_⟩
  rw [rank, rank, hup, hp]
  exact hnext.2

/-- A step leaves less ahead, unless the session waits. -/
theorem Follows.step (hs : s.Follows setup origin start lines later)
    (ht : Terms.undisturbed.Cover setup) (hecho : setup.echo = true)
    (hlater : setup.source ≠ .stream → later = none) :
    (s.step setup).Follows setup origin start lines later ∧
      (s.phase.rests = false → (s.step setup).rank setup later < s.rank setup later) := by
  have hlate : ¬ s.ReadsLate setup := by
    intro h
    have hphase := hs.lawful.phase
    simp [h.phase, Phase.Within, hecho] at hphase
  have hlawful := (hs.lawful.step ht hlate).toLawful
  have hphase := hs.lawful.phase
  have hmoves {t : Session} {P : Prop} (h : t.Follows setup origin start lines later ∧
      t.rank setup later < s.rank setup later) :
      t.Follows setup origin start lines later ∧ (P → t.rank setup later < s.rank setup later) :=
    ⟨h.1, fun _ => h.2⟩
  unfold Session.step at hlawful ⊢
  cases hp : s.phase with
  | created =>
    cases hsrc : setup.source with
    | text bytes =>
      obtain rfl := hlater (by simp [hsrc])
      have hload := hs.load (.inl hp) ht hecho
      have hun : s.unloaded setup = bytes := by simp [unloaded, hp, hsrc]
      rw [hun] at hload
      exact hmoves hload
    | file content =>
      cases content with
      | error e => exact absurd (ht.file e hsrc) (by simp [Terms.undisturbed])
      | ok bytes => exact hmoves (hs.open_file hp hsrc)
    | stream => exact hmoves (hs.attach hp hsrc ht hecho)
  | loading =>
    obtain ⟨bytes, hsrc⟩ := hs.file hp
    obtain rfl := hlater (by simp [hsrc])
    have hload := hs.load (.inr hp) ht hecho
    have hun : s.unloaded setup = bytes := by simp [unloaded, hp, hsrc]
    rw [hun] at hload
    simp only [hsrc]
    exact hmoves hload
  | prompting line =>
    cases line with
    | none => simp [hp, Phase.Within, hecho] at hphase
    | some l =>
      have hi : s.phase.Inside .undisturbed := by rw [hp]; rfl
      refine hmoves (hs.write hi (s.promptText setup) _ (by rw [hp]; exact Nat.lt_succ_self 7)
        ⟨trivial, rfl, rfl, rfl⟩ ?_)
      intro now hshow
      have hprompt : s.promptText setup = now.promptText setup := promptText_eq hshow.accumulated
      rw [hp, ← complete_echoing, ← hprompt]
      exact ⟨⟨_, hshow.phase _, rfl⟩, by simp [Phase.ahead], Nat.le_refl 7⟩
  | echoing line =>
    have hi : s.phase.Inside .undisturbed := by rw [hp]; trivial
    refine hmoves (hs.write hi line _ (by rw [hp]; exact Nat.lt_succ_self 6)
      (evaluate_moves ht _ line) ?_)
    intro now hshow
    rw [hp]
    exact hshow.evaluate ht.reports line
  | awaiting answer =>
    cases answer with
    | none => exact ⟨hs, fun h => (Bool.false_ne_true h.symm).elim⟩
    | some a => exact hmoves (hs.receive hp ht hecho)
  | pending declaration d interrupted =>
    cases interrupted with
    | false => exact ⟨hs, fun h => (Bool.false_ne_true h.symm).elim⟩
    | true =>
      simp only [hp, Phase.Within, Phase.Inside] at hphase
      exact (hphase.1 trivial).elim
  | transforming d => exact ⟨hs, fun h => (Bool.false_ne_true h.symm).elim⟩
  | printing v =>
    have hi : s.phase.Inside .undisturbed := by rw [hp]; trivial
    refine hmoves (hs.write hi _ _ (by rw [hp]; exact Nat.lt_succ_self 3) (yield_moves _) ?_)
    intro now hshow
    rw [hp]
    exact hshow.yield
  | reporting e =>
    have hi : s.phase.Inside .undisturbed := by
      simpa only [hp, Phase.Within] using hphase
    obtain ⟨done, now, hw, hshow, hcomplete⟩ := hs.working hi
    rw [hp] at hcomplete
    change now.report setup e = _ at hcomplete
    obtain ⟨heq, hreported⟩ := hshow.report hs.lawful.room.2 e Session.yield
    refine hmoves ?_
    dsimp only
    rw [heq]
    refine (hw.reported _).goes rfl hi (yield_moves _) (hcomplete ▸ hreported.yield) ?_
    simp [hp, Phase.ahead]
  | breaking =>
    simp only [hp, Phase.Within, Phase.Inside] at hphase
    exact hphase.elim
  | yielding =>
    have hi : s.phase.Inside .undisturbed := by rw [hp]; trivial
    obtain ⟨done, now, hw, hshow, hcomplete⟩ := hs.working hi
    rw [hp] at hcomplete
    change now = _ at hcomplete
    have hnext := hw.iterate ht hecho (hcomplete ▸ hshow)
    refine hmoves ⟨hnext.1, ?_⟩
    have hrank : s.rank setup later = 6 * (s.buffer.remaining (later.getD [])).length + 3 := by
      rw [rank_inside hi, hp]
      rfl
    have hle := hnext.2
    dsimp only
    omega
  | closing result =>
    rw [hp] at hlawful
    refine hmoves (hs.shut (by rw [hp]; rfl) rfl hlawful rfl ?_ (by simp [hp, Phase.ahead]))
    exact fun now h => ⟨h.output, h.errors, h.context, h.accumulated⟩
  | closingErrors result failure =>
    rw [hp] at hlawful
    refine hmoves (hs.shut (by rw [hp]; rfl) rfl hlawful rfl ?_ (by simp [hp, Phase.ahead]))
    exact fun now h => ⟨h.output, h.errors, h.context, h.accumulated⟩
  | ended result => exact ⟨hs, fun h => (Bool.false_ne_true h.symm).elim⟩

theorem Follows.resolve (hs : s.Follows setup origin start lines later)
    (ht : Terms.undisturbed.Cover setup) :
    (s.resolve setup).Follows setup origin start lines later ∧
      (s.phase.waits = true → (s.resolve setup).rank setup later < s.rank setup later) := by
  have hphase := hs.lawful.phase
  unfold Session.resolve
  cases hp : s.phase with
  | pending declaration d interrupted =>
    have hi : s.phase.Inside .undisturbed := by simpa only [hp, Phase.Within] using hphase
    obtain ⟨done, now, hw, hshow, hcomplete⟩ := hs.working hi
    simp only [hp, Phase.Within, Phase.Inside] at hphase
    rw [hp] at hcomplete
    change now.settled setup declaration d.outcome = _ at hcomplete
    have hnext := hw.goes rfl hi (settled_moves ht s declaration hphase.2)
      (hcomplete ▸ hshow.settled ht.reports declaration hphase.2) (by simp [hp, Phase.ahead])
    exact ⟨hnext.1, fun _ => hnext.2⟩
  | transforming d =>
    have hi : s.phase.Inside .undisturbed := by simpa only [hp, Phase.Within] using hphase
    obtain ⟨done, now, hw, hshow, hcomplete⟩ := hs.working hi
    simp only [hp, Phase.Within, Phase.Inside] at hphase
    rw [hp] at hcomplete
    change now.transformed setup d.outcome = _ at hcomplete
    have hnext := hw.goes rfl hi (transformed_moves ht s hphase)
      (hcomplete ▸ hshow.transformed hphase) (by simp [hp, Phase.ahead])
    exact ⟨hnext.1, fun _ => hnext.2⟩
  | _ => exact ⟨hs, fun h => (Bool.false_ne_true h).elim⟩

theorem Follows.supply {r : LineBuffer × Option Answer} {later' : Option (List UInt8)}
    (hs : s.Follows setup origin start lines later) (hsrc : setup.source = .stream)
    (hlawful : (s.supply r).Lawful setup .undisturbed) (hr : s.buffer.Releases r)
    (hremaining : handed r.2 ++ r.1.remaining (later'.getD []) =
      s.buffer.remaining (later.getD []))
    (hdone : s.buffer.isDone = true → r.1.isDone = true)
    (hended : later' = none → r.1.ended = true) :
    (s.supply r).Follows setup origin start lines later' := by
  have hload : ∀ t : Session, t.phase = .loading → t.phase = s.phase → False := by
    intro t ht heq
    obtain ⟨bytes, hb⟩ := hs.file (heq ▸ ht)
    simp [hsrc] at hb
  have hnone := unloaded_stream hsrc
  obtain ⟨done, ⟨now, hshow, hcomplete⟩, hsplit⟩ := hs.taken
  have hkept (p : Phase) : Shows { s with buffer := r.1, phase := p } origin now :=
    ⟨hshow.output, hshow.errors, hshow.context, hshow.accumulated⟩
  rcases hs.lawful.supply_cases hr with ⟨ha, -, heq⟩ | ⟨a, ha, -, hp, heq⟩
  · rw [heq] at hlawful ⊢
    refine ⟨hlawful, ⟨done, ⟨now, hkept _, hcomplete⟩, ?_⟩, fun h => hdone (hs.exhausted h),
      fun h => (hload { s with buffer := r.1 } h rfl).elim, fun hl => .inl (hended hl)⟩
    rw [← hsplit]
    simp only [upcoming, hnone, List.nil_append]
    rw [← hremaining, ha]
    rfl
  · rw [heq] at hlawful ⊢
    rw [hp] at hcomplete
    refine ⟨hlawful, ⟨done, ⟨now, hkept _, hcomplete⟩, ?_⟩, by simp [Phase.verdict?], by simp,
      fun hl => .inl (hended hl)⟩
    rw [← hsplit]
    simp only [upcoming, hnone, List.nil_append, hp, Phase.held]
    rw [← hremaining, ha]
    rfl

theorem Follows.feed {chunk rest : List UInt8}
    (hs : s.Follows setup origin start lines (some (chunk ++ rest)))
    (hsrc : setup.source = .stream) :
    (s.feed chunk).Follows setup origin start lines (some rest) := by
  have hlawful : (s.feed chunk).Lawful setup .undisturbed :=
    hs.lawful.supply (LineBuffer.feed_releases _ chunk) (hs.lawful.sound.feed chunk)
      (LineBuffer.feed_within hs.lawful.buffer chunk)
  refine hs.supply hsrc hlawful (LineBuffer.feed_releases _ chunk)
    (LineBuffer.feed_remaining hs.lawful.sound chunk rest) ?_ (by simp)
  intro hd
  rw [LineBuffer.feed_of_isDone hd]
  exact hd

theorem Follows.finish (hs : s.Follows setup origin start lines (some []))
    (hsrc : setup.source = .stream) : s.finish.Follows setup origin start lines none := by
  have hlawful : s.finish.Lawful setup .undisturbed :=
    hs.lawful.supply (LineBuffer.finish_releases _) hs.lawful.sound.finish
      (LineBuffer.finish_within hs.lawful.buffer)
  refine hs.supply hsrc hlawful (LineBuffer.finish_releases _)
    (LineBuffer.finish_remaining hs.lawful.sound []) ?_ fun _ => LineBuffer.finish_ended _
  intro hd
  rw [LineBuffer.finish_of_isDone hd]
  exact hd

end Session
end PromptLoop
