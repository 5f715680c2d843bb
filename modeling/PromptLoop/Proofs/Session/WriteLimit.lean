import PromptLoop.Proofs.Session.Dismissal
import PromptLoop.Proofs.Session.SinkFrame

set_option autoImplicit false

namespace PromptLoop

variable {U : Type}

theorem extract_of_size_le {a : ByteArray} {n : Nat} (h : a.size ≤ n) : a.extract 0 n = a := by
  have hrest : a.extract a.size n = .empty := by
    rw [ByteArray.extract_eq_empty_iff]
    omega
  have hsplit := ByteArray.extract_append_extract (a := a) (i := 0) (j := a.size) (k := n)
  rw [hrest, ByteArray.extract_zero_size, ByteArray.append_empty, Nat.zero_min,
    Nat.max_eq_right h] at hsplit
  exact hsplit.symm

theorem extract_append_rest (a : ByteArray) (n : Nat) :
    a.extract 0 n ++ a.extract n a.size = a := by
  rw [ByteArray.extract_append_extract, Nat.zero_min, extract_of_size_le (Nat.le_max_right _ _)]

namespace Sink

def capped (total : Nat) (x : Sink) : Sink :=
  { x with room := some (total - x.written.size) }

variable {x : Sink} {total : Nat} {text : String}

theorem write_unlimited (hr : x.room = none) (text : String) :
    x.write text = ({ x with written := x.written ++ text.toUTF8 }, none) := by
  simp only [Sink.write, hr]

theorem write_capped_of_fits (hr : x.room = none)
    (h : (x.write text).1.written.size ≤ total) :
    (x.capped total).write text = ((x.write text).1.capped total, none) := by
  rw [write_unlimited hr] at h ⊢
  have hsize : x.written.size + text.toUTF8.size ≤ total := by
    rw [← ByteArray.size_append]
    exact h
  have hfits : text.toUTF8.size ≤ total - x.written.size := by omega
  simp only [Sink.write, capped, if_pos hfits, ByteArray.size_append, Nat.sub_sub]

theorem write_capped_of_exceeds (hr : x.room = none) (hx : x.written.size ≤ total)
    (h : total < (x.write text).1.written.size) :
    (x.capped total).write text =
      ({ x with written := (x.write text).1.written.extract 0 total, room := some 0 },
        some writeFailure) := by
  rw [write_unlimited hr] at h ⊢
  have hsize : total < x.written.size + text.toUTF8.size := by
    rw [← ByteArray.size_append]
    exact h
  have hfull : ¬ text.toUTF8.size ≤ total - x.written.size := by omega
  have hcut : (x.written ++ text.toUTF8).extract 0 total =
      x.written ++ text.toUTF8.extract 0 (total - x.written.size) := by
    rw [ByteArray.extract_append, Nat.zero_sub, extract_of_size_le hx]
  simp only [Sink.write, capped, if_neg hfull, hcut]

theorem write_grows (x : Sink) (text : String) :
    ∃ more, (x.write text).1.written = x.written ++ more := by
  unfold Sink.write
  split
  · exact ⟨_, rfl⟩
  · dsimp only
    split
    · exact ⟨_, rfl⟩
    · exact ⟨_, rfl⟩

end Sink

namespace Session

/-- The session whose sink takes no more than `total` bytes, those that it holds included. -/
def capped (v : Outlet) (total : Nat) (s : Session) : Session :=
  s.withSink v ((s.sink v).capped total)

theorem Blind.capped {f : Session → Session} (h : Blind f) (s : Session) (v : Outlet)
    (total : Nat) : f (s.capped v total) = (f s).capped v total := by
  unfold Session.capped
  rw [h, h.sink]

section Steps
variable {setup : Setup U} {s : Session} {v : Outlet} {total : Nat}

theorem capped_step_of_not_due (hw : s.due? setup = none) :
    (s.capped v total).step setup = (s.step setup).capped v total := by
  have hphase : (s.capped v total).phase = s.phase := by cases v <;> rfl
  rcases step_of_not_due hw with ⟨f, hf, hstep⟩ | ⟨result, hp⟩ | ⟨result, failure, hp⟩
  · rw [hstep s rfl, hstep _ hphase]
    exact hf.blind.capped s v total
  · simp only [Session.step, hphase, hp]
    cases v <;> rfl
  · simp only [Session.step, hphase, hp]
    cases v <;> rfl

theorem made_of_unlimited {w : Write} (hr : (s.sink w.outlet).room = none) :
    (w.made s).2 = none := by
  unfold Write.made
  rw [Sink.write_unlimited hr]

theorem capped_step_of_other {w : Write} (hw : s.due? setup = some w) (hv : v ≠ w.outlet) :
    (s.capped v total).step setup = (s.step setup).capped v total ∧
      (s.capped v total).stepEntries setup = s.stepEntries setup := by
  have hdue : (s.capped v total).due? setup = some w := (due?_withSink v _).trans hw
  have hmade : w.made (s.capped v total) = w.made s := by
    unfold Write.made Session.capped
    rw [sink_withSink_of_ne (Ne.symm hv)]
  have hcomm : (s.capped v total).withSink w.outlet (w.made s).1 =
      (s.withSink w.outlet (w.made s).1).capped v total := by
    unfold Session.capped
    rw [withSink_comm hv, sink_withSink_of_ne hv]
  have hfailure := congrArg Prod.snd hmade
  refine ⟨?_, stepEntries_of_due hw hfailure⟩
  cases hm : (w.made s).2 with
  | none =>
    rw [step_of_written hdue (hfailure.trans hm), step_of_written hw hm, hmade, hcomm]
    exact (due?_blind hw).capped _ v total
  | some message =>
    rw [step_of_refused hdue (hfailure.trans hm), step_of_refused hw hm, hmade, hcomm]
    cases v <;> rfl

theorem capped_step_of_own {w : Write} (hw : s.due? setup = some w)
    (hr : (s.sink w.outlet).room = none) (hfits : (w.made s).1.written.size ≤ total) :
    (s.capped w.outlet total).step setup = (s.step setup).capped w.outlet total ∧
      (s.capped w.outlet total).stepEntries setup = s.stepEntries setup := by
  have hdue : (s.capped w.outlet total).due? setup = some w := (due?_withSink _ _).trans hw
  have hfree := made_of_unlimited hr
  have hmade : w.made (s.capped w.outlet total) = ((w.made s).1.capped total, none) := by
    unfold Write.made Session.capped
    rw [sink_withSink]
    exact Sink.write_capped_of_fits hr hfits
  have hfailure := congrArg Prod.snd hmade
  refine ⟨?_, stepEntries_of_due hw (hfailure.trans hfree.symm)⟩
  rw [step_of_written hdue hfailure, hmade, step_of_written hw hfree, ← (due?_blind hw).capped]
  unfold Session.capped
  rw [withSink_withSink, withSink_withSink, sink_withSink]

/-- As long as everything fits, the session with the limit goes the same way. -/
theorem capped_step_of_fits (hr : (s.sink v).room = none)
    (hfits : ((s.step setup).sink v).written.size ≤ total) :
    (s.capped v total).step setup = (s.step setup).capped v total ∧
      (s.capped v total).stepEntries setup = s.stepEntries setup := by
  cases hw : s.due? setup with
  | none =>
    refine ⟨capped_step_of_not_due hw, stepEntries_withSink fun w h => ?_⟩
    rw [hw] at h
    cases h
  | some w =>
    by_cases hv : v = w.outlet
    · subst hv
      refine capped_step_of_own hw hr ?_
      have hsink : (s.step setup).sink w.outlet = (w.made s).1 := by
        rw [step_of_written hw (made_of_unlimited hr), (due?_blind hw).sink, sink_withSink]
      rwa [← hsink]
    · exact capped_step_of_other hw hv

/-- The write that exceeds the limit leaves what fits and closes the session. -/
theorem capped_step_of_exceeds (hr : (s.sink v).room = none)
    (hx : (s.sink v).written.size ≤ total)
    (hexceeds : total < ((s.step setup).sink v).written.size) :
    (s.capped v total).step setup = (s.withSink v { s.sink v with
        written := ((s.step setup).sink v).written.extract 0 total
        room := some 0 }).close (.error (.transport Sink.writeFailure)) ∧
      ∃ lost : List String, (s.capped v total).stepEntries setup = lost.map .lost := by
  have hdue : (s.capped v total).due? setup = s.due? setup := due?_withSink v _
  rcases sink_step setup s v with heq | heq | ⟨w, hw, rfl, heq⟩
  · rw [heq] at hexceeds
    omega
  · rw [heq, Sink.close_written] at hexceeds
    omega
  · rw [heq] at hexceeds ⊢
    have hmade : w.made (s.capped w.outlet total) = ({ s.sink w.outlet with
        written := (w.made s).1.written.extract 0 total, room := some 0 },
        some Sink.writeFailure) := by
      unfold Write.made Session.capped
      rw [sink_withSink]
      exact Sink.write_capped_of_exceeds hr hx hexceeds
    have hfailed := congrArg Prod.snd hmade
    refine ⟨?_, stepEntries_of_failed (hdue.trans hw) hfailed⟩
    rw [step_of_refused (hdue.trans hw) hfailed, hmade]
    unfold Session.capped
    rw [withSink_withSink]

end Steps

section Runs
variable {setup : Setup U} {s : Session} {v : Outlet} {total : Nat}

theorem sink_handle (setup : Setup U) (s : Session) (e : SessionEvent) (v : Outlet) :
    (∃ more, ((s.handle setup e).sink v).written = (s.sink v).written ++ more) ∧
      ((s.sink v).room = none → ((s.handle setup e).sink v).room = none) := by
  by_cases he : e = .step
  · subst he
    change (∃ more, ((s.step setup).sink v).written = _) ∧ (_ → ((s.step setup).sink v).room = none)
    rcases sink_step setup s v with heq | heq | ⟨w, -, rfl, heq⟩
    · rw [heq]
      exact ⟨⟨.empty, by simp⟩, id⟩
    · rw [heq, Sink.close_written]
      exact ⟨⟨.empty, by simp⟩, id⟩
    · rw [heq]
      refine ⟨Sink.write_grows _ _, fun hr => ?_⟩
      unfold Write.made
      rw [Sink.write_unlimited hr]
      exact hr
  · have hsame : (s.handle setup e).sink v = s.sink v := (handle_blind setup he).sink s v
    rw [hsame]
    exact ⟨⟨.empty, by simp⟩, id⟩

theorem run_grows (setup : Setup U) (s : Session) (events : List SessionEvent) (v : Outlet) :
    ∃ more, ((s.run setup events).sink v).written = (s.sink v).written ++ more := by
  induction events generalizing s with
  | nil => exact ⟨.empty, by simp [run]⟩
  | cons e rest ih =>
    obtain ⟨first, hfirst⟩ := (sink_handle setup s e v).1
    obtain ⟨more, hmore⟩ := ih (s.handle setup e)
    refine ⟨first ++ more, ?_⟩
    rw [← ByteArray.append_assoc, ← hfirst]
    exact hmore

theorem run_room (hr : (s.sink v).room = none) (events : List SessionEvent) :
    ((s.run setup events).sink v).room = none := by
  induction events generalizing s with
  | nil => exact hr
  | cons e rest ih => exact ih ((sink_handle setup s e v).2 hr)

theorem size_le_run (setup : Setup U) (s : Session) (events : List SessionEvent) (v : Outlet) :
    (s.sink v).written.size ≤ ((s.run setup events).sink v).written.size := by
  obtain ⟨more, hmore⟩ := run_grows setup s events v
  rw [hmore, ByteArray.size_append]
  exact Nat.le_add_right _ _

theorem capped_handle_of_fits (hr : (s.sink v).room = none) {e : SessionEvent}
    (hfits : ((s.handle setup e).sink v).written.size ≤ total) :
    (s.capped v total).handle setup e = (s.handle setup e).capped v total ∧
      (s.capped v total).entries setup e = s.entries setup e := by
  by_cases he : e = .step
  · subst he
    exact capped_step_of_fits hr hfits
  · refine ⟨(handle_blind setup he).capped s v total, ?_⟩
    cases e with
    | step => exact absurd rfl he
    | _ => cases v <;> rfl

theorem capped_run_of_fits (hr : (s.sink v).room = none) {events : List SessionEvent}
    (hfits : ((s.run setup events).sink v).written.size ≤ total) :
    (s.capped v total).run setup events = (s.run setup events).capped v total ∧
      (s.capped v total).journal setup events = s.journal setup events := by
  induction events generalizing s with
  | nil => exact ⟨rfl, rfl⟩
  | cons e rest ih =>
    have hhead := Nat.le_trans (size_le_run setup (s.handle setup e) rest v) hfits
    obtain ⟨hstep, hentries⟩ := capped_handle_of_fits hr hhead
    obtain ⟨hrest, hjournal⟩ := ih ((sink_handle setup s e v).2 hr) hfits
    constructor
    · change ((s.capped v total).handle setup e).run setup rest = _
      rw [hstep]
      exact hrest
    · simp only [journal]
      rw [hstep, hentries, hjournal]

theorem exists_exceeding (hx : (s.sink v).written.size ≤ total) {events : List SessionEvent}
    (h : total < ((s.run setup events).sink v).written.size) :
    ∃ before after, events = before ++ .step :: after ∧
      ((s.run setup before).sink v).written.size ≤ total ∧
      total < (((s.run setup before).step setup).sink v).written.size := by
  induction events generalizing s with
  | nil => exact absurd h (Nat.not_lt_of_le hx)
  | cons e rest ih =>
    by_cases hfits : ((s.handle setup e).sink v).written.size ≤ total
    · obtain ⟨before, after, rfl, hbefore, hexceeds⟩ := ih hfits h
      exact ⟨e :: before, after, rfl, hbefore, hexceeds⟩
    · have he : e = .step := by
        refine Classical.byContradiction fun hn => hfits ?_
        have hsame : (s.handle setup e).sink v = s.sink v := (handle_blind setup hn).sink s v
        rw [hsame]
        exact hx
      subst he
      exact ⟨[], rest, rfl, hx, Nat.lt_of_not_le hfits⟩

theorem handle_lag (setup : Setup U) (s : Session) (e : SessionEvent) :
    s.phase.lag ≤ (s.handle setup e).phase.lag + [e].countP SessionEvent.isStep := by
  have hle := s.phase.lag_le
  have hsupply (r : LineBuffer × Option Answer) : s.phase.lag ≤ (s.supply r).phase.lag := by
    rcases supply_turn s r with ⟨a, -, -, heq, -⟩ | ⟨heq, -⟩
    · rw [heq]
      exact hle
    · simp only [heq, Nat.le_refl]
  cases e with
  | step => exact step_lag setup s
  | feed chunk => exact hsupply _
  | finish => exact hsupply _
  | fail message => exact hsupply _
  | embed change => exact Nat.le_refl _
  | interrupt =>
    simp only [Session.handle, Session.interrupt]
    split
    · exact hle
    · exact hsupply _
  | resolve =>
    simp only [Session.handle, Session.resolve]
    split
    · rw [settled_eq]
      exact Nat.le_trans hle (Nat.le_of_eq (Phase.behindUnit_any _ _ _).lag.symm)
    · rw [transformed_eq]
      exact Nat.le_trans hle (Nat.le_of_eq (Phase.behindTransform_any _).lag.symm)
    · exact Nat.le_refl _

theorem steps_cons (e : SessionEvent) (rest : List SessionEvent) :
    (e :: rest).countP SessionEvent.isStep =
      [e].countP SessionEvent.isStep + rest.countP SessionEvent.isStep := by
  rw [← List.singleton_append, List.countP_append]

theorem run_lag (setup : Setup U) (s : Session) (events : List SessionEvent) :
    s.phase.lag ≤ (s.run setup events).phase.lag + events.countP SessionEvent.isStep := by
  induction events generalizing s with
  | nil => exact Nat.le_refl _
  | cons e rest ih =>
    have hhead := handle_lag setup s e
    have hrest := ih (s.handle setup e)
    have hcount := steps_cons e rest
    change _ ≤ ((s.handle setup e).run setup rest).phase.lag + _
    omega

end Runs

/-- What a session does that is about to end with an error: it closes its sinks and takes no notice
of anything but changes of the bindings. -/
structure Closed (setup : Setup U) (failure : SessionError) (s : Session)
    (events : List SessionEvent) : Prop where
  verdict : (s.run setup events).phase.verdict? = some (.error failure)
  lag : (s.run setup events).phase.lag = s.phase.lag - events.countP SessionEvent.isStep
  context : (s.run setup events).context = rebind events s.context
  journal : s.journal setup events = []
  written : ∀ v, ((s.run setup events).sink v).written = (s.sink v).written

section Closed
variable {setup : Setup U} {s : Session} {failure : SessionError}

theorem closed_step (setup : Setup U) (h : s.phase.verdict? = some (.error failure)) :
    (s.step setup).phase.lag = s.phase.lag - 1 ∧ (s.step setup).context = s.context ∧
      s.stepEntries setup = [] ∧ ∀ v, ((s.step setup).sink v).written = (s.sink v).written := by
  cases hp : s.phase with
  | closing result =>
    simp only [Session.step, stepEntries, hp, true_and]
    exact ⟨rfl, fun v => by cases v <;> rfl⟩
  | closingErrors result closed =>
    simp only [Session.step, stepEntries, hp, true_and]
    exact ⟨rfl, fun v => by cases v <;> rfl⟩
  | ended result =>
    simp only [Session.step, stepEntries, hp, implies_true, and_true]
    rfl
  | _ => simp [hp, Phase.verdict?] at h

theorem closed_handle (h : s.phase.verdict? = some (.error failure)) (e : SessionEvent) :
    Closed setup failure s [e] := by
  have hverdict : (s.handle setup e).phase.verdict? = some (.error failure) := verdict_handle h e
  by_cases he : e = .step
  · subst he
    obtain ⟨hlag, hcontext, hentries, hwritten⟩ := closed_step setup h
    exact ⟨hverdict, hlag, hcontext, by simp only [journal, entries, hentries, List.append_nil],
      hwritten⟩
  · have hwaits : s.phase.waits = false ∧ s.phase.awaits = false := by
      cases hp : s.phase <;> simp [hp, Phase.verdict?] at h <;> exact ⟨rfl, rfl⟩
    obtain ⟨hidle, hentries⟩ := handle_idle setup he hwaits.2 fun _ => hwaits.1
    rw [SessionEvent.mark_of_waits e hwaits.1] at hidle
    have hrun : s.run setup [e] = s.handle setup e := rfl
    refine ⟨hverdict, ?_, ?_, ?_, ?_⟩
    · have hcount : [e].countP SessionEvent.isStep = 0 := by
        cases e with
        | step => exact absurd rfl he
        | _ => rfl
      rw [hcount, hrun, hidle, Nat.sub_zero]
    · rw [hrun, hidle]
      rfl
    · simp only [journal, hentries, List.append_nil]
    · intro v
      rw [hrun, hidle]
      cases v <;> rfl

theorem closed_run (h : s.phase.verdict? = some (.error failure)) (events : List SessionEvent) :
    Closed setup failure s events := by
  induction events generalizing s with
  | nil => exact ⟨h, rfl, rfl, rfl, fun _ => rfl⟩
  | cons e rest ih =>
    have hhead : Closed setup failure s [e] := closed_handle h e
    have hrest := ih (s := s.handle setup e) hhead.verdict
    have hcount := steps_cons e rest
    refine ⟨hrest.verdict, ?_, ?_, ?_, fun v => (hrest.written v).trans (hhead.written v)⟩
    · rw [hcount, ← Nat.sub_sub, ← hhead.lag]
      exact hrest.lag
    · exact hrest.context.trans (congrArg (rebind rest) hhead.context)
    · simp only [journal, hrest.journal, List.append_nil]
      exact (List.append_nil _).symm.trans hhead.journal

theorem Closed.result {events : List SessionEvent} (h : Closed setup failure s events)
    (hsteps : 2 ≤ events.countP SessionEvent.isStep) :
    (s.run setup events).result? = some (.error failure) := by
  have hlag : (s.run setup events).phase.lag = 0 := by
    have hle := s.phase.lag_le
    rw [h.lag]
    omega
  obtain ⟨result, hp⟩ := Phase.ended_of_lag hlag
  have hverdict := h.verdict
  rw [hp] at hverdict
  simp only [result?, hp]
  exact hverdict

end Closed

def withRoom (v : Outlet) (room : Option Nat) (s : Session) : Session :=
  s.withSink v { s.sink v with room }

theorem withRoom_eq_capped (s : Session) (v : Outlet) (k : Nat) :
    s.withRoom v (some k) =
      (s.withRoom v none).capped v ((s.sink v).written.size + k) := by
  unfold withRoom Session.capped
  rw [withSink_withSink, sink_withSink]
  simp only [Sink.capped, Nat.add_sub_cancel_left]

/-- The runs of two sessions that differ in the limit of a sink only. The limit is exceeded in the
step between `before` and `after`, and not before it. -/
structure Exceeded (setup : Setup U) (free limited : Session) (v : Outlet) (total : Nat)
    (before after : List SessionEvent) : Prop where
  fits : ((free.run setup before).sink v).written.size ≤ total
  exceeds : total < (((free.run setup before).step setup).sink v).written.size
  cut : ((limited.run setup (before ++ .step :: after)).sink v).written =
    ((free.run setup (before ++ .step :: after)).sink v).written.extract 0 total
  other : ∀ w, w ≠ v → ((limited.run setup (before ++ .step :: after)).sink w).written =
    ((free.run setup before).sink w).written
  /-- The bindings are those at the write, but for changes from outside. -/
  context : (limited.run setup (before ++ .step :: after)).context =
    rebind after (free.run setup before).context
  /-- Nothing is compiled any more. The line whose prompt or echo it was is lost. -/
  journal : ∃ lost : List String, limited.journal setup (before ++ .step :: after) =
    free.journal setup before ++ lost.map .lost
  verdict : (limited.run setup (before ++ .step :: after)).phase.verdict? =
    some (.error (.transport Sink.writeFailure))
  ends : 2 ≤ after.countP SessionEvent.isStep →
    (limited.run setup (before ++ .step :: after)).result? =
      some (.error (.transport Sink.writeFailure))
  /-- The session with the limit is over if the one without is. -/
  ends_first : (free.run setup (before ++ .step :: after)).result? ≠ none →
    2 ≤ after.countP SessionEvent.isStep

section Exceeded
variable {setup : Setup U} {s : Session} {v : Outlet} {total : Nat}

theorem lag_of_grows (h : (s.sink v).written.size < ((s.step setup).sink v).written.size) :
    (s.step setup).phase.lag = 2 := by
  rcases sink_step setup s v with heq | heq | ⟨w, hw, -, -⟩
  · rw [heq] at h
    exact absurd h (Nat.lt_irrefl _)
  · rw [heq] at h
    exact absurd h (Nat.lt_irrefl _)
  · rcases step_of_due hw with ⟨-, hstep⟩ | ⟨message, -, hstep⟩
    · rw [hstep]
      exact due?_lag hw _
    · rw [hstep]
      rfl

theorem lag_of_result (h : s.result? ≠ none) : s.phase.lag = 0 := by
  obtain ⟨result, hr⟩ := Option.ne_none_iff_exists'.1 h
  rw [ended_of_result hr]
  rfl

theorem Exceeded.grows {free limited : Session} {before after : List SessionEvent}
    (h : Exceeded setup free limited v total before after) (w : Outlet) :
    ∃ rest, ((free.run setup (before ++ .step :: after)).sink w).written =
      ((limited.run setup (before ++ .step :: after)).sink w).written ++ rest := by
  by_cases hw : w = v
  · subst hw
    rw [h.cut]
    exact ⟨_, (extract_append_rest _ total).symm⟩
  · obtain ⟨more, hmore⟩ := run_grows setup (free.run setup before) (.step :: after) w
    rw [h.other w hw, run_append]
    exact ⟨more, hmore⟩

theorem exceeded (hr : (s.sink v).room = none) {before after : List SessionEvent}
    (hfits : ((s.run setup before).sink v).written.size ≤ total)
    (hexceeds : total < (((s.run setup before).step setup).sink v).written.size) :
    Exceeded setup s (s.capped v total) v total before after := by
  obtain ⟨hbefore, hjournal⟩ := capped_run_of_fits hr hfits
  obtain ⟨hstep, lost, hlost⟩ := capped_step_of_exceeds (run_room hr before) hfits hexceeds
  have hlimited : (s.capped v total).run setup (before ++ .step :: after) =
      (((s.run setup before).capped v total).step setup).run setup after := by
    rw [run_append, hbefore]
    rfl
  have hclosed : Closed setup (.transport Sink.writeFailure)
      (((s.run setup before).capped v total).step setup) after := by
    refine closed_run ?_ after
    rw [hstep]
    rfl
  have hfree : s.run setup (before ++ .step :: after) =
      ((s.run setup before).step setup).run setup after := run_append setup s before _
  refine ⟨hfits, hexceeds, ?_, fun w hw => ?_, ?_, ⟨lost, ?_⟩, ?_, fun h => ?_, fun h => ?_⟩
  · obtain ⟨more, hmore⟩ := run_grows setup ((s.run setup before).step setup) after v
    have hfull : total - (((s.run setup before).step setup).sink v).written.size = 0 := by omega
    rw [hlimited, hclosed.written, hstep, hfree, hmore, ByteArray.extract_append, hfull,
      Nat.zero_sub, ByteArray.extract_same, ByteArray.append_empty]
    cases v <;> rfl
  · rw [hlimited, hclosed.written, hstep]
    exact congrArg Sink.written (sink_withSink_of_ne hw _ _)
  · rw [hlimited, hclosed.context, hstep]
    cases v <;> rfl
  · have hlast := hclosed.journal
    rw [journal_append, hbefore, hjournal]
    simp only [journal, entries, hlost]
    change _ ++ (_ ++ Session.journal setup (((s.run setup before).capped v total).step setup) after) = _
    rw [hlast, List.append_nil]
  · rw [hlimited]
    exact hclosed.verdict
  · rw [hlimited]
    exact hclosed.result h
  · have hlag := run_lag setup ((s.run setup before).step setup) after
    rw [lag_of_grows (Nat.lt_of_le_of_lt hfits hexceeds), ← hfree, lag_of_result h] at hlag
    omega

end Exceeded

/-- A session whose sink has room for `k` bytes goes the way of the session without a limit as long
as that writes no more than `k` bytes to the sink. The first write that exceeds the limit ends it
with a transport error. In any case, what its sinks have got is the beginning of what those of the
other session have got. -/
theorem full_sink_leaves_prefix (setup : Setup U) (s : Session) (v : Outlet) (k : Nat)
    (events : List SessionEvent) :
    let free := s.withRoom v none
    let limited := s.withRoom v (some k)
    let total := (s.sink v).written.size + k
    (∀ w, ∃ rest, ((free.run setup events).sink w).written =
      ((limited.run setup events).sink w).written ++ rest) ∧
    (((free.run setup events).sink v).written.size ≤ total →
      limited.run setup events = (free.run setup events).capped v total ∧
        (limited.run setup events).result? = (free.run setup events).result? ∧
        limited.journal setup events = free.journal setup events) ∧
    (total < ((free.run setup events).sink v).written.size →
      ∃ before after, events = before ++ .step :: after ∧
        Exceeded setup free limited v total before after) := by
  intro free limited total
  have hlimited : limited = free.capped v total := withRoom_eq_capped s v k
  have hr : (free.sink v).room = none := by
    simp only [free, withRoom, sink_withSink]
  have hx : (free.sink v).written.size ≤ total := by
    simp only [free, withRoom, sink_withSink, total]
    exact Nat.le_add_right _ _
  have hexceeded (h : total < ((free.run setup events).sink v).written.size) :
      ∃ before after, events = before ++ .step :: after ∧
        Exceeded setup free limited v total before after := by
    obtain ⟨before, after, heq, hfits, hexceeds⟩ := exists_exceeding hx h
    rw [hlimited]
    exact ⟨before, after, heq, exceeded hr hfits hexceeds⟩
  refine ⟨fun w => ?_, fun h => ?_, hexceeded⟩
  · by_cases h : total < ((free.run setup events).sink v).written.size
    · obtain ⟨before, after, rfl, hex⟩ := hexceeded h
      exact hex.grows w
    · obtain ⟨hrun, -⟩ := capped_run_of_fits hr (Nat.le_of_not_lt h)
      refine ⟨.empty, ?_⟩
      rw [hlimited, hrun, ByteArray.append_empty]
      cases v <;> cases w <;> rfl
  · obtain ⟨hrun, hjournal⟩ := capped_run_of_fits hr h
    rw [hlimited, hrun, hjournal]
    refine ⟨rfl, ?_, rfl⟩
    cases v <;> rfl

-- One byte of the first prompt is written.
example :
    let s := ((create {} {} {} {}).withRoom .output (some 1)).run Script.terminalSetup
      [.step, .step, .step, .step]
    s.output.written = ">".toUTF8 ∧
      s.result? = some (.error (.transport Sink.writeFailure)) :=
  ⟨rfl, rfl⟩

end Session
end PromptLoop
