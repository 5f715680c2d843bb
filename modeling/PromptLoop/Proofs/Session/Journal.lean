import PromptLoop.Proofs.Session.EchoFold
import PromptLoop.Proofs.Session.Landing

set_option autoImplicit false

/-!
# The journal of a run

The journal says what becomes of the lines of a session, in the order of time: when the reader hands
one out, which texts are compiled, what an interrupt marker drops, and which line is lost because
its prompt or its echo cannot be written. `entries` are those of a single event, named for the
driver's functions one by one. No use of the evaluator is left out: what an event without a
`compiled` entry does is the same for every evaluator (`handle_withEvaluator`), and so is what a run
without one does (`run_withEvaluator`). Nor does such an event bind a name of its own accord
(`handle_context`).
-/
namespace PromptLoop

inductive Entry where
  | delivered (line : String)
  | compiled (source : String)
  /-- A marker is handled, and this unfinished text is dropped. -/
  | dropped (text : String)
  /-- The prompt or the echo of this line could not be written. -/
  | lost (line : String)
deriving DecidableEq

def SessionEvent.rebind (e : SessionEvent) (context : Bindings Value) : Bindings Value :=
  match e with
  | .embed change => change context
  | _ => context

def SessionEvent.refill (e : SessionEvent) (b : LineBuffer) : LineBuffer :=
  match e with
  | .feed chunk => (b.feed chunk).1
  | .finish => b.finish.1
  | .fail message => (b.fail message).1
  | .interrupt => b.interrupt.1
  | _ => b

def SessionEvent.mark (e : SessionEvent) (p : Phase) : Phase :=
  match e, p with
  | .interrupt, .pending declaration d _ => .pending declaration d true
  | _, p => p

theorem SessionEvent.mark_of_waits (e : SessionEvent) {p : Phase} (h : p.waits = false) :
    e.mark p = p := by
  cases e <;> cases p <;> first | rfl | cases h

def refill (events : List SessionEvent) (b : LineBuffer) : LineBuffer :=
  events.foldl (fun b e => e.refill b) b

def rebind (events : List SessionEvent) (context : Bindings Value) : Bindings Value :=
  events.foldl (fun context e => e.rebind context) context

variable {U V : Type}

def Answer.entries : Answer → List Entry
  | .line l => if l = interruptMarker then [] else [.delivered l]
  | _ => []

namespace Session
variable (setup : Setup U)

def receiveEntries (a : Answer) (s : Session) : List Entry :=
  match a with
  | .line l =>
    if l = interruptMarker then [] else if setup.echo then [] else [.compiled (s.accumulated ++ l)]
  | _ => []

def readEntries (s : Session) : List Entry :=
  match s.buffer.read with
  | .ok (_, some a) => a.entries ++ s.receiveEntries setup a
  | _ => []

def iterateEntries (s : Session) : List Entry :=
  if s.buffer.isDone then [] else if setup.echo then s.readEntries setup else []

def stepEntries (s : Session) : List Entry :=
  match s.phase with
  | .created =>
    match setup.source with
    | .text bytes => (s.load bytes).iterateEntries setup
    | .stream => s.iterateEntries setup
    | .file _ => []
  | .loading =>
    match setup.source with
    | .file (.ok bytes) => (s.load bytes).iterateEntries setup
    | _ => []
  | .prompting line =>
    match (s.output.write (s.promptText setup)).2, line with
    | none, none => s.readEntries setup
    | some _, some l => [.lost l]
    | _, _ => []
  | .echoing line =>
    match (s.output.write line).2 with
    | none => [.compiled (s.accumulated ++ line)]
    | some _ => [.lost line]
  | .awaiting (some a) => s.receiveEntries setup a
  | .breaking =>
    match (s.output.write "\n").2 with
    | none => [.dropped s.accumulated]
    | some _ => []
  | .yielding => s.iterateEntries setup
  | _ => []

def supplyEntries (r : LineBuffer × Option Answer) (s : Session) : List Entry :=
  match r.2, s.phase with
  | some a, .awaiting none => a.entries
  | _, _ => []

def entries (s : Session) : SessionEvent → List Entry
  | .step => s.stepEntries setup
  | .feed chunk => s.supplyEntries (s.buffer.feed chunk)
  | .finish => s.supplyEntries s.buffer.finish
  | .fail message => s.supplyEntries (s.buffer.fail message)
  | .interrupt => s.supplyEntries s.buffer.interrupt
  | _ => []

def journal (s : Session) : List SessionEvent → List Entry
  | [] => []
  | e :: rest => s.entries setup e ++ journal (s.handle setup e) rest

/-- A change of the buffer answers the read that the driver waits for, or it changes nothing else. -/
theorem supply_turn (s : Session) (r : LineBuffer × Option Answer) :
    (∃ a, r.2 = some a ∧ s.phase = .awaiting none ∧
      s.supply r = { s with buffer := r.1, phase := .awaiting (some a) } ∧
      s.supplyEntries r = a.entries) ∨
    (s.supply r = { s with buffer := r.1 } ∧ s.supplyEntries r = []) := by
  unfold Session.supply supplyEntries
  cases r.2 with
  | none => exact .inr ⟨rfl, rfl⟩
  | some a =>
    cases hp : s.phase with
    | awaiting answer =>
      cases answer with
      | none => exact .inl ⟨a, rfl, rfl, rfl, rfl⟩
      | some a' => exact .inr ⟨rfl, rfl⟩
    | _ => exact .inr ⟨rfl, rfl⟩

theorem supply_idle {s : Session} (hp : s.phase.awaits = false) (r : LineBuffer × Option Answer) :
    s.supply r = { s with buffer := r.1 } ∧ s.supplyEntries r = [] := by
  rcases supply_turn s r with ⟨a, -, ha, -⟩ | hkept
  · simp [ha, Phase.awaits] at hp
  · exact hkept

/-- Between two steps, and without a result, a session that waits for no line takes in what comes
from outside and stays where it is. -/
theorem handle_idle {s : Session} {e : SessionEvent} (he : e ≠ .step)
    (ha : s.phase.awaits = false) (hr : e = .resolve → s.phase.waits = false) :
    s.handle setup e = { s with
        buffer := e.refill s.buffer
        context := e.rebind s.context
        phase := e.mark s.phase } ∧
      s.entries setup e = [] := by
  cases e with
  | step => exact absurd rfl he
  | resolve => exact ⟨resolve_of_waits (hr rfl), rfl⟩
  | feed chunk => exact supply_idle ha _
  | finish => exact supply_idle ha _
  | fail message => exact supply_idle ha _
  | embed change => exact ⟨rfl, rfl⟩
  | interrupt =>
    obtain ⟨heq, hentries⟩ := supply_idle ha s.buffer.interrupt
    refine ⟨?_, hentries⟩
    change s.interrupt = _
    unfold Session.interrupt
    rw [heq]
    cases s.phase <;> simp [SessionEvent.mark, SessionEvent.refill, SessionEvent.rebind]

theorem journal_append (s : Session) (front back : List SessionEvent) :
    s.journal setup (front ++ back) =
      s.journal setup front ++ (s.run setup front).journal setup back := by
  induction front generalizing s with
  | nil => rfl
  | cons e rest ih =>
    change s.entries setup e ++ journal setup (s.handle setup e) (rest ++ back) = _
    rw [ih, ← List.append_assoc]
    rfl

theorem journal_concat (s : Session) (events : List SessionEvent) (e : SessionEvent) :
    s.journal setup (events ++ [e]) =
      s.journal setup events ++ (s.run setup events).entries setup e := by
  rw [journal_append]
  simp [journal]

section Evaluators
variable {setup} {s : Session} (evaluator : Evaluator V)

theorem receive_withEvaluator {a : Answer}
    (h : ∀ source, .compiled source ∉ s.receiveEntries setup a) :
    s.receive (setup.withEvaluator evaluator) a = s.receive setup a := by
  cases a with
  | line l =>
    unfold Session.receive
    by_cases hm : l = interruptMarker
    · simp only [hm, if_true]
    · by_cases he : setup.echo = true
      · simp only [hm, if_false, Setup.withEvaluator_echo, he, if_true]
      · exact absurd (by simp [receiveEntries, hm, he]) (h (s.accumulated ++ l))
  | failed message => rfl
  | ended => rfl

theorem read_withEvaluator (h : ∀ source, .compiled source ∉ s.readEntries setup) :
    s.read (setup.withEvaluator evaluator) = s.read setup := by
  unfold Session.read
  cases hread : s.buffer.read with
  | error fault => rfl
  | ok r =>
    obtain ⟨buffer, a⟩ := r
    cases a with
    | none => rfl
    | some a =>
      simp only [readEntries, hread, List.mem_append, not_or] at h
      exact receive_withEvaluator (s := { s with buffer }) evaluator fun source => (h source).2

theorem iterate_withEvaluator (h : ∀ source, .compiled source ∉ s.iterateEntries setup) :
    s.iterate (setup.withEvaluator evaluator) = s.iterate setup := by
  unfold Session.iterate
  by_cases hd : s.buffer.isDone = true
  · rw [if_pos hd, if_pos hd]
  · rw [if_neg hd, if_neg hd, Setup.withEvaluator_echo]
    by_cases he : setup.echo = true
    · rw [if_pos he, if_pos he]
      exact read_withEvaluator evaluator (by simpa [iterateEntries, hd, he] using h)
    · rw [if_neg he, if_neg he]

theorem step_withEvaluator (h : ∀ source, .compiled source ∉ s.stepEntries setup) :
    s.step (setup.withEvaluator evaluator) = s.step setup := by
  unfold Session.step
  unfold stepEntries at h
  cases hp : s.phase with
  | created =>
    cases hsrc : setup.source with
    | text bytes =>
      simp only [hp, hsrc, Setup.withEvaluator_source] at h ⊢
      exact iterate_withEvaluator evaluator h
    | file content => simp only [hsrc, Setup.withEvaluator_source]
    | stream =>
      simp only [hp, hsrc, Setup.withEvaluator_source] at h ⊢
      exact iterate_withEvaluator evaluator h
  | loading =>
    cases hsrc : setup.source with
    | file content =>
      cases content with
      | ok bytes =>
        simp only [hp, hsrc, Setup.withEvaluator_source] at h ⊢
        exact iterate_withEvaluator evaluator h
      | error e => simp only [hsrc, Setup.withEvaluator_source]
    | _ => simp only [hsrc, Setup.withEvaluator_source]
  | prompting line =>
    cases line with
    | some l => rfl
    | none =>
      simp only [hp] at h ⊢
      change s.write (s.promptText setup) (Session.read (setup.withEvaluator evaluator)) =
        s.write (s.promptText setup) (Session.read setup)
      unfold Session.write
      cases hw : s.output.write (s.promptText setup) with
      | mk output failure =>
        cases failure with
        | some message => rfl
        | none =>
          simp only [hw] at h
          exact read_withEvaluator (s := { s with output }) evaluator h
  | echoing line =>
    simp only [hp] at h ⊢
    unfold Session.write
    cases hw : s.output.write line with
    | mk output failure =>
      cases failure with
      | some message => rfl
      | none => exact absurd (by simp [hw]) (h (s.accumulated ++ line))
  | awaiting answer =>
    cases answer with
    | none => rfl
    | some a =>
      simp only [hp] at h
      exact receive_withEvaluator evaluator h
  | yielding =>
    simp only [hp] at h
    exact iterate_withEvaluator evaluator h
  | pending declaration d interrupted => cases interrupted <;> rfl
  | _ => rfl

theorem handle_withEvaluator {e : SessionEvent}
    (h : ∀ source, .compiled source ∉ s.entries setup e) :
    s.handle (setup.withEvaluator evaluator) e = s.handle setup e := by
  cases e with
  | step => exact step_withEvaluator evaluator h
  | _ => rfl

theorem run_withEvaluator {events : List SessionEvent}
    (h : ∀ source, .compiled source ∉ s.journal setup events) :
    s.run (setup.withEvaluator evaluator) events = s.run setup events := by
  induction events generalizing s with
  | nil => rfl
  | cons e rest ih =>
    simp only [journal, List.mem_append, not_or] at h
    have hhead : s.handle (setup.withEvaluator evaluator) e = s.handle setup e :=
      handle_withEvaluator evaluator fun source => (h source).1
    change Session.run (setup.withEvaluator evaluator)
      (s.handle (setup.withEvaluator evaluator) e) rest = _
    rw [hhead]
    exact ih fun source => (h source).2

end Evaluators

section Quiet
variable {setup} {s : Session}

/-- The driver has moved without a unit: the bindings are the same, and nothing is evaluated or on
its way to the output. -/
structure Quiet (s t : Session) : Prop where
  context : t.context = s.context
  pending : t.phase.isPending = false
  shows : t.phase.shows = false

theorem receive_quiet {a : Answer} (h : ∀ source, .compiled source ∉ s.receiveEntries setup a) :
    s.Quiet (s.receive setup a) := by
  cases a with
  | line l =>
    unfold Session.receive
    by_cases hm : l = interruptMarker
    · simp only [hm, if_true]
      exact ⟨rfl, rfl, rfl⟩
    · by_cases he : setup.echo = true
      · simp only [hm, if_false, he, if_true]
        exact ⟨rfl, rfl, rfl⟩
      · exact absurd (by simp [receiveEntries, hm, he]) (h (s.accumulated ++ l))
  | failed message => exact ⟨rfl, rfl, rfl⟩
  | ended => exact ⟨rfl, rfl, rfl⟩

theorem read_quiet (h : ∀ source, .compiled source ∉ s.readEntries setup) :
    s.Quiet (s.read setup) := by
  unfold Session.read
  cases hread : s.buffer.read with
  | error fault => exact ⟨rfl, rfl, rfl⟩
  | ok r =>
    obtain ⟨buffer, a⟩ := r
    cases a with
    | none => exact ⟨rfl, rfl, rfl⟩
    | some a =>
      simp only [readEntries, hread, List.mem_append, not_or] at h
      have hnext := receive_quiet (s := { s with buffer }) fun source => (h source).2
      exact ⟨hnext.context, hnext.pending, hnext.shows⟩

theorem iterate_quiet (h : ∀ source, .compiled source ∉ s.iterateEntries setup) :
    s.Quiet (s.iterate setup) := by
  unfold Session.iterate
  by_cases hd : s.buffer.isDone = true
  · rw [if_pos hd]
    exact ⟨rfl, rfl, rfl⟩
  · rw [if_neg hd]
    by_cases he : setup.echo = true
    · rw [if_pos he]
      exact read_quiet (by simpa [iterateEntries, hd, he] using h)
    · rw [if_neg he]
      exact ⟨rfl, rfl, rfl⟩

theorem write_quiet {text : String} {next : Session → Session}
    (h : (s.output.write text).2 = none →
      Quiet { s with output := (s.output.write text).1 }
        (next { s with output := (s.output.write text).1 })) :
    s.Quiet (s.write text next) := by
  rcases write_cases text next s with ⟨hw, heq⟩ | ⟨message, -, heq⟩
  · rw [heq]
    exact ⟨(h hw).context, (h hw).pending, (h hw).shows⟩
  · rw [heq]
    exact ⟨rfl, rfl, rfl⟩

theorem step_quiet (h : ∀ source, .compiled source ∉ s.stepEntries setup) :
    s.Quiet (s.step setup) ∨ s.step setup = s := by
  unfold Session.step
  unfold stepEntries at h
  cases hp : s.phase with
  | created =>
    cases hsrc : setup.source with
    | text bytes =>
      simp only [hp, hsrc] at h
      have hnext := iterate_quiet (s := s.load bytes) h
      exact .inl ⟨hnext.context, hnext.pending, hnext.shows⟩
    | file content => exact .inl ⟨rfl, rfl, rfl⟩
    | stream =>
      simp only [hp, hsrc] at h
      exact .inl (iterate_quiet h)
  | loading =>
    cases hsrc : setup.source with
    | file content =>
      cases content with
      | ok bytes =>
        simp only [hp, hsrc] at h
        have hnext := iterate_quiet (s := s.load bytes) h
        exact .inl ⟨hnext.context, hnext.pending, hnext.shows⟩
      | error e => exact .inl ⟨rfl, rfl, rfl⟩
    | _ => exact .inr rfl
  | prompting line =>
    refine .inl (write_quiet fun hw => ?_)
    cases line with
    | some l => exact ⟨rfl, rfl, rfl⟩
    | none =>
      simp only [hp, hw] at h
      exact read_quiet h
  | echoing line =>
    refine .inl (write_quiet fun hw => ?_)
    exact absurd (by simp [hp, hw]) (h (s.accumulated ++ line))
  | awaiting answer =>
    cases answer with
    | none => exact .inr rfl
    | some a =>
      simp only [hp] at h
      exact .inl (receive_quiet h)
  | pending declaration d interrupted =>
    cases interrupted with
    | false => exact .inr rfl
    | true => exact .inl ⟨rfl, rfl, rfl⟩
  | transforming d => exact .inr rfl
  | printing v => exact .inl (write_quiet fun _ => ⟨rfl, rfl, rfl⟩)
  | reporting e =>
    refine .inl ?_
    rcases writeError_cases (errorText setup e) yield s with ⟨-, heq⟩ | ⟨message, -, heq⟩
    · simp only [heq]
      exact ⟨rfl, rfl, rfl⟩
    · simp only [heq]
      exact ⟨rfl, rfl, rfl⟩
  | breaking =>
    refine .inl (write_quiet fun _ => ?_)
    unfold afterBreak
    split <;> exact ⟨rfl, rfl, rfl⟩
  | yielding =>
    simp only [hp] at h
    exact .inl (iterate_quiet h)
  | closing r => exact .inl ⟨rfl, rfl, rfl⟩
  | closingErrors r failure => exact .inl ⟨rfl, rfl, rfl⟩
  | ended r => exact .inr rfl

theorem step_context (h : ∀ source, .compiled source ∉ s.stepEntries setup) :
    (s.step setup).context = s.context := by
  rcases step_quiet h with hquiet | heq
  · exact hquiet.context
  · rw [heq]

/-- Where nothing is compiled, only the surroundings and the outcome of a unit change a binding. -/
theorem handle_context {e : SessionEvent} (h : ∀ source, .compiled source ∉ s.entries setup e)
    (hr : e = .resolve → s.phase.isPending = false) :
    (s.handle setup e).context = e.rebind s.context := by
  have hsupply (r : LineBuffer × Option Answer) : (s.supply r).context = s.context := by
    unfold Session.supply
    split <;> rfl
  cases e with
  | step => exact step_context h
  | feed chunk => exact hsupply _
  | finish => exact hsupply _
  | fail message => exact hsupply _
  | interrupt =>
    change s.interrupt.context = s.context
    unfold Session.interrupt
    dsimp only
    split <;> exact hsupply _
  | embed change => rfl
  | resolve =>
    have hp := hr rfl
    change (s.resolve setup).context = s.context
    unfold Session.resolve
    split
    · rename_i declaration d interrupted heq
      simp [heq, Phase.isPending] at hp
    · rw [transformed_eq]
    · rfl

end Quiet
end Session
end PromptLoop
