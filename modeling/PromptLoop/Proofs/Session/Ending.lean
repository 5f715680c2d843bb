import Mathlib.Data.List.Induction
import PromptLoop.Proofs.Session.Deeds
import PromptLoop.Proofs.Session.WriteLimit

set_option autoImplicit false

/-!
# The end of a session

All exits of the loop lead to `closing`. From there a session closes its output, then its error
sink, whatever fails and whatever comes from outside, and then it is over, with the first of the
errors as its result or else with the end that the loop came to. `Turn` says what one event can be
in this respect, and `Course` how far the closing has come.
-/
namespace PromptLoop

variable {U : Type}

namespace Phase

def prompts : Phase → Bool
  | .prompting _ => true
  | _ => false

theorem Behind.prompts {E : SessionError → Prop} {p : Phase} (h : p.Behind E) :
    p.prompts = false := by
  cases p with
  | prompting line => exact False.elim h
  | _ => rfl

end Phase

namespace SessionState

inductive Precedes : SessionState → SessionState → Prop
  | started : Precedes .pending .running
  | finished {s t : SessionState} (hs : s.isEnded = false) (ht : t.isEnded = true) : Precedes s t

theorem precedes_start (s : SessionState) : s.start = s ∨ s.Precedes s.start := by
  cases s with
  | pending => exact .inr .started
  | _ => exact .inl rfl

end SessionState

theorem Setup.landing_prompts (setup : Setup U) (source : String) (context : Bindings Value) :
    (setup.landing source context).phase.prompts = false := by
  rcases setup.landing_cases source context with ⟨-, h⟩ | ⟨-, -, hb | hp⟩
  · rw [h]
    rfl
  · exact hb.prompts
  · cases hphase : (setup.landing source context).phase with
    | prompting line => simp [hphase, Phase.isPending] at hp
    | _ => rfl

def firstError (loop : SessionResult) (outputFailure errorsFailure : Option String) :
    Option SessionError :=
  (match loop with
    | .error e => some e
    | .ok _ => none) <|> outputFailure.map .transport <|> errorsFailure.map .transport

def resultOf (loop : SessionResult) (outputFailure errorsFailure : Option String) :
    SessionResult :=
  match firstError loop outputFailure errorsFailure with
  | some e => .error e
  | none => loop

def Destination.closing : Destination → Closing
  | .stream => .shutDown
  | .standardOutput => .flushed
  | .standardError => .flushed

theorem Destination.closing_attach (d : Destination) (x : Sink) :
    (d.attach x).closing = d.closing := by
  cases d <;> rfl

theorem Sink.closed_of_closings {x y : Sink} {d : Destination}
    (h : y.closings = x.closings ++ [d.closing]) : y.closed = (x.closed || !d.isDefault) := by
  unfold Sink.closed
  rw [h, List.contains_append]
  cases d <;> rfl

namespace Phase

/-- How often a sink has been closed on the way to a phase. -/
def closed : Phase → Outlet → Nat
  | .closingErrors _ _, .output => 1
  | .ended _, _ => 1
  | _, _ => 0

theorem closed_of_lag {p : Phase} (h : p.lag = 2) (v : Outlet) : p.closed v = 0 := by
  cases p with
  | closingErrors loop failure => simp [lag] at h
  | ended r => simp [lag] at h
  | _ => rfl

/-- Where a session stands so many steps after its loop was left. -/
def ending (loop : SessionResult) (outputFailure errorsFailure : Option String) : Nat → Phase
  | 0 => .closing loop
  | 1 => .closingErrors loop outputFailure
  | _ => .ended (resultOf loop outputFailure errorsFailure)

end Phase

namespace Session

theorem finalResult_eq (loop : SessionResult) (outputFailure errorsFailure : Option String) :
    finalResult loop outputFailure errorsFailure =
      resultOf loop outputFailure errorsFailure := by
  cases loop <;> cases outputFailure <;> cases errorsFailure <;> rfl

/-- `t` is `s` further on, with its sinks open; the state moves where a prompt comes up. -/
structure Leads (s t : Session) : Prop where
  lag : t.phase.lag = 2
  state : t.state = if t.phase.prompts = true then s.state.start else s.state

section Leads
variable (setup : Setup U) (s : Session)

theorem land_leads {p : Phase} (hlag : p.lag = 2) (hprompts : p.prompts = false) {t : Session}
    (hp : t.phase = p) (hstate : t.state = s.state) : s.Leads t :=
  ⟨by rw [hp, hlag], by simp [hp, hprompts, hstate]⟩

theorem phase_leads (p : Phase) (hlag : p.lag = 2) (hprompts : p.prompts = false) :
    s.Leads { s with phase := p } :=
  land_leads s hlag hprompts rfl rfl

theorem close_leads (r : SessionResult) : s.Leads (s.close r) :=
  phase_leads s (.closing r) rfl rfl

theorem yield_leads : s.Leads s.yield :=
  phase_leads s .yielding rfl rfl

theorem enterPrompt_leads (line : Option String) : s.Leads (s.enterPrompt line) :=
  ⟨rfl, rfl⟩

theorem behind_leads {E : SessionError → Prop} {p : Phase} (h : p.Behind E) {t : Session}
    (hp : t.phase = p) (hstate : t.state = s.state) : s.Leads t :=
  land_leads s h.lag h.prompts hp hstate

theorem fail_leads (e : SessionError) : s.Leads (s.fail e) := by
  rw [fail_eq]
  exact behind_leads s (Phase.behindError_behind (E := fun _ => True) trivial) rfl rfl

theorem transformed_leads (outcome : Except SessionError (Option Value)) :
    s.Leads (s.transformed outcome) := by
  rw [transformed_eq]
  exact behind_leads s (Phase.behindTransform_any outcome) rfl rfl

theorem settled_leads (declaration : Option Declaration)
    (outcome : Except SessionError (Option Value)) :
    s.Leads (s.settled setup declaration outcome) := by
  rw [settled_eq]
  exact behind_leads s (Phase.behindUnit_any setup.transform declaration outcome) rfl rfl

theorem evaluate_leads (line : String) : s.Leads (s.evaluate setup line) := by
  rw [evaluate_eq]
  exact land_leads s (setup.landing_lag _ _) (setup.landing_prompts _ _) rfl rfl

theorem receive_leads (a : Answer) : s.Leads (s.receive setup a) := by
  cases a with
  | line l =>
    unfold Session.receive
    dsimp only
    split
    · exact phase_leads s .breaking rfl rfl
    · split
      · exact enterPrompt_leads s (some l)
      · exact evaluate_leads setup s l
  | failed message => exact close_leads s _
  | ended => exact yield_leads s

theorem read_leads : s.Leads (s.read setup) := by
  unfold Session.read
  split
  · rename_i buffer a _
    have h := receive_leads setup { s with buffer } a
    exact ⟨h.lag, h.state⟩
  · exact land_leads s (p := .awaiting none) rfl rfl rfl rfl
  · exact close_leads s _

theorem iterate_leads : s.Leads (s.iterate setup) := by
  unfold Session.iterate
  split
  · exact close_leads s _
  · split
    · exact read_leads setup s
    · exact enterPrompt_leads s none

theorem load_iterate_leads (bytes : List UInt8) : s.Leads ((s.load bytes).iterate setup) := by
  have h := iterate_leads setup (s.load bytes)
  exact ⟨h.lag, h.state⟩

theorem afterBreak_leads : s.Leads s.afterBreak := by
  unfold afterBreak
  split
  · exact close_leads s _
  · exact land_leads s (p := .yielding) rfl rfl rfl rfl

theorem write_leads {text : String} {next : Session → Session}
    (h : ∀ t : Session, t.Leads (next t)) : s.Leads (s.write text next) := by
  rcases write_cases text next s with ⟨-, heq⟩ | ⟨message, -, heq⟩
  · have hnext := h { s with output := (s.output.write text).1 }
    rw [heq]
    exact ⟨hnext.lag, hnext.state⟩
  · rw [heq]
    exact land_leads s (p := .closing (.error (.transport message))) rfl rfl rfl rfl

theorem writeError_leads (text : String) : s.Leads (s.writeError text yield) := by
  rcases writeError_cases text yield s with ⟨-, heq⟩ | ⟨message, -, heq⟩
  · rw [heq]
    exact land_leads s (p := .yielding) rfl rfl rfl rfl
  · rw [heq]
    exact land_leads s (p := .closing (.error (.transport message))) rfl rfl rfl rfl

end Leads

inductive Turn (s : Session) : Session → List Deed → Prop
  | stays {t : Session} (phase : t.phase = s.phase) (state : t.state = s.state) : Turn s t []
  | leads {t : Session} {deeds : List Deed} (leads : s.Leads t) (lag : s.phase.lag = 2)
      (writes : ∀ d ∈ deeds, d.isWrite = true)
      (asks : (∃ text failure, Deed.wrote .prompt text failure ∈ deeds) ↔
        s.phase.prompts = true) : Turn s t deeds
  | output {t : Session} {loop : SessionResult} (phase : s.phase = .closing loop)
      (next : t.phase = .closingErrors loop s.output.closeFailure?) (state : t.state = s.state) :
      Turn s t [.closed .output s.output.closeFailure?]
  | errors {t : Session} (loop : SessionResult) (outputFailure : Option String)
      (phase : s.phase = .closingErrors loop outputFailure)
      (next : t.phase = .ended (resultOf loop outputFailure s.errors.closeFailure?))
      (state : t.state = (s.state.finish
        (resultOf loop outputFailure s.errors.closeFailure?)).1) :
      Turn s t [.closed .errors s.errors.closeFailure?]

section Turns
variable (setup : Setup U) (s : Session)

theorem Leads.turn {s t : Session} (h : s.Leads t) (hlag : s.phase.lag = 2)
    (hprompts : s.phase.prompts = false) : s.Turn t [] :=
  .leads h hlag (by simp) (by simp [hprompts])

theorem Leads.wrote {s t : Session} (h : s.Leads t) (hlag : s.phase.lag = 2)
    (hprompts : s.phase.prompts = false) {occasion : Occasion} (ho : occasion ≠ .prompt)
    (text : String) (failure : Option String) : s.Turn t [.wrote occasion text failure] :=
  .leads h hlag (by simp [Deed.isWrite]) (by simp [hprompts, Ne.symm ho])

theorem step_turn : s.Turn (s.step setup) (s.stepDeeds setup) := by
  unfold Session.step stepDeeds
  cases hp : s.phase with
  | created =>
    cases setup.source with
    | text bytes =>
      exact (load_iterate_leads setup s bytes).turn (by rw [hp]; rfl) (by rw [hp]; rfl)
    | file content =>
      exact (phase_leads s .loading rfl rfl).turn (by rw [hp]; rfl) (by rw [hp]; rfl)
    | stream => exact (iterate_leads setup s).turn (by rw [hp]; rfl) (by rw [hp]; rfl)
  | loading =>
    cases setup.source with
    | file content =>
      cases content with
      | ok bytes =>
        exact (load_iterate_leads setup s bytes).turn (by rw [hp]; rfl) (by rw [hp]; rfl)
      | error e => exact (close_leads s _).turn (by rw [hp]; rfl) (by rw [hp]; rfl)
    | _ => exact .stays rfl rfl
  | prompting line =>
    refine .leads (write_leads s fun t => ?_) (by rw [hp]; rfl) (by simp [Deed.isWrite])
      (by simp [hp, Phase.prompts])
    cases line with
    | some l => exact phase_leads t (.echoing l) rfl rfl
    | none => exact read_leads setup t
  | echoing line =>
    exact (write_leads s fun t => evaluate_leads setup t line).wrote (by rw [hp]; rfl)
      (by rw [hp]; rfl) (by decide) _ _
  | awaiting answer =>
    cases answer with
    | none => exact .stays rfl rfl
    | some a => exact (receive_leads setup s a).turn (by rw [hp]; rfl) (by rw [hp]; rfl)
  | pending declaration d interrupted =>
    cases interrupted with
    | true => exact (fail_leads s .interrupted).turn (by rw [hp]; rfl) (by rw [hp]; rfl)
    | false => exact .stays rfl rfl
  | transforming d => exact .stays rfl rfl
  | printing v =>
    exact (write_leads s yield_leads).wrote (by rw [hp]; rfl) (by rw [hp]; rfl) (by decide) _ _
  | reporting e =>
    exact (writeError_leads s _).wrote (by rw [hp]; rfl) (by rw [hp]; rfl) (by decide) _ _
  | breaking =>
    exact (write_leads s afterBreak_leads).wrote (by rw [hp]; rfl) (by rw [hp]; rfl)
      (by decide) _ _
  | yielding => exact (iterate_leads setup s).turn (by rw [hp]; rfl) (by rw [hp]; rfl)
  | closing loop => exact .output hp rfl rfl
  | closingErrors loop outputFailure =>
    have hresult := finalResult_eq loop outputFailure s.errors.closeFailure?
    exact .errors loop outputFailure hp (congrArg Phase.ended hresult)
      (congrArg (fun r => (s.state.finish r).1) hresult)
  | ended r => exact .stays rfl rfl

theorem supply_turns (r : LineBuffer × Option Answer) : s.Turn (s.supply r) [] := by
  rcases supply_turn s r with ⟨a, -, hp, heq, -⟩ | ⟨heq, -⟩
  · rw [heq]
    have hleads : s.Leads { s with buffer := r.1, phase := .awaiting (some a) } :=
      land_leads s (p := .awaiting (some a)) rfl rfl rfl rfl
    exact hleads.turn (by rw [hp]; rfl) (by rw [hp]; rfl)
  · rw [heq]
    exact .stays rfl rfl

theorem resolve_turns : s.Turn (s.resolve setup) [] := by
  unfold Session.resolve
  cases hp : s.phase with
  | pending declaration d interrupted =>
    exact (settled_leads setup s declaration d.outcome).turn (by rw [hp]; rfl) (by rw [hp]; rfl)
  | transforming d =>
    exact (transformed_leads s d.outcome).turn (by rw [hp]; rfl) (by rw [hp]; rfl)
  | _ => exact .stays rfl rfl

theorem interrupt_turns : s.Turn s.interrupt [] := by
  unfold Session.interrupt
  rcases supply_turn s s.buffer.interrupt with ⟨a, -, hp, heq, -⟩ | ⟨heq, -⟩
  · have hturn := supply_turns s s.buffer.interrupt
    rw [heq] at hturn ⊢
    exact hturn
  · rw [heq]
    cases hp : s.phase with
    | pending declaration d interrupted =>
      have hleads : s.Leads { s with
          buffer := s.buffer.interrupt.1, phase := .pending declaration d true } :=
        land_leads s (p := .pending declaration d true) rfl rfl rfl rfl
      exact hleads.turn (by rw [hp]; rfl) (by rw [hp]; rfl)
    | _ => exact .stays hp.symm rfl

theorem handle_turn (e : SessionEvent) : s.Turn (s.handle setup e) (s.deeds setup e) := by
  cases e with
  | step => exact step_turn setup s
  | resolve => exact resolve_turns setup s
  | feed chunk => exact supply_turns s _
  | finish => exact supply_turns s _
  | fail message => exact supply_turns s _
  | interrupt => exact interrupt_turns s
  | embed change => exact .stays rfl rfl

end Turns

/-- How far the closing of the sinks has come, and its deeds; `reached` is the result of the loop,
and the sinks fail to close with these messages, if they do. -/
inductive Course (reached : SessionResult → Prop) (outputFailure errorsFailure : Option String) :
    Phase → List Deed → Prop
  | before {p : Phase} (open_sinks : p.lag = 2) : Course reached outputFailure errorsFailure p []
  | between {loop : SessionResult} (h : reached loop) :
      Course reached outputFailure errorsFailure (.closingErrors loop outputFailure)
        [.closed .output outputFailure]
  | behind {loop : SessionResult} (h : reached loop) :
      Course reached outputFailure errorsFailure
        (.ended (resultOf loop outputFailure errorsFailure))
        [.closed .output outputFailure, .closed .errors errorsFailure]

section Course
variable {reached reached' : SessionResult → Prop} {outputFailure errorsFailure : Option String}
  {p : Phase} {closes : List Deed}

theorem Course.mono (h : Course reached outputFailure errorsFailure p closes)
    (hr : ∀ loop, reached loop → reached' loop) :
    Course reached' outputFailure errorsFailure p closes := by
  cases h with
  | before open_sinks => exact .before open_sinks
  | between h => exact .between (hr _ h)
  | behind h => exact .behind (hr _ h)

theorem Course.closes_of_open (h : Course reached outputFailure errorsFailure p closes)
    (hp : p.lag = 2) : closes = [] := by
  cases h with
  | before open_sinks => rfl
  | between h => simp [Phase.lag] at hp
  | behind h => simp [Phase.lag] at hp

theorem Course.closes_of_between {loop : SessionResult} {failure : Option String}
    (h : Course reached outputFailure errorsFailure (.closingErrors loop failure) closes) :
    reached loop ∧ failure = outputFailure ∧ closes = [.closed .output outputFailure] := by
  cases h with
  | before open_sinks => simp [Phase.lag] at open_sinks
  | between h => exact ⟨h, rfl, rfl⟩

theorem Course.countP_closes (h : Course reached outputFailure errorsFailure p closes)
    (v : Outlet) : closes.countP (Deed.closes v) = p.closed v := by
  cases h with
  | before open_sinks => exact (Phase.closed_of_lag open_sinks v).symm
  | between h => cases v <;> rfl
  | behind h => cases v <;> rfl

end Course

section Runs
variable (setup : Setup U) (s : Session)

/-- The loop came to this result behind some of the events, with these deeds. -/
def Reached (events : List SessionEvent) (writes : List Deed) (loop : SessionResult) : Prop :=
  ∃ front, front <+: events ∧ (s.run setup front).phase = .closing loop ∧
    s.log setup front = writes

theorem Reached.concat {setup : Setup U} {s : Session} {events : List SessionEvent}
    {writes : List Deed} {loop : SessionResult} (h : s.Reached setup events writes loop)
    (e : SessionEvent) : s.Reached setup (events ++ [e]) writes loop := by
  obtain ⟨front, hfront, hrest⟩ := h
  exact ⟨front, hfront.trans (List.prefix_append events [e]), hrest⟩

/-- The deeds of a run are writes, and then the closings. -/
theorem run_course (hs : s.phase.lag = 2) (events : List SessionEvent) :
    ∃ writes closes, s.log setup events = writes ++ closes ∧
      (∀ d ∈ writes, d.isWrite = true) ∧
      Course (s.Reached setup events writes) s.output.closeFailure? s.errors.closeFailure?
        (s.run setup events).phase closes := by
  induction events using List.reverseRec with
  | nil => exact ⟨[], [], rfl, by simp, .before hs⟩
  | append_singleton rest e ih =>
    obtain ⟨writes, closes, hlog, hwrites, hcourse⟩ := ih
    have hlater := hcourse.mono fun loop h => h.concat e
    have hturn := handle_turn setup (s.run setup rest) e
    have houtput : (s.run setup rest).output.closeFailure? = s.output.closeFailure? :=
      run_closeFailure? s rest .output
    have herrors : (s.run setup rest).errors.closeFailure? = s.errors.closeFailure? :=
      run_closeFailure? s rest .errors
    have hlog' : s.log setup (rest ++ [e]) =
        s.log setup rest ++ (s.run setup rest).deeds setup e := gather_concat rest e
    rw [hlog', hlog, run_concat]
    generalize (s.run setup rest).handle setup e = t at hturn
    generalize (s.run setup rest).deeds setup e = deeds at hturn
    cases hturn with
    | stays phase state =>
      rw [phase]
      exact ⟨writes, closes, by simp, hwrites, hlater⟩
    | leads leads lag new asks =>
      obtain rfl := hcourse.closes_of_open lag
      refine ⟨writes ++ deeds, [], by simp, ?_, .before leads.lag⟩
      exact List.forall_mem_append.2 ⟨hwrites, new⟩
    | output phase next state =>
      obtain rfl := hcourse.closes_of_open (by rw [phase]; rfl)
      refine ⟨writes, [.closed .output s.output.closeFailure?], by simp [houtput], hwrites, ?_⟩
      rw [next, houtput]
      exact .between ⟨rest, List.prefix_append rest [e], phase, by simpa using hlog⟩
    | errors loop outputFailure phase next state =>
      rw [phase] at hlater
      obtain ⟨hreached, rfl, rfl⟩ := hlater.closes_of_between
      refine ⟨writes, [.closed .output s.output.closeFailure?,
        .closed .errors s.errors.closeFailure?], by simp [herrors], hwrites, ?_⟩
      rw [next, herrors]
      exact .behind hreached

end Runs

def Prompted (s : Session) (log : List Deed) : Prop :=
  s.phase.prompts = true ∨ ∃ text failure, Deed.wrote .prompt text failure ∈ log

/-- What a subscriber sees of a session with these deeds. -/
structure Seen (s : Session) (log : List Deed) : Prop where
  running : s.result? = none → s.Prompted log → s.state = .running
  pending : s.result? = none → ¬ s.Prompted log → s.state = .pending
  ended : ∀ e, s.result? = some (.ok e) → s.state = .ended e
  failed : ∀ e, s.result? = some (.error e) → s.state = .failed e.message

section States
variable {s t : Session} {log deeds : List Deed}

theorem result_of_open (h : s.phase.lag = 2) : s.result? = none := by
  cases hp : s.phase with
  | ended r => simp [hp, Phase.lag] at h
  | _ => simp [Session.result?, hp]

theorem Turn.prompted (h : s.Turn t deeds) (log : List Deed) :
    t.Prompted (log ++ deeds) ↔ s.Prompted log ∨ t.phase.prompts = true := by
  unfold Prompted
  cases h with
  | stays phase state => simp [phase, or_comm]
  | leads leads lag writes asks =>
    simp only [List.mem_append, exists_or, asks]
    rw [← or_assoc, or_comm, or_comm (a := t.phase.prompts = true), or_assoc]
  | output phase next state => simp [phase, next, Phase.prompts]
  | errors loop outputFailure phase next state => simp [phase, next, Phase.prompts]

theorem Seen.running_or_pending (h : s.Seen log) (hr : s.result? = none) :
    s.state = .running ∨ s.state = .pending := by
  by_cases hp : s.Prompted log
  · exact .inl (h.running hr hp)
  · exact .inr (h.pending hr hp)

theorem Seen.of_open {s : Session} {log : List Deed} (hr : s.result? = none)
    (hrunning : s.Prompted log → s.state = .running)
    (hpending : ¬ s.Prompted log → s.state = .pending) : s.Seen log :=
  ⟨fun _ => hrunning, fun _ => hpending, by simp [hr], by simp [hr]⟩

theorem Seen.turn (h : s.Seen log) (hturn : s.Turn t deeds) : t.Seen (log ++ deeds) := by
  have hprompted := hturn.prompted log
  cases hturn with
  | stays phase state =>
    have hresult : t.result? = s.result? := by simp only [Session.result?, phase]
    have hsame : t.Prompted (log ++ []) ↔ s.Prompted log := by simp [Prompted, phase]
    refine ⟨?_, ?_, ?_, ?_⟩ <;> rw [hresult, state]
    · exact fun hr hp => h.running hr (hsame.1 hp)
    · exact fun hr hp => h.pending hr (mt hsame.2 hp)
    · exact h.ended
    · exact h.failed
  | leads leads lag writes asks =>
    have hopen := result_of_open lag
    refine .of_open (result_of_open leads.lag) (fun hp => ?_) fun hp => ?_
    · rw [leads.state]
      cases hprompts : t.phase.prompts with
      | true =>
        rw [if_pos rfl]
        rcases h.running_or_pending hopen with hs | hs <;> rw [hs] <;> rfl
      | false =>
        rw [if_neg (by simp)]
        exact h.running hopen ((hprompted.1 hp).resolve_right (by simp [hprompts]))
    · rw [hprompted, not_or] at hp
      rw [leads.state, if_neg hp.2]
      exact h.pending hopen hp.1
  | output phase next state =>
    have hopen : s.result? = none := result_of_open (by rw [phase]; rfl)
    have hprompts : t.phase.prompts ≠ true := by simp [next, Phase.prompts]
    refine .of_open (by simp [Session.result?, next]) (fun hp => ?_) fun hp => ?_
    · rw [state]
      exact h.running hopen ((hprompted.1 hp).resolve_right hprompts)
    · rw [hprompted, not_or] at hp
      rw [state]
      exact h.pending hopen hp.1
  | errors loop outputFailure phase next state =>
    have hopen : s.result? = none := by simp [Session.result?, phase]
    have hresult : t.result? = some (resultOf loop outputFailure s.errors.closeFailure?) := by
      simp only [Session.result?, next]
    have hstate : t.state = .ofResult (resultOf loop outputFailure s.errors.closeFailure?) := by
      rw [state]
      rcases h.running_or_pending hopen with hs | hs <;> rw [hs] <;> rfl
    refine ⟨by simp [hresult], by simp [hresult], fun e he => ?_, fun e he => ?_⟩
    · rw [hstate, Option.some.inj (hresult.symm.trans he)]
      rfl
    · rw [hstate, Option.some.inj (hresult.symm.trans he)]
      rfl

theorem Seen.moves (h : s.Seen log) (hturn : s.Turn t deeds) :
    t.state = s.state ∨ s.state.Precedes t.state := by
  cases hturn with
  | stays phase state => exact .inl state
  | leads leads lag writes asks =>
    rw [leads.state]
    split
    · exact SessionState.precedes_start s.state
    · exact .inl rfl
  | output phase next state => exact .inl state
  | errors loop outputFailure phase next state =>
    have hopen : s.result? = none := by simp [Session.result?, phase]
    refine .inr (.finished ?_ ?_)
    · rcases h.running_or_pending hopen with hs | hs <;> rw [hs] <;> rfl
    · rw [state]
      exact SessionState.isEnded_finish _ _

end States

theorem run_seen {setup : Setup U} {s : Session} (hs : s.Seen []) (events : List SessionEvent) :
    (s.run setup events).Seen (s.log setup events) := by
  induction events using List.reverseRec with
  | nil => exact hs
  | append_singleton rest e ih =>
    have hlog : s.log setup (rest ++ [e]) =
        s.log setup rest ++ (s.run setup rest).deeds setup e := gather_concat rest e
    rw [run_concat, hlog]
    exact ih.turn (handle_turn setup _ e)

section Closing
variable {setup : Setup U} {s : Session} {loop : SessionResult}

theorem ending_step {k : Nat}
    (h : s.phase = .ending loop s.output.closeFailure? s.errors.closeFailure? k) :
    (s.step setup).phase = .ending loop s.output.closeFailure? s.errors.closeFailure? (k + 1) ∧
      ∀ v, ((s.step setup).sink v).written = (s.sink v).written := by
  unfold Session.step
  rw [h]
  match k with
  | 0 => exact ⟨rfl, fun v => by cases v <;> rfl⟩
  | 1 =>
    exact ⟨congrArg Phase.ended (finalResult_eq loop s.output.closeFailure? s.errors.closeFailure?),
      fun v => by cases v <;> rfl⟩
  | k + 2 => exact ⟨h, fun v => rfl⟩

theorem ending_outside {e : SessionEvent} (he : e ≠ .step) {k : Nat}
    {outputFailure errorsFailure : Option String}
    (h : s.phase = .ending loop outputFailure errorsFailure k) :
    (s.handle setup e).phase = s.phase ∧
      ∀ v, ((s.handle setup e).sink v).written = (s.sink v).written := by
  have hidle : s.phase.waits = false ∧ s.phase.awaits = false := by
    rw [h]
    match k with
    | 0 => exact ⟨rfl, rfl⟩
    | 1 => exact ⟨rfl, rfl⟩
    | k + 2 => exact ⟨rfl, rfl⟩
  have hkept := (handle_idle setup he hidle.2 fun _ => hidle.1).1
  refine ⟨?_, fun v => congrArg Sink.written ((handle_blind setup he).sink s v)⟩
  rw [hkept, SessionEvent.mark_of_waits e hidle.1]

/-- Two steps close both sinks, and neither is written to any more. -/
theorem closing_run (setup : Setup U) (h : s.phase = .closing loop) (events : List SessionEvent) :
    (s.run setup events).phase = .ending loop s.output.closeFailure? s.errors.closeFailure?
        (events.countP SessionEvent.isStep) ∧
      ∀ v, ((s.run setup events).sink v).written = (s.sink v).written := by
  induction events using List.reverseRec with
  | nil => exact ⟨h, fun _ => rfl⟩
  | append_singleton rest e ih =>
    obtain ⟨hphase, hwritten⟩ := ih
    have houtput : (s.run setup rest).output.closeFailure? = s.output.closeFailure? :=
      run_closeFailure? s rest .output
    have herrors : (s.run setup rest).errors.closeFailure? = s.errors.closeFailure? :=
      run_closeFailure? s rest .errors
    rw [run_concat, List.countP_append]
    by_cases he : e = .step
    · subst he
      rw [← houtput, ← herrors] at hphase ⊢
      obtain ⟨hnext, hsame⟩ := ending_step hphase
      exact ⟨hnext, fun v => (hsame v).trans (hwritten v)⟩
    · obtain ⟨hkept, hsame⟩ := ending_outside he hphase
      have hcount : [e].countP SessionEvent.isStep = 0 := by
        cases e with
        | step => exact absurd rfl he
        | _ => rfl
      rw [hcount, Nat.add_zero]
      exact ⟨hkept.trans hphase, fun v => (hsame v).trans (hwritten v)⟩

end Closing

theorem Course.closings {setup : Setup U} {s : Session} {events : List SessionEvent}
    {writes closes : List Deed} {reached : SessionResult → Prop}
    {outputFailure errorsFailure : Option String} (hlog : s.log setup events = writes ++ closes)
    (hwrites : ∀ d ∈ writes, d.isWrite = true)
    (h : Course reached outputFailure errorsFailure (s.run setup events).phase closes)
    (v : Outlet) :
    ((s.run setup events).sink v).closings = (s.sink v).closings ++
      List.replicate ((s.run setup events).phase.closed v) (s.sink v).closing := by
  rw [run_closings, hlog, List.countP_append, Deed.countP_closes_of_writes hwrites,
    h.countP_closes, Nat.zero_add]

/-- Whatever fails and whatever comes from outside, a session that the loop has left closes its
output and then its error sink, once each and behind all its writes, and is over with the first of
the errors or with the end of the loop. Only a stream of the caller is shut down. A subscriber sees
the session pending until its first prompt, then running, and at last, when both sinks are closed,
the state of its result. -/
theorem session_completes_once (setup : Setup U) (o : Options) (host : Host)
    (output errors : Sink) (events : List SessionEvent) :
    let s := create o host output errors
    let t := s.run setup events
    (∃ writes closes, s.log setup events = writes ++ closes ∧
      (∀ d ∈ writes, d.isWrite = true) ∧
      Course (s.Reached setup events writes) output.closeFailure? errors.closeFailure?
        t.phase closes) ∧
    t.output.closings =
      output.closings ++ List.replicate (t.phase.closed .output) o.output.closing ∧
    t.errors.closings =
      errors.closings ++ List.replicate (t.phase.closed .errors) o.errors.closing ∧
    (∀ result, t.result? = some result →
      t.output.closed = (output.closed || !o.output.isDefault) ∧
      t.errors.closed = (errors.closed || !o.errors.isDefault)) ∧
    (∀ loop, t.phase = .closing loop → ∀ rest : List SessionEvent,
      (t.run setup rest).phase = .ending loop output.closeFailure? errors.closeFailure?
        (rest.countP SessionEvent.isStep) ∧
      ∀ v, ((t.run setup rest).sink v).written = (t.sink v).written) ∧
    t.Seen (s.log setup events) ∧
    ∀ e, (t.handle setup e).state = t.state ∨ t.state.Precedes (t.handle setup e).state := by
  intro s t
  obtain ⟨writes, closes, hlog, hwrites, hcourse⟩ := run_course setup s rfl events
  have houtput : t.output.closings =
      output.closings ++ List.replicate (t.phase.closed .output) o.output.closing := by
    rw [← o.output.closing_attach output]
    exact hcourse.closings hlog hwrites .output
  have herrors : t.errors.closings =
      errors.closings ++ List.replicate (t.phase.closed .errors) o.errors.closing := by
    rw [← o.errors.closing_attach errors]
    exact hcourse.closings hlog hwrites .errors
  have hseen : t.Seen (s.log setup events) := by
    refine run_seen (.of_open rfl (fun hp => ?_) fun _ => rfl) events
    simp [Prompted, s, create, Phase.prompts] at hp
  refine ⟨⟨writes, closes, hlog, hwrites, hcourse⟩, houtput, herrors, fun result hr => ?_,
    fun loop h rest => ?_, hseen, fun e => hseen.moves (handle_turn setup t e)⟩
  · rw [ended_of_result hr] at houtput herrors
    exact ⟨Sink.closed_of_closings houtput, Sink.closed_of_closings herrors⟩
  · have hrun := closing_run setup h rest
    have hkept : t.output.closeFailure? = output.closeFailure? :=
      run_closeFailure? s events .output
    have hkept' : t.errors.closeFailure? = errors.closeFailure? :=
      run_closeFailure? s events .errors
    rwa [hkept, hkept'] at hrun

/-- Both sinks fail to close behind the end of the input; only the output is the caller's. -/
theorem failing_closings_complete :
    let s := create { output := .stream } {} { failsToClose := true, closeFailure := "full" }
      { failsToClose := true, closeFailure := "gone" }
    let t := s.run Script.terminalSetup [.step, .step, .finish, .step, .step, .step, .step]
    t.result? = some (.error (.transport "full")) ∧
      t.state = .failed (SessionError.transport "full").message ∧
      t.output.closings = [.shutDown] ∧ t.errors.closings = [.flushed] ∧
      t.output.closed = true ∧ t.errors.closed = false := by
  intro s t
  have hresult : t.result? = some (.error (.transport "full")) := by rfl
  obtain ⟨-, houtput, herrors, hclosed, -, hseen, -⟩ :=
    session_completes_once Script.terminalSetup { output := .stream } {}
      { failsToClose := true, closeFailure := "full" }
      { failsToClose := true, closeFailure := "gone" }
      [.step, .step, .finish, .step, .step, .step, .step]
  rw [ended_of_result hresult] at houtput herrors
  exact ⟨hresult, hseen.failed _ hresult, houtput, herrors, hclosed _ hresult⟩

end Session
end PromptLoop
