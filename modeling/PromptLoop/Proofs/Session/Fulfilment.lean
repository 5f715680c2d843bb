import PromptLoop.Proofs.Session.EchoRun
import PromptLoop.Proofs.Session.Unattended

set_option autoImplicit false

namespace PromptLoop

variable {U : Type}

namespace Session

section Events
variable {setup : Setup U} {s : Session}

theorem Unattended.handle (hs : s.Unattended setup) {e : SessionEvent} (he : e.Driven) :
    (s.handle setup e = s ∧ s.deeds setup e = [] ∧ s.sources setup e = []) ∨
      s.Proceeds setup (s.handle setup e) (s.deeds setup e) (s.sources setup e) := by
  rcases he with rfl | rfl
  · cases hr : s.phase.rests with
    | false => exact .inr (step_proceeds hs hr)
    | true =>
      refine .inl ⟨step_of_rests hr, ?_⟩
      unfold deeds stepDeeds Session.sources entries stepEntries
      cases hp : s.phase with
      | awaiting answer =>
        cases answer with
        | none => exact ⟨rfl, rfl⟩
        | some a => simp [hp, Phase.rests] at hr
      | pending declaration d interrupted => exact ⟨rfl, rfl⟩
      | transforming d => exact ⟨rfl, rfl⟩
      | ended result => exact ⟨rfl, rfl⟩
      | _ => simp [hp, Phase.rests] at hr
  · cases hw : s.phase.waits with
    | false => exact .inl ⟨resolve_of_waits hw, rfl, rfl⟩
    | true => exact .inr (resolve_proceeds hs hw)

end Events

def compiled (setup : Setup U) (s : Session) (events : List SessionEvent) : List String :=
  (s.journal setup events).filterMap Entry.source?

section Runs
variable {setup : Setup U} {s : Session}

theorem Unattended.handle_measure (hs : s.Unattended setup) {e : SessionEvent} (he : e.Driven) :
    (s.handle setup e).Unattended setup ∧
      (s.handle setup e).measure setup ≤ s.measure setup := by
  rcases hs.handle he with ⟨heq, -, -⟩ | h
  · rw [heq]
    exact ⟨hs, Nat.le_refl _⟩
  · exact ⟨h.unattended, Nat.le_of_lt h.measure⟩

/-- What a session has ahead of it is what it does in a run, and what is ahead behind the run. -/
theorem Unattended.run_outlook (hs : s.Unattended setup) (events : List SessionEvent)
    (he : ∀ e ∈ events, e.Driven) :
    s.outlook setup = ((s.run setup events).outlook setup).after (s.log setup events)
      (s.compiled setup events) := by
  induction events generalizing s with
  | nil => rfl
  | cons e rest ih =>
    have hhead : e.Driven := he e (by simp)
    have hrest : ∀ e ∈ rest, e.Driven := fun e' h => he e' (by simp [h])
    have hsplit : s.compiled setup (e :: rest) =
        s.sources setup e ++ (s.handle setup e).compiled setup rest :=
      List.filterMap_append
    have hbehind := ih (hs.handle_measure hhead).1 hrest
    have hstep : s.outlook setup =
        ((s.handle setup e).outlook setup).after (s.deeds setup e) (s.sources setup e) := by
      rcases hs.handle hhead with ⟨heq, hdeeds, hsources⟩ | h
      · rw [heq, hdeeds, hsources]
        rfl
      · exact h.outlook
    rw [hstep, hbehind, hsplit, Outlook.after_after]
    rfl

theorem Unattended.ended (hs : s.Unattended setup) (hm : s.measure setup = 0) :
    s.result? ≠ none := by
  have hspan : s.phase.span = 0 := by
    unfold Session.measure at hm
    omega
  have hphase := hs.phase
  cases hp : s.phase <;> rw [hp] at hspan hphase
  case ended result => simp [Session.result?, hp]
  case prompting line => cases line <;> simp [Phase.span, Phase.ahead] at hspan
  case awaiting answer => exact False.elim hphase
  all_goals simp [Phase.span, Phase.ahead] at hspan

theorem Unattended.rests_of_waits (hs : s.Unattended setup) (hw : s.phase.waits = true) :
    s.phase.rests = true := by
  have hphase := hs.phase
  cases hp : s.phase <;> rw [hp] at hw hphase
  case pending declaration d interrupted =>
    obtain ⟨-, rfl⟩ := hphase
    rfl
  case transforming d => rfl
  all_goals simp [Phase.waits] at hw

theorem run_ended (h : s.result? ≠ none) {events : List SessionEvent}
    (he : ∀ e ∈ events, e.Driven) : s.run setup events = s := by
  obtain ⟨result, hp⟩ : ∃ result, s.phase = .ended result := by
    cases hp : s.phase with
    | ended result => exact ⟨result, rfl⟩
    | _ => simp [Session.result?, hp] at h
  induction events with
  | nil => rfl
  | cons e rest ih =>
    have hstays : s.handle setup e = s := by
      rcases he e (by simp) with rfl | rfl
      · exact step_of_rests (by rw [hp]; rfl)
      · exact resolve_of_waits (by rw [hp]; rfl)
    change (s.handle setup e).run setup rest = s
    rw [hstays]
    exact ih fun e' h' => he e' (by simp [h'])

theorem Unattended.step_measure (hs : s.Unattended setup) (hr : s.result? = none)
    (hw : s.phase.waits = false) : (s.step setup).measure setup < s.measure setup := by
  refine (step_proceeds hs ?_).measure
  have hphase := hs.phase
  cases hp : s.phase <;> rw [hp] at hw hphase
  case awaiting answer => exact False.elim hphase
  case ended result => simp [Session.result?, hp] at hr
  case pending declaration d interrupted => simp [Phase.waits] at hw
  case transforming d => simp [Phase.waits] at hw
  all_goals rfl

/-- Each step with a result some time behind it leads on, whatever else stands between them: a
session that does not wait needs the step first, and one that waits needs the result. -/
theorem Unattended.rounds (events : List SessionEvent) (he : ∀ e ∈ events, e.Driven) :
    (∀ s : Session, s.Unattended setup → ∀ n, s.measure setup ≤ n →
      (List.replicate n [SessionEvent.step, .resolve]).flatten.Sublist events →
      (s.run setup events).result? ≠ none) ∧
    (∀ s : Session, s.Unattended setup → s.phase.waits = true → ∀ n, s.measure setup ≤ n + 1 →
      (.resolve :: (List.replicate n [SessionEvent.step, .resolve]).flatten).Sublist events →
      (s.run setup events).result? ≠ none) := by
  induction events with
  | nil =>
    refine ⟨fun s hs n hn hsub => ?_, fun s _ _ n _ hsub => by simp at hsub⟩
    cases n with
    | zero => exact hs.ended (Nat.le_zero.1 hn)
    | succ n => simp [List.replicate_succ] at hsub
  | cons e rest ih =>
    have hdriven : e.Driven := he e (by simp)
    have hrest : ∀ e ∈ rest, e.Driven := fun e' h => he e' (by simp [h])
    obtain ⟨hfree, hwaiting⟩ := ih hrest
    constructor
    · intro s hs n hn hsub
      obtain ⟨hnext, hle⟩ := hs.handle_measure hdriven
      cases n with
      | zero => exact hfree _ hnext 0 (Nat.le_trans hle hn) (by simp)
      | succ n =>
        rw [List.replicate_succ, List.flatten_cons] at hsub
        rcases List.sublist_cons_iff.1 hsub with hskip | ⟨tail, htail, hmatch⟩
        · refine hfree _ hnext (n + 1) (Nat.le_trans hle hn) ?_
          rwa [List.replicate_succ, List.flatten_cons]
        · obtain ⟨rfl, rfl⟩ := List.cons.inj htail
          by_cases hr : s.result? = none
          · cases hw : s.phase.waits with
            | true =>
              change (Session.run setup (s.step setup) rest).result? ≠ none
              rw [step_of_rests (hs.rests_of_waits hw)]
              exact hwaiting s hs hw n hn hmatch
            | false =>
              have hlt := hs.step_measure hr hw
              refine hfree _ hnext n ?_ ((List.sublist_cons_self _ _).trans hmatch)
              change (s.step setup).measure setup ≤ n
              omega
          · rw [run_ended hr he]
            exact hr
    · intro s hs hw n hn hsub
      rcases hdriven with rfl | rfl
      · have hskip : (SessionEvent.resolve ::
            (List.replicate n [SessionEvent.step, .resolve]).flatten).Sublist rest := by
          rcases List.sublist_cons_iff.1 hsub with hskip | ⟨tail, htail, -⟩
          · exact hskip
          · cases htail
        change (Session.run setup (s.step setup) rest).result? ≠ none
        rw [step_of_rests (hs.rests_of_waits hw)]
        exact hwaiting s hs hw n hn hskip
      · have hnext := resolve_proceeds hs hw
        have hle := Nat.le_of_lt_succ (Nat.lt_of_lt_of_le hnext.measure hn)
        exact hfree _ hnext.unattended n hle (List.cons_sublist_cons.1 hsub)

structure Fulfils (setup : Setup U) (s : Session) (events : List SessionEvent) (k : Outlook) :
    Prop where
  log : s.log setup events = k.log
  compiled : s.compiled setup events = k.compiled
  context : (s.run setup events).context = k.context
  result : (s.run setup events).result? = some k.result

theorem Unattended.fulfils (hs : s.Unattended setup) {events : List SessionEvent}
    (he : ∀ e ∈ events, e.Driven) (hr : (s.run setup events).result? ≠ none) :
    s.Fulfils setup events (s.outlook setup) := by
  have hrun := hs.run_outlook events he
  cases hp : (s.run setup events).phase with
  | ended result =>
    have hover : (s.run setup events).outlook setup =
        .ended (s.run setup events).context result := by
      simp only [Session.outlook, hp]
    rw [hrun, hover]
    exact ⟨(List.append_nil _).symm, (List.append_nil _).symm, rfl,
      by simp [Session.result?, hp, Outlook.after, Outlook.ended]⟩
  | _ => simp [Session.result?, hp] at hr

theorem create_unattended (o : Options) (host : Host) {output errors : Sink}
    (ho : ¬ output.MayFail) (he : ¬ errors.MayFail) (hsrc : setup.source ≠ .stream) :
    (create o host output errors).Unattended setup :=
  ⟨ho, he, hsrc, rfl⟩

end Runs
end Session
end PromptLoop
