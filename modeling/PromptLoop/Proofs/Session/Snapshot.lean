import PromptLoop.Proofs.Script.Resumption
import PromptLoop.Proofs.Session.ContextChange
import PromptLoop.Proofs.Session.UnitEffect

set_option autoImplicit false

namespace PromptLoop

/-- A session that waits for a unit, and what is left of the evaluation of the unit. -/
structure Evaluating where
  session : Session
  scope : Bindings Value
  left : Script.Resumption (Option Value)

inductive Activity where
  /-- The evaluation looks up a name, or a wait of it is over. -/
  | advance
  | event (e : SessionEvent)

def Activity.event? : Activity → Option SessionEvent
  | advance => none
  | event e => some e

def eventsOf (activities : List Activity) : List SessionEvent :=
  activities.filterMap Activity.event?

def advances (activities : List Activity) : Nat :=
  activities.countP fun activity => activity.event?.isNone

def embedded (activities : List Activity) : List (Bindings Value → Bindings Value) :=
  (eventsOf activities).filterMap fun
    | .embed change => some change
    | _ => none

theorem rebind_embedded (activities : List Activity) (context : Bindings Value) :
    rebind (eventsOf activities) context =
      (embedded activities).foldl (fun context change => change context) context := by
  unfold embedded rebind
  generalize eventsOf activities = events
  induction events generalizing context with
  | nil => rfl
  | cons e rest ih => cases e <;> exact ih _

def Script.reported (outcome : Except RuntimeError (Option Value)) :
    Except SessionError (Option Value) :=
  outcome.mapError fun e => .runtime e.message

namespace Evaluating

variable {U : Type} (setup : Setup U)

def act (w : Evaluating) : Activity → Evaluating
  | .advance => { w with left := w.left.advance w.scope }
  | .event e => { w with session := w.session.handle setup e }

def run (w : Evaluating) (activities : List Activity) : Evaluating :=
  activities.foldl (act setup) w

def settle (w : Evaluating) : Session :=
  match w.session.phase, w.left with
  | .pending declaration _ _, .done outcome =>
    w.session.settled setup declaration (Script.reported outcome)
  | _, _ => w.session

/-- Neither party meets the other. -/
theorem run_eq (w : Evaluating) (activities : List Activity) :
    w.run setup activities = ⟨w.session.run setup (eventsOf activities), w.scope,
      (Script.Resumption.advance w.scope)^[advances activities] w.left⟩ := by
  induction activities generalizing w with
  | nil => rfl
  | cons activity rest ih =>
    refine (ih (w.act setup activity)).trans ?_
    cases activity with
    | event e => rfl
    | advance =>
      have hcount : advances (.advance :: rest) = advances rest + 1 :=
        List.countP_cons_of_pos rfl
      rw [hcount, Function.iterate_succ_apply]
      rfl

end Evaluating

namespace Session
variable {U : Type} {setup : Setup U} {s : Session}

theorem handle_waiting {declaration : Option Declaration} {d : Deferred} {interrupted : Bool}
    {e : SessionEvent} {rest : List SessionEvent}
    (hp : s.phase = .pending declaration d interrupted)
    (hf : s.fate setup (e :: rest) = .waiting) :
    (∃ interrupted', (s.handle setup e).phase = .pending declaration d interrupted') ∧
      (s.handle setup e).context = e.rebind s.context ∧
      (s.handle setup e).fate setup rest = .waiting := by
  unfold fate at hf
  rw [hp] at hf
  have hidle (hs : e ≠ .step) (hr : e ≠ .resolve) :
      (∃ interrupted', (s.handle setup e).phase = .pending declaration d interrupted') ∧
        (s.handle setup e).context = e.rebind s.context := by
    rw [(handle_idle setup hs (by rw [hp]; rfl) fun h => absurd h hr).1, hp]
    cases e with
    | interrupt => exact ⟨⟨true, rfl⟩, rfl⟩
    | _ => exact ⟨⟨interrupted, rfl⟩, rfl⟩
  cases e with
  | resolve => cases hf
  | step =>
    cases interrupted with
    | true => cases hf
    | false =>
      have hstays : s.handle setup .step = s := by
        simp only [Session.handle, Session.step, hp]
      refine ⟨⟨false, ?_⟩, ?_, hf⟩
      · rw [hstays, hp]
      · rw [hstays]
        rfl
  | _ =>
    obtain ⟨hphase, hcontext⟩ := hidle (by simp) (by simp)
    exact ⟨hphase, hcontext, hf⟩

theorem run_waiting {declaration : Option Declaration} {d : Deferred} {interrupted : Bool}
    {events : List SessionEvent} (hp : s.phase = .pending declaration d interrupted)
    (hf : s.fate setup events = .waiting) :
    (∃ interrupted', (s.run setup events).phase = .pending declaration d interrupted') ∧
      (s.run setup events).context = rebind events s.context := by
  induction events generalizing s interrupted with
  | nil => exact ⟨⟨interrupted, hp⟩, rfl⟩
  | cons e rest ih =>
    obtain ⟨⟨interrupted', hnext⟩, hcontext, hrest⟩ := handle_waiting hp hf
    obtain ⟨hphase, hlast⟩ := ih hnext hrest
    rw [hcontext] at hlast
    exact ⟨hphase, hlast⟩

end Session

section Script
open Script
variable {setup : Setup Statement} {unit : Statement} {declaration : Option Declaration}
  {start : Bindings Value} {during : List Activity} {w : Evaluating}

theorem Declaration.bindings_unbound {outcome : Except SessionError (Option Value)}
    (h : (∃ failure, outcome = .error failure) ∨ declaration = none) (context : Bindings Value) :
    Declaration.bindings declaration outcome context = context := by
  rcases h with ⟨failure, rfl⟩ | rfl
  · rfl
  · cases outcome <;> rfl

theorem Declaration.get?_bindings_of_ne {name : String}
    (h : ∀ d, declaration = some d → name ≠ d.name) (outcome : Except SessionError (Option Value))
    (context : Bindings Value) :
    Bindings.get? name (Declaration.bindings declaration outcome context) =
      Bindings.get? name context := by
  cases hd : declaration with
  | none => rw [Declaration.bindings_unbound (.inr rfl)]
  | some d =>
    cases outcome with
    | error failure => rfl
    | ok v => exact Bindings.get?_insert_of_ne (h d hd) _ _

/-- What holds of a unit that was started among the bindings `start` and has been pending ever
since, while there were these activities. -/
structure Isolated (setup : Setup Statement) (unit : Statement) (declaration : Option Declaration)
    (start : Bindings Value) (during : List Activity) (w : Evaluating) : Prop where
  /-- The evaluation comes to what a run on the bindings of the start gives. -/
  outcome : ∀ outcome, w.left = .done outcome → outcome = (unit.run start).outcome
  progress : unit.resumption.stops start ≤ advances during →
    w.left = .done (unit.run start).outcome
  /-- The session has the bindings that the changes from outside have made of those of the start. -/
  latest : w.session.context =
    (embedded during).foldl (fun context change => change context) start
  /-- The outcome that the session gets to know is the one that the evaluation has come to. -/
  resolves : ∀ outcome, w.left = .done outcome → w.settle setup = w.session.resolve setup
  settled : w.session.resolve setup =
    w.session.settled setup declaration (reported (unit.run start).outcome)
  /-- A unit that fails, or declares no name, leaves the bindings as they are by then. -/
  unbound : (∃ error, (unit.run start).outcome = .error error) ∨ declaration = none →
    (w.session.resolve setup).context = w.session.context
  /-- A declared name is replaced among them, and no other one is. -/
  bound : ∀ v d, (unit.run start).outcome = .ok v → declaration = some d →
    (w.session.resolve setup).context = w.session.context.insert d.name (v.getD .null) ∧
      Bindings.get? d.name (w.session.resolve setup).context = some (v.getD .null) ∧
      ∀ other, other ≠ d.name → Bindings.get? other (w.session.resolve setup).context =
        Bindings.get? other w.session.context
  /-- So the last change that concerns another name is what counts for it. -/
  survives : ∀ changes : List ContextChange,
    embedded during = changes.map (fun change context => change.apply context) →
    start.names.Nodup → ∀ other, (∀ d, declaration = some d → other ≠ d.name) →
      Bindings.get? other (w.session.resolve setup).context =
        changes.foldl (ContextChange.look other) (Bindings.get? other start)

theorem isolated (hphase : ∃ after interrupted, w.session.phase =
      .pending declaration ⟨after, reported (unit.run start).outcome⟩ interrupted)
    (hcontext : w.session.context = rebind (eventsOf during) start)
    (hleft : w.left = (Resumption.advance start)^[advances during] unit.resumption) :
    Isolated setup unit declaration start during w := by
  obtain ⟨after, interrupted, hphase⟩ := hphase
  obtain ⟨hleads, hstops⟩ := unit.resumption.iterate_advance start (advances during)
  rw [← hleft, unit.resumption_within] at hleads
  rw [← hleft] at hstops
  have houtcome (outcome : Except RuntimeError (Option Value)) (h : w.left = .done outcome) :
      outcome = (unit.run start).outcome := by
    rw [h] at hleads
    exact hleads
  have hsettled : w.session.resolve setup =
      w.session.settled setup declaration (reported (unit.run start).outcome) := by
    simp only [Session.resolve, hphase]
  have hbindings : (w.session.resolve setup).context =
      Declaration.bindings declaration (reported (unit.run start).outcome) w.session.context := by
    rw [hsettled, Session.settled_eq]
  have hlatest := hcontext.trans (rebind_embedded during start)
  have hbound (v : Option Value) (d : Declaration) (ho : (unit.run start).outcome = .ok v)
      (hd : declaration = some d) :
      (w.session.resolve setup).context = w.session.context.insert d.name (v.getD .null) := by
    rw [hbindings, ho, hd]
    rfl
  have hother (other : String) (h : ∀ d, declaration = some d → other ≠ d.name) :
      Bindings.get? other (w.session.resolve setup).context =
        Bindings.get? other w.session.context := by
    rw [hbindings]
    exact Declaration.get?_bindings_of_ne h _ _
  refine ⟨houtcome, fun h => ?_, hlatest, fun outcome h => ?_, hsettled, fun h => ?_, ?_, ?_⟩
  · rw [Resumption.eq_done start (hstops.trans (Nat.sub_eq_zero_of_le h)), hleads]
  · rw [hsettled, ← houtcome outcome h]
    simp only [Evaluating.settle, hphase, h]
  · rw [hbindings]
    refine Declaration.bindings_unbound (h.imp_left ?_) _
    rintro ⟨error, ho⟩
    rw [ho]
    exact ⟨_, rfl⟩
  · intro v d ho hd
    refine ⟨hbound v d ho hd, ?_, fun other hne => hother other fun d' hd' => ?_⟩
    · rw [hbound v d ho hd]
      exact Bindings.get?_insert_self _ _ _
    · rw [hd] at hd'
      rwa [← Option.some.inj hd']
  · intro changes hchanges hnodup other h
    rw [hother other h, hlatest, hchanges, List.foldl_map]
    exact ContextChange.foldl_apply_look hnodup changes other

end Script

namespace Session
open Script

/-- A unit that does not wait has its outcome at once. One that waits is isolated from the changes
of the bindings in the meantime, whatever they are and in whatever order the evaluation goes on
between them. -/
theorem evaluation_isolated (setup : Setup Statement)
    (hexecute : setup.evaluator.execute = Script.evaluator.execute) (s : Session)
    (e : SessionEvent) (source : String) (hcompiled : .compiled source ∈ s.entries setup e)
    (unit : Statement) (declaration : Option Declaration)
    (hunit : setup.evaluator.compile source = .ready unit declaration) :
    let t := s.handle setup e
    let outcome := reported (unit.run s.context).outcome
    ((unit.run s.context).duration = 0 →
      t.phase = .behindUnit setup.transform declaration outcome ∧
        t.context = Declaration.bindings declaration outcome s.context) ∧
    (0 < (unit.run s.context).duration →
      t.phase = .pending declaration ⟨some (unit.run s.context).duration, outcome⟩ false ∧
        t.context = s.context) ∧
    ∀ during, t.fate setup (eventsOf during) = .waiting →
      Isolated setup unit declaration s.context during
        ((⟨t, s.context, unit.resumption⟩ : Evaluating).run setup during) := by
  intro t outcome
  have hlands := handle_lands hcompiled
  have hlanding := Setup.landing_ready hexecute hunit s.context
  rcases hlanding with ⟨hd, hphase, hcontext⟩ | ⟨hd, hphase, hcontext⟩
  · have hpending := hlands.phase.trans hphase
    have hstart := hlands.context.trans hcontext
    refine ⟨fun h => absurd h (Nat.ne_of_gt hd), fun _ => ⟨hpending, hstart⟩, ?_⟩
    intro during hwaiting
    obtain ⟨⟨interrupted, hlast⟩, hlatest⟩ := run_waiting hpending hwaiting
    rw [Evaluating.run_eq]
    refine isolated ⟨_, interrupted, hlast⟩ ?_ rfl
    rw [hlatest, hstart]
  · refine ⟨fun _ => ⟨hlands.phase.trans hphase, hlands.context.trans hcontext⟩,
      fun h => absurd hd (Nat.ne_of_gt h), ?_⟩
    intro during hwaiting
    have hover : t.phase.isPending = false := by
      rw [hlands.phase, hphase]
      exact (Phase.behindUnit_any _ _ _).isPending
    rw [fate_over hover] at hwaiting
    cases hwaiting

def watchingLine : String := "x = [delay(5, null), y]\n"

def watchingUnit : Statement :=
  .assign "x" (.array [.call "delay" [.literal (.number (.integer 5)), .literal .null],
    .name "y"]) false

def watching : Session :=
  (create {} {} {} {}).run terminalSetup
    [.embed fun context => (ContextChange.set "y" (.bool true)).apply context, .step, .step,
      .feed (watchingLine.toList.map fun c => c.toNat.toUInt8)]

def meanwhile : List Activity :=
  [.event (.embed fun context => (ContextChange.set "y" (.bool false)).apply context), .advance,
    .event (.embed fun context => (ContextChange.extend [("z", .null)]).apply context),
    .event (.embed fun context => (ContextChange.remove "process").apply context), .advance]

theorem watching_isolated :
    let w := (⟨watching.handle terminalSetup .step, watching.context, watchingUnit.resumption⟩ :
      Evaluating).run terminalSetup meanwhile
    let context := (w.settle terminalSetup).context
    Bindings.get? "x" context = some (.array [.null, .bool true]) ∧
      Bindings.get? "y" context = some (.bool false) ∧ Bindings.get? "z" context = some .null ∧
      Bindings.get? "process" context = none := by
  intro w context
  have hcompiled : .compiled watchingLine ∈ watching.entries terminalSetup .step := by
    have hentries : watching.entries terminalSetup .step = [.compiled watchingLine] := by rfl
    simp [hentries]
  have h : Isolated terminalSetup watchingUnit (some ⟨"x", false⟩) watching.context meanwhile w :=
    (evaluation_isolated terminalSetup rfl watching .step watchingLine hcompiled watchingUnit
      (some ⟨"x", false⟩) (by rfl)).2.2 meanwhile (by rfl)
  have hdone := h.progress (by decide)
  have hrun : (watchingUnit.run watching.context).outcome =
      .ok (some (.array [.null, .bool true])) := by rfl
  have hcontext : context = (w.session.resolve terminalSetup).context :=
    congrArg Session.context (h.resolves _ hdone)
  have hsurvives := h.survives [.set "y" (.bool false), .extend [("z", .null)], .remove "process"]
    rfl (by decide)
  rw [hcontext]
  refine ⟨(h.bound _ _ hrun rfl).2.1, ?_, ?_, ?_⟩
  · exact hsurvives "y" (by simp)
  · exact hsurvives "z" (by simp)
  · exact hsurvives "process" (by simp)

end Session
end PromptLoop
