import PromptLoop.Proofs.Session.Journal

set_option autoImplicit false

namespace PromptLoop

variable {U : Type}

theorem Answer.compiled_not_mem (a : Answer) (source : String) : .compiled source ∉ a.entries := by
  cases a with
  | line l =>
    unfold Answer.entries
    split <;> simp
  | _ => simp [Answer.entries]

/-- What becomes of a unit: its outcome is awaited, it is given up, or its outcome is known. -/
inductive Fate where
  | waiting
  | abandoned
  | over
deriving DecidableEq, Repr

namespace Session
variable (setup : Setup U)

/-- What becomes of the unit that `s` is at, from here on. A unit that is interrupted while it is
pending is given up by the next step, unless its outcome is known before. -/
def fate (s : Session) : List SessionEvent → Fate
  | [] => if s.phase.isPending then .waiting else .over
  | e :: rest =>
    match s.phase, e with
    | .pending _ _ _, .resolve => .over
    | .pending _ _ true, .step => .abandoned
    | .pending _ _ _, _ => fate (s.handle setup e) rest
    | _, _ => .over

structure Lands (source : String) (s t : Session) : Prop where
  phase : t.phase = (setup.landing source s.context).phase
  context : t.context = (setup.landing source s.context).context
  accumulated : t.accumulated = (setup.landing source s.context).accumulated

section Lands
variable {setup} {s : Session} {source : String}

theorem receive_lands {a : Answer} (h : .compiled source ∈ s.receiveEntries setup a) :
    Lands setup source s (s.receive setup a) := by
  cases a with
  | failed message => simp [receiveEntries] at h
  | ended => simp [receiveEntries] at h
  | line l =>
    by_cases hm : l = interruptMarker
    · simp [receiveEntries, hm] at h
    · by_cases he : setup.echo = true
      · simp [receiveEntries, hm, he] at h
      · obtain rfl : source = s.accumulated ++ l := by simpa [receiveEntries, hm, he] using h
        simp only [Session.receive, if_neg hm, if_neg he, evaluate_eq]
        exact ⟨rfl, rfl, rfl⟩

theorem read_lands (h : .compiled source ∈ s.readEntries setup) :
    Lands setup source s (s.read setup) := by
  unfold Session.read
  unfold readEntries at h
  cases hread : s.buffer.read with
  | error fault => simp [hread] at h
  | ok r =>
    obtain ⟨buffer, a⟩ := r
    cases a with
    | none => simp [hread] at h
    | some a =>
      simp only [hread, List.mem_append] at h
      have hnext := receive_lands (s := { s with buffer }) (h.resolve_left (a.compiled_not_mem source))
      exact ⟨hnext.phase, hnext.context, hnext.accumulated⟩

theorem iterate_lands (h : .compiled source ∈ s.iterateEntries setup) :
    Lands setup source s (s.iterate setup) := by
  unfold Session.iterate
  by_cases hd : s.buffer.isDone = true
  · simp [iterateEntries, hd] at h
  · by_cases he : setup.echo = true
    · rw [if_neg hd, if_pos he]
      exact read_lands (by simpa [iterateEntries, hd, he] using h)
    · simp [iterateEntries, hd, he] at h

theorem write_lands {text : String} {next : Session → Session}
    (hw : (s.output.write text).2 = none)
    (h : Lands setup source { s with output := (s.output.write text).1 }
      (next { s with output := (s.output.write text).1 })) :
    Lands setup source s (s.write text next) := by
  have heq : s.write text next = next { s with output := (s.output.write text).1 } := by
    rcases write_cases text next s with ⟨-, heq⟩ | ⟨message, hm, -⟩
    · exact heq
    · simp [hw] at hm
  rw [heq]
  exact ⟨h.phase, h.context, h.accumulated⟩

theorem step_lands (h : .compiled source ∈ s.stepEntries setup) :
    Lands setup source s (s.step setup) := by
  unfold Session.step
  unfold stepEntries at h
  cases hp : s.phase <;> simp only [hp] at h
  case created =>
    cases hsrc : setup.source <;> simp only [hsrc] at h
    case text bytes =>
      have hnext := iterate_lands h
      exact ⟨hnext.phase, hnext.context, hnext.accumulated⟩
    case stream => exact iterate_lands h
    case file content => simp at h
  case loading =>
    cases hsrc : setup.source <;> simp only [hsrc] at h
    case file content =>
      cases content with
      | ok bytes =>
        have hnext := iterate_lands h
        exact ⟨hnext.phase, hnext.context, hnext.accumulated⟩
      | error e => simp at h
    all_goals simp at h
  case prompting line =>
    cases hw : (s.output.write (s.promptText setup)).2 with
    | some message => cases line <;> simp [hw] at h
    | none =>
      cases line with
      | some l => simp [hw] at h
      | none =>
        simp only [hw] at h
        exact write_lands hw (read_lands h)
  case echoing line =>
    cases hw : (s.output.write line).2 with
    | some message => simp [hw] at h
    | none =>
      obtain rfl : source = s.accumulated ++ line := by simpa [hw] using h
      refine write_lands hw ?_
      rw [evaluate_eq]
      exact ⟨rfl, rfl, rfl⟩
  case awaiting answer =>
    cases answer with
    | none => simp at h
    | some a => exact receive_lands h
  case breaking => split at h <;> simp at h
  case yielding => exact iterate_lands h
  all_goals simp at h

theorem handle_lands {e : SessionEvent} (h : .compiled source ∈ s.entries setup e) :
    Lands setup source s (s.handle setup e) := by
  have hsupply (r : LineBuffer × Option Answer) : .compiled source ∉ s.supplyEntries r := by
    rcases supply_turn s r with ⟨a, -, -, -, hentries⟩ | ⟨-, hentries⟩
    · rw [hentries]
      exact a.compiled_not_mem source
    · simp [hentries]
  cases e with
  | step => exact step_lands h
  | feed chunk => exact absurd h (hsupply _)
  | finish => exact absurd h (hsupply _)
  | fail message => exact absurd h (hsupply _)
  | interrupt => exact absurd h (hsupply _)
  | resolve => simp [entries] at h
  | embed change => simp [entries] at h

end Lands

section Fate
variable {setup} {s : Session}

/-- Where nothing is evaluated and nothing compiled, the bindings stay, and no value comes up that
was not on its way to the output before. -/
theorem handle_over {e : SessionEvent} (hp : s.phase.isPending = false)
    (hc : ∀ source, .compiled source ∉ s.entries setup e) (he : ∀ change, e ≠ .embed change) :
    (s.handle setup e).context = s.context ∧ (s.handle setup e).phase.isPending = false ∧
      (s.phase.shows = false → (s.handle setup e).phase.shows = false) := by
  have hsupply (r : LineBuffer × Option Answer) : (s.supply r).context = s.context ∧
      (s.supply r).phase.isPending = false ∧
      (s.phase.shows = false → (s.supply r).phase.shows = false) := by
    rcases supply_turn s r with ⟨a, -, -, heq, -⟩ | ⟨heq, -⟩
    · rw [heq]
      exact ⟨rfl, rfl, fun _ => rfl⟩
    · rw [heq]
      exact ⟨rfl, hp, id⟩
  cases e with
  | step =>
    rcases step_quiet hc with hquiet | heq
    · exact ⟨hquiet.context, hquiet.pending, fun _ => hquiet.shows⟩
    · simp only [Session.handle, heq]
      exact ⟨trivial, hp, id⟩
  | feed chunk => exact hsupply _
  | finish => exact hsupply _
  | fail message => exact hsupply _
  | embed change => exact absurd rfl (he change)
  | interrupt =>
    have hnext := hsupply s.buffer.interrupt
    simp only [Session.handle, Session.interrupt]
    split
    · rename_i declaration d interrupted heq
      simp [heq, Phase.isPending] at hnext
    · exact hnext
  | resolve =>
    simp only [Session.handle, Session.resolve]
    split
    · rename_i declaration d interrupted heq
      simp [heq, Phase.isPending] at hp
    · rename_i d heq
      rw [transformed_eq]
      exact ⟨rfl, (Phase.behindTransform_any d.outcome).isPending, by simp [heq, Phase.shows]⟩
    · exact ⟨rfl, hp, id⟩

theorem run_over {events : List SessionEvent} (hp : s.phase.isPending = false)
    (hc : ∀ source, .compiled source ∉ s.journal setup events)
    (he : ∀ change, .embed change ∉ events) :
    (s.run setup events).context = s.context ∧
      (s.phase.shows = false → (s.run setup events).phase.shows = false) := by
  induction events generalizing s with
  | nil => exact ⟨rfl, id⟩
  | cons e rest ih =>
    simp only [journal, List.mem_append, not_or] at hc
    simp only [List.mem_cons, not_or] at he
    obtain ⟨hcontext, hpending, hshows⟩ :=
      handle_over hp (fun source => (hc source).1) fun change h => (he change).1 h.symm
    obtain ⟨hrest, hlast⟩ := ih hpending (fun source => (hc source).2) fun change => (he change).2
    exact ⟨hrest.trans hcontext, fun h => hlast (hshows h)⟩

theorem fate_over (hp : s.phase.isPending = false) (events : List SessionEvent) :
    s.fate setup events = .over := by
  cases events with
  | nil => simp [fate, hp]
  | cons e rest =>
    unfold fate
    cases hphase : s.phase with
    | pending declaration d interrupted => simp [hphase, Phase.isPending] at hp
    | _ => rfl

theorem handle_pending {declaration : Option Declaration} {d : Deferred} {interrupted : Bool}
    {e : SessionEvent} (hp : s.phase = .pending declaration d interrupted) (hs : e ≠ .step)
    (hr : e ≠ .resolve) (he : ∀ change, e ≠ .embed change) :
    (s.handle setup e).context = s.context ∧
      ∃ interrupted', (s.handle setup e).phase = .pending declaration d interrupted' := by
  have hidle := (handle_idle setup hs (by rw [hp]; rfl) fun h => absurd h hr).1
  rw [hidle, hp]
  cases e with
  | embed change => exact absurd rfl (he change)
  | interrupt => exact ⟨rfl, true, rfl⟩
  | _ => exact ⟨rfl, interrupted, rfl⟩

/-- What the fate of a pending unit is, and what has become of the bindings. -/
theorem run_pending {events : List SessionEvent} {declaration : Option Declaration} {d : Deferred}
    {interrupted : Bool} (hp : s.phase = .pending declaration d interrupted)
    (hc : ∀ source, .compiled source ∉ s.journal setup events)
    (he : ∀ change, .embed change ∉ events) :
    (s.run setup events).context =
        (if s.fate setup events = .over then
          Declaration.bindings declaration d.outcome s.context
        else s.context) ∧
      ((s.run setup events).phase.shows = true → s.fate setup events = .over) := by
  -- As long as the unit is pending the bindings are those of `s`; the event that ends this leads
  -- to a session without a unit, and from there on they stay.
  induction events generalizing s interrupted with
  | nil => simp [fate, run, hp, Phase.isPending, Phase.shows]
  | cons e rest ih =>
    simp only [journal, List.mem_append, not_or] at hc
    simp only [List.mem_cons, not_or] at he
    have hlater := fun source => (hc source).2
    have hkept := fun change => (he change).2
    by_cases hr : e = .resolve
    · subst hr
      have hover : s.fate setup (.resolve :: rest) = .over := by
        unfold fate
        rw [hp]
      have hnext : s.handle setup .resolve = { s with
          phase := .behindUnit setup.transform declaration d.outcome
          context := Declaration.bindings declaration d.outcome s.context } := by
        simp only [Session.handle, Session.resolve, hp, settled_eq]
      have hb := Phase.behindUnit_any setup.transform declaration d.outcome
      have hrest := (run_over (by rw [hnext]; exact hb.isPending) hlater hkept).1
      rw [hover, if_pos rfl]
      refine ⟨hrest.trans ?_, fun _ => rfl⟩
      rw [hnext]
    · by_cases hs : e = .step ∧ interrupted = true
      · obtain ⟨rfl, rfl⟩ := hs
        have habandoned : s.fate setup (.step :: rest) = .abandoned := by
          unfold fate
          rw [hp]
        have hnext : s.handle setup .step = { s with phase := .reporting .interrupted } := by
          simp only [Session.handle, Session.step, hp]
          exact fail_eq s .interrupted
        obtain ⟨hrest, hshows⟩ := run_over (by rw [hnext]; rfl) hlater hkept
        rw [habandoned, if_neg (by decide)]
        refine ⟨hrest.trans (by rw [hnext]), fun h => ?_⟩
        have hnone := hshows (by rw [hnext]; rfl)
        exact absurd (hnone.symm.trans h) Bool.false_ne_true
      · have hsame : s.fate setup (e :: rest) = (s.handle setup e).fate setup rest := by
          conv => lhs; unfold fate
          rw [hp]
          cases e with
          | step =>
            cases interrupted with
            | false => rfl
            | true => exact absurd ⟨rfl, rfl⟩ hs
          | resolve => exact absurd rfl hr
          | _ => rfl
        obtain ⟨hcontext, interrupted', hnext⟩ : (s.handle setup e).context = s.context ∧
            ∃ interrupted', (s.handle setup e).phase = .pending declaration d interrupted' := by
          by_cases hstep : e = .step
          · have hwaits : s.handle setup e = s := by
              cases interrupted with
              | false => simp only [hstep, Session.handle, Session.step, hp]
              | true => exact absurd ⟨hstep, rfl⟩ hs
            rw [hwaits]
            exact ⟨rfl, interrupted, hp⟩
          · exact handle_pending hp hstep hr fun change h => (he change).1 h.symm
        have hrest := ih hnext hlater hkept
        rw [hcontext] at hrest
        rw [hsame]
        exact hrest

end Fate
end Session

/-- A unit of the language waits for the outcome of its run as long as the run takes, or it has it
at once. -/
theorem Setup.landing_ready {setup : Setup Script.Statement}
    (hexecute : setup.evaluator.execute = Script.evaluator.execute) {source : String}
    {unit : Script.Statement} {declaration : Option Declaration}
    (hunit : setup.evaluator.compile source = .ready unit declaration) (context : Bindings Value) :
    let outcome := (unit.run context).outcome.mapError fun e => SessionError.runtime e.message
    (0 < (unit.run context).duration ∧ (setup.landing source context).phase =
        .pending declaration ⟨some (unit.run context).duration, outcome⟩ false ∧
      (setup.landing source context).context = context) ∨
    ((unit.run context).duration = 0 ∧ (setup.landing source context).phase =
        .behindUnit setup.transform declaration outcome ∧
      (setup.landing source context).context =
        Declaration.bindings declaration outcome context) := by
  intro outcome
  have hrun : setup.evaluator.execute unit context =
      (Script.execution (unit.run context), context) := by rw [hexecute]; rfl
  by_cases hd : 0 < (unit.run context).duration
  · refine .inl ⟨hd, ?_⟩
    simp [landing, hunit, hrun, Script.execution, hd, outcome]
  · refine .inr ⟨Nat.eq_zero_of_not_pos hd, ?_⟩
    cases ho : outcome with
    | ok v =>
      simp only [outcome] at ho
      simp [landing, hunit, hrun, Script.execution, hd, ho]
    | error e =>
      simp only [outcome] at ho
      simp [landing, hunit, hrun, Script.execution, hd, ho, Phase.behindUnit, Declaration.bindings]

section Script
open Script
variable {setup : Setup Statement} (hs : setup.evaluator = Script.evaluator) {source : String}
  (context : Bindings Value)
include hs

theorem Setup.landing_unparsed {cause : SyntaxError}
    (hparse : Statement.parse source.toList = .error cause) :
    (setup.landing source context).context = context ∧
      (setup.landing source context).phase.isPending = false := by
  have hcompile : setup.evaluator.compile source = compile source := by rw [hs]; rfl
  cases cause with
  | unfinished => simp [landing, hcompile, compile, hparse, Phase.isPending]
  | malformed cause =>
    have hb := Phase.behindError_behind (E := fun _ => True) (e := .compile cause.message) trivial
    simp [landing, hcompile, compile, hparse, hb.isPending]

theorem Setup.landing_parsed {unit : Statement}
    (hparse : Statement.parse source.toList = .ok unit) :
    let outcome := (unit.run context).outcome.mapError fun e => SessionError.runtime e.message
    (∃ after, (setup.landing source context).phase =
        .pending unit.declaration? ⟨after, outcome⟩ false ∧
      (setup.landing source context).context = context) ∨
    ((setup.landing source context).phase.isPending = false ∧
      (setup.landing source context).context =
        Declaration.bindings unit.declaration? outcome context) := by
  intro outcome
  have hunit : setup.evaluator.compile source = .ready unit unit.declaration? := by
    rw [hs]
    exact compile_unit hparse
  have hexecute : setup.evaluator.execute = Script.evaluator.execute := by rw [hs]
  rcases Setup.landing_ready hexecute hunit context with ⟨-, hlanding⟩ | ⟨-, hphase, hcontext⟩
  · exact .inl ⟨_, hlanding⟩
  · have hb := Phase.behindUnit_any setup.transform unit.declaration? outcome
    rw [← hphase] at hb
    exact .inr ⟨hb.isPending, hcontext⟩

end Script

namespace Session
open Script

/-- The bindings behind a line, for as long as no further text is compiled and nothing outside
changes them. A text that is no unit, a unit that fails and one that is given up leave them as they
are, and so does a unit without a declaration. A unit that declares a name binds it to its value and
changes no other name, once its outcome is known; it has done so before the value is transformed or
displayed, and nothing that happens to the value afterwards takes it back. -/
theorem bindings_behind_line (setup : Setup Statement) (hs : setup.evaluator = Script.evaluator)
    (s : Session) (e : SessionEvent) (source : String)
    (hcompiled : .compiled source ∈ s.entries setup e) (after : List SessionEvent)
    (hquiet : ∀ text, .compiled text ∉ (s.handle setup e).journal setup after)
    (hkept : ∀ change, .embed change ∉ after) :
    let t := (s.handle setup e).run setup after
    let fate := (s.handle setup e).fate setup after
    let parsed := Statement.parse source.toList
    (∀ cause, parsed = .error cause → t.context = s.context) ∧
    (∀ unit error, parsed = .ok unit → (unit.run s.context).outcome = .error error →
      t.context = s.context) ∧
    (fate ≠ .over → t.context = s.context) ∧
    (∀ name expr declare v, parsed = .ok (.assign name expr declare) →
      ((Statement.assign name expr declare).run s.context).outcome = .ok (some v) →
      fate = .over →
      t.context = s.context.insert name v ∧ Bindings.get? name t.context = some v ∧
        ∀ other, other ≠ name → Bindings.get? other t.context = Bindings.get? other s.context) ∧
    (∀ unit, parsed = .ok unit → unit.declaration? = none → t.context = s.context) ∧
    (t.phase.shows = true → fate = .over) := by
  intro t fate parsed
  have hlands := handle_lands hcompiled
  -- A unit whose outcome is known at once has the fate of one that has been waited for.
  have hover (hp : (setup.landing source s.context).phase.isPending = false) :
      t.context = (setup.landing source s.context).context ∧ fate = .over := by
    rw [← hlands.phase] at hp
    exact ⟨(run_over hp hquiet hkept).1.trans hlands.context, fate_over hp after⟩
  have hparsed (unit : Statement) (h : parsed = .ok unit) :
      t.context = (if fate = .over then Declaration.bindings unit.declaration?
          ((unit.run s.context).outcome.mapError fun e => SessionError.runtime e.message) s.context
        else s.context) ∧ (t.phase.shows = true → fate = .over) := by
    rcases Setup.landing_parsed hs s.context h with ⟨wait, hp, hcontext⟩ | ⟨hp, hcontext⟩
    · have hrun := run_pending (hlands.phase.trans hp) hquiet hkept
      rw [hlands.context, hcontext] at hrun
      exact hrun
    · obtain ⟨hrun, hfate⟩ := hover hp
      rw [if_pos hfate]
      exact ⟨hrun.trans hcontext, fun _ => hfate⟩
  have hunparsed (cause : SyntaxError) (h : parsed = .error cause) :
      t.context = s.context ∧ fate = .over := by
    obtain ⟨hcontext, hp⟩ := Setup.landing_unparsed hs s.context h
    obtain ⟨hrun, hfate⟩ := hover hp
    exact ⟨hrun.trans hcontext, hfate⟩
  refine ⟨fun cause h => (hunparsed cause h).1, ?_, ?_, ?_, ?_, ?_⟩
  · intro unit error h ho
    have hrun := (hparsed unit h).1
    rw [ho] at hrun
    rw [hrun]
    split <;> rfl
  · intro hfate
    cases h : parsed with
    | error cause => exact (hunparsed cause h).1
    | ok unit =>
      have hrun := (hparsed unit h).1
      rwa [if_neg hfate] at hrun
  · intro name expr declare v h ho hfate
    have hrun := (hparsed _ h).1
    rw [if_pos hfate, ho] at hrun
    have hinsert : t.context = s.context.insert name v := hrun
    rw [hinsert]
    exact ⟨rfl, Bindings.get?_insert_self name v _,
      fun other hne => Bindings.get?_insert_of_ne hne v _⟩
  · intro unit h hd
    have hrun := (hparsed unit h).1
    rw [hd] at hrun
    rw [hrun]
    split
    · cases (unit.run s.context).outcome <;> rfl
    · rfl
  · intro hshows
    cases h : parsed with
    | error cause => exact (hunparsed cause h).2
    | ok unit => exact (hparsed unit h).2 hshows

def delayedLine : String := "x = delay(5, null)\n"

def answered : Session :=
  (create {} {} {} {}).run terminalSetup
    [.step, .step, .feed (delayedLine.toList.map fun c => c.toNat.toUInt8)]

/-- The name is bound when the result is known, and not if the unit is given up before. -/
theorem delayed_line_binds :
    ((answered.handle terminalSetup .step).run terminalSetup [.resolve]).context =
        answered.context.insert "x" .null ∧
      ((answered.handle terminalSetup .step).run terminalSetup [.interrupt, .step]).context =
        answered.context := by
  have hentries : answered.entries terminalSetup .step = [.compiled delayedLine] := by rfl
  have hcompiled : .compiled delayedLine ∈ answered.entries terminalSetup .step := by
    simp [hentries]
  obtain ⟨expr, hparse, houtcome⟩ : ∃ expr,
      Statement.parse delayedLine.toList = .ok (.assign "x" expr false) ∧
      ((Statement.assign "x" expr false).run answered.context).outcome = .ok (some .null) :=
    ⟨_, by rfl, by rfl⟩
  constructor
  · have hjournal : (answered.handle terminalSetup .step).journal terminalSetup [.resolve] = [] := by
      rfl
    have h := bindings_behind_line terminalSetup rfl answered .step delayedLine hcompiled [.resolve]
      (by simp [hjournal]) (by simp)
    exact (h.2.2.2.1 "x" expr false .null hparse houtcome (by rfl)).1
  · have hjournal : (answered.handle terminalSetup .step).journal terminalSetup
        [.interrupt, .step] = [] := by rfl
    have h := bindings_behind_line terminalSetup rfl answered .step delayedLine hcompiled
      [.interrupt, .step] (by simp [hjournal]) (by simp)
    have hfate : (answered.handle terminalSetup .step).fate terminalSetup [.interrupt, .step] =
        .abandoned := by rfl
    exact h.2.2.1 (by rw [hfate]; decide)

end Session
end PromptLoop
