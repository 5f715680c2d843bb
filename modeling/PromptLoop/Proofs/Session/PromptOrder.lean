import PromptLoop.Proofs.Session.Fulfilment

set_option autoImplicit false

namespace PromptLoop

/-- The second log has these lines echoed behind the prompts of the first one, one line behind each
prompt. -/
inductive Echoed : List String → List Deed → List Deed → Prop
  | nil : Echoed [] [] []
  | prompt {line text : String} {failure : Option String} {lines : List String}
      {log log' : List Deed} (h : Echoed lines log log') :
      Echoed (line :: lines) (.wrote .prompt text failure :: log)
        (.wrote .prompt text failure :: .wrote .echo line none :: log')
  | other {d : Deed} {lines : List String} {log log' : List Deed}
      (hd : ∀ text failure, d ≠ .wrote .prompt text failure ∧ d ≠ .wrote .echo text failure)
      (h : Echoed lines log log') : Echoed lines (d :: log) (d :: log')

def Deed.text (v : Outlet) : Deed → String
  | .wrote occasion text _ => if occasion.outlet = v then text else ""
  | .closed _ _ => ""

def textOf (v : Outlet) : List Deed → String
  | [] => ""
  | d :: rest => d.text v ++ textOf v rest

namespace Echoed
variable {lines : List String} {log log' : List Deed}

theorem foldl_errors (h : Echoed lines log log') (x : Sink) :
    log.foldl (Deed.onto .errors) x = log'.foldl (Deed.onto .errors) x := by
  induction h generalizing x with
  | nil => rfl
  | prompt h ih => simp [Deed.onto, Occasion.outlet, ih]
  | other hd h ih => exact ih _

end Echoed

/-- A sink that takes everything has the texts of the log behind what it had. -/
theorem foldl_onto_written {x : Sink} (hx : ¬ x.MayFail) (v : Outlet) (log : List Deed) :
    (log.foldl (Deed.onto v) x).written = x.written ++ (textOf v log).toUTF8 := by
  induction log generalizing x with
  | nil => simp [textOf]
  | cons d rest ih =>
    have hnext : ¬ (d.onto v x).MayFail ∧
        (d.onto v x).written = x.written ++ (d.text v).toUTF8 := by
      cases d with
      | wrote occasion text failure =>
        by_cases hv : occasion.outlet = v
        · simp only [Deed.onto, Deed.text, if_pos hv, Sink.write_of_steady hx]
          exact ⟨hx, trivial⟩
        · simp only [Deed.onto, Deed.text, if_neg hv]
          exact ⟨hx, by simp⟩
      | closed w failure =>
        by_cases hv : w = v
        · simp only [Deed.onto, Deed.text, if_pos hv]
          exact ⟨hx, by simp⟩
        · simp only [Deed.onto, Deed.text, if_neg hv]
          exact ⟨hx, by simp⟩
    rw [List.foldl_cons, ih hnext.1, hnext.2]
    simp [textOf, ByteArray.append_assoc]

/-- The same course, but for the echoes of some of these lines, from the first one on. -/
structure Outlook.Agrees (lines : List String) (k k' : Outlook) : Prop where
  log : ∃ taken, taken <+: lines ∧ Echoed taken k.log k'.log
  compiled : k.compiled = k'.compiled
  context : k.context = k'.context
  result : k.result = k'.result

namespace Outlook
variable {U : Type} {lines : List String} {k k' : Outlook}

theorem closing_agrees (context : Bindings Value) (result : SessionResult) :
    (closing context result).Agrees lines (closing context result) :=
  ⟨⟨[], List.nil_prefix, .other (by simp) (.other (by simp) .nil)⟩, rfl, rfl, rfl⟩

theorem Agrees.after (h : k.Agrees lines k') {d : Deed}
    (hd : ∀ text failure, d ≠ .wrote .prompt text failure ∧ d ≠ .wrote .echo text failure) :
    (k.after [d] []).Agrees lines (k'.after [d] []) := by
  obtain ⟨taken, hprefix, hechoed⟩ := h.log
  exact ⟨⟨taken, hprefix, .other hd hechoed⟩, h.compiled, h.context, h.result⟩

/-- A line is prompted for in both, echoed in one, and compiled with what was unfinished. -/
theorem Agrees.line (h : k.Agrees lines k') (prompt line source : String) :
    (k.after [.wrote .prompt prompt none] [source]).Agrees (line :: lines)
      (k'.after [.wrote .prompt prompt none, .wrote .echo line none] [source]) := by
  obtain ⟨taken, hprefix, hechoed⟩ := h.log
  exact ⟨⟨line :: taken, List.cons_prefix_cons.2 ⟨rfl, hprefix⟩, .prompt hechoed⟩,
    congrArg (source :: ·) h.compiled, h.context, h.result⟩

end Outlook

namespace Setup
variable {U : Type}

def withEcho (setup : Setup U) (echo : Bool) : Setup U :=
  { setup with echo }

variable {setup : Setup U} {lines : List String}

theorem display_agrees (setup : Setup U) {k k' : Outlook} (h : k.Agrees lines k')
    (shown : Except SessionError (Option Value)) (context : Bindings Value) (echo echo' : Bool) :
    ((setup.withEcho echo).display shown context k).Agrees lines
      ((setup.withEcho echo').display shown context k') := by
  cases shown with
  | error e =>
    unfold display
    dsimp only
    split
    · exact Outlook.closing_agrees context _
    · exact h.after (by simp)
  | ok v =>
    cases v with
    | none => exact h
    | some v => exact h.after (by simp)

theorem handled_agrees (setup : Setup U) {next next' : Bindings Value → String → Outlook}
    (h : ∀ context accumulated, (next context accumulated).Agrees lines (next' context accumulated))
    (source : String) (context : Bindings Value) (echo echo' : Bool) :
    ((setup.withEcho echo).handled source context next).Agrees lines
      ((setup.withEcho echo').handled source context next') := by
  have hshown (shown : Except SessionError (Option Value)) (context : Bindings Value)
      (accumulated : String) :=
    display_agrees setup (h context accumulated) shown context echo echo'
  cases hc : setup.evaluator.compile source with
  | incomplete =>
    simp only [handled, withEcho, hc]
    exact h context source
  | fatal e =>
    simp only [handled, withEcho, hc]
    exact hshown (.error e) context ""
  | ready unit declaration =>
    simp only [handled, withEcho, hc, concluded]
    exact hshown _ _ ""

/-- Over any lines, the two orders have the same course. -/
theorem outlook_agrees (lines : List String) (context : Bindings Value) (accumulated : String) :
    ((setup.withEcho false).outlook lines context accumulated).Agrees lines
      ((setup.withEcho true).outlook lines context accumulated) := by
  induction lines generalizing context accumulated with
  | nil => exact Outlook.closing_agrees context _
  | cons line rest ih =>
    have hhandled := handled_agrees setup ih (accumulated ++ line) context false true
    exact hhandled.line _ line _

end Setup

/-- What the options say of the ends decides about the echo alone, if they choose the colors. -/
theorem Options.setup?_withTerminal {U : Type} {o : Options} {c : Bool} (hc : o.colors = some c)
    {source : Source} {evaluator : Evaluator U} {here there : Surroundings} {i t i' t' : Bool}
    {a b : Setup U} (ha : (o.withTerminal i t).setup? here source evaluator = .ok a)
    (hb : (o.withTerminal i' t').setup? there source evaluator = .ok b) :
    a.source = source ∧ a = a.withEcho (!(i && t)) ∧ b = a.withEcho (!(i' && t')) := by
  unfold Options.setup? Options.validate Options.withTerminal at ha hb
  by_cases hp : o.prompt = ""
  · simp [hp, Except.map] at ha
  · simp only [hp, hc, if_false, Except.map, Option.getD_some, Except.ok.injEq] at ha hb
    subst ha hb
    exact ⟨rfl, rfl, rfl⟩

namespace Session
variable {U : Type}

/-- Two runs of sessions, the first of which prompts before it reads, that have come to the same. -/
structure SameCourse (a b : Setup U) (s s' : Session) (events events' : List SessionEvent) :
    Prop where
  /-- What is written is the same, but for the lines that are echoed behind their prompts. -/
  log : ∃ taken, taken <+: a.source.lines ∧ Echoed taken (s.log a events) (s'.log b events')
  output : (s.run a events).output.written =
    s.output.written ++ (textOf .output (s.log a events)).toUTF8
  echoing : (s'.run b events').output.written =
    s'.output.written ++ (textOf .output (s'.log b events')).toUTF8
  errors : (s.run a events).errors = (s'.run b events').errors
  compiled : s.compiled a events = s'.compiled b events'
  context : (s.run a events).context = (s'.run b events').context
  result : (s.run a events).result? = (s'.run b events').result?

theorem run_output_written {setup : Setup U} {s : Session} (ho : ¬ s.output.MayFail)
    (events : List SessionEvent) : (s.run setup events).output.written =
      s.output.written ++ (textOf .output (s.log setup events)).toUTF8 := by
  have hsink : (s.run setup events).output =
      (s.log setup events).foldl (Deed.onto .output) s.output := run_sink s events .output
  rw [hsink, foldl_onto_written ho]

theorem create_outlook_agrees (setup : Setup U) (o : Options) (host : Host) (output errors : Sink) :
    ((create o host output errors).outlook (setup.withEcho false)).Agrees setup.source.lines
      ((create o host output errors).outlook (setup.withEcho true)) := by
  unfold Session.outlook Source.lines
  simp only [create, Setup.withEcho]
  cases setup.source.content with
  | ok bytes => exact Setup.outlook_agrees _ _ _
  | error e => exact Outlook.closing_agrees _ _

/-- Over a text or a file, a session between two terminals and one with an end that is none do the
same, but for the echo, and both come to their ends. -/
theorem prompt_orders_agree (o : Options) {c : Bool} (hcolors : o.colors = some c)
    (source : Source) (hsource : source ≠ .stream) (evaluator : Evaluator U)
    (here there : Surroundings) {i t : Bool} (hends : (i && t) = false) {a b : Setup U}
    (ha : (o.withTerminal true true).setup? here source evaluator = .ok a)
    (hb : (o.withTerminal i t).setup? there source evaluator = .ok b)
    (host : Host) (output errors : Sink) (ho : ¬ output.MayFail) (he : ¬ errors.MayFail) :
    let s := create (o.withTerminal true true) host output errors
    let s' := create (o.withTerminal i t) host output errors
    (∀ events : List SessionEvent, (∀ e ∈ events, e.Driven) →
      (List.replicate (6 * source.lines.length + 4)
        [SessionEvent.step, .resolve]).flatten.Sublist events →
      (s.run a events).result? ≠ none ∧ (s'.run b events).result? ≠ none) ∧
    ∀ events events' : List SessionEvent, (∀ e ∈ events, e.Driven) → (∀ e ∈ events', e.Driven) →
      (s.run a events).result? ≠ none → (s'.run b events').result? ≠ none →
      SameCourse a b s s' events events' := by
  intro s s'
  obtain ⟨hsrc, hprompting, hechoing⟩ := Options.setup?_withTerminal hcolors ha hb
  rw [Bool.and_self, Bool.not_true] at hprompting
  rw [hends, Bool.not_false] at hechoing
  have hunattended (setup : Setup U) (hs : setup.source = source) : s.Unattended setup :=
    create_unattended _ host ho he (hs ▸ hsource)
  have hmeasure (setup : Setup U) (hs : setup.source = source) :
      s.measure setup ≤ 6 * source.lines.length + 4 := by
    rw [← hs]
    exact Nat.le_refl _
  have hbsrc : b.source = source := by
    rw [hechoing]
    exact hsrc
  refine ⟨fun events hdriven hrounds => ⟨?_, ?_⟩, fun events events' hd hd' hr hr' => ?_⟩
  · exact (Unattended.rounds events hdriven).1 s (hunattended a hsrc) _ (hmeasure a hsrc) hrounds
  · exact (Unattended.rounds events hdriven).1 s (hunattended b hbsrc) _ (hmeasure b hbsrc) hrounds
  · have hfirst := (hunattended a hsrc).fulfils hd hr
    have hsecond := (hunattended b hbsrc).fulfils hd' hr'
    have hagrees : (s.outlook a).Agrees a.source.lines (s.outlook b) := by
      have h := create_outlook_agrees a (o.withTerminal true true) host output errors
      rwa [← hechoing, ← hprompting] at h
    obtain ⟨taken, hprefix, hechoed⟩ := hagrees.log
    rw [← hfirst.log, ← hsecond.log] at hechoed
    refine ⟨⟨taken, hprefix, hechoed⟩, run_output_written ho events, run_output_written ho events',
      ?_, ?_, ?_, ?_⟩
    · calc (s.run a events).errors
          = (s.log a events).foldl (Deed.onto .errors) s.errors := run_sink s events .errors
        _ = (s'.log b events').foldl (Deed.onto .errors) s.errors := hechoed.foldl_errors _
        _ = (s'.run b events').errors := (run_sink s' events' .errors).symm
    · exact hfirst.compiled.trans (hagrees.compiled.trans hsecond.compiled.symm)
    · exact hfirst.context.trans (hagrees.context.trans hsecond.context.symm)
    · exact hfirst.result.trans ((congrArg some hagrees.result).trans hsecond.result.symm)

/-- A unit on two lines, an error and a value. -/
theorem both_orders_of_four_lines :
    ∃ a b : Setup Script.Statement,
      (Options.withTerminal { colors := some false } true true).setup? {}
        (.text [91, 10, 93, 10, 41, 10, 49, 10]) Script.evaluator = .ok a ∧
      (Options.withTerminal { colors := some false } true false).setup? {}
        (.text [91, 10, 93, 10, 41, 10, 49, 10]) Script.evaluator = .ok b ∧
      SameCourse a b (create {} {} {} {}) (create {} {} {} {})
        (List.replicate 28 [SessionEvent.step, .resolve]).flatten
        (List.replicate 28 [SessionEvent.step, .resolve]).flatten := by
  refine ⟨_, _, rfl, rfl, ?_⟩
  have hdriven : ∀ e ∈ (List.replicate 28 [SessionEvent.step, .resolve]).flatten, e.Driven := by
    simp [SessionEvent.Driven]
  have h := prompt_orders_agree { colors := some false } rfl
    (.text [91, 10, 93, 10, 41, 10, 49, 10]) (by simp) Script.evaluator {} {} (i := true)
    (t := false) rfl rfl rfl {} {} {} (by simp [Sink.MayFail]) (by simp [Sink.MayFail])
  have hends := h.1 _ hdriven (List.Sublist.refl _)
  exact h.2 _ _ hdriven hdriven hends.1 hends.2

end Session
end PromptLoop
