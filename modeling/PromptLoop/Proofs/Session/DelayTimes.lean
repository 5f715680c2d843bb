import PromptLoop.Proofs.Lines.Representation
import PromptLoop.Proofs.Script.Respelling
import PromptLoop.Proofs.Session.Fulfilment

set_option autoImplicit false

namespace PromptLoop

theorem terminated_cons {b : UInt8} (hb : b ≠ separator) (piece : List UInt8) :
    terminated (b :: piece) = b :: terminated piece := by
  unfold terminated
  cases piece with
  | nil => simp [hb]
  | cons c rest =>
    rw [List.getLast?_cons_cons]
    split <;> rfl

theorem logicalLines_isLine (bytes : List UInt8) : ∀ line ∈ logicalLines bytes, IsLine line := by
  have hpieces : ∀ piece ∈ pieces bytes, ∃ line, separator ∉ line ∧
      terminated piece = line ++ [separator] := by
    induction bytes with
    | nil => simp [pieces]
    | cons b rest ih =>
      unfold pieces
      split
      · rename_i hb
        subst hb
        exact List.forall_mem_cons.2 ⟨⟨[], by simp, by simp [terminated]⟩, ih⟩
      · rename_i hb
        have hfront {piece line : List UInt8} (hl : separator ∉ line)
            (hp : terminated piece = line ++ [separator]) :
            ∃ line, separator ∉ line ∧ terminated (b :: piece) = line ++ [separator] := by
          refine ⟨b :: line, ?_, by rw [terminated_cons hb, hp]; rfl⟩
          simp [hl, Ne.symm hb]
        cases hrest : pieces rest with
        | nil =>
          simp only [List.forall_mem_singleton]
          exact hfront List.not_mem_nil rfl
        | cons piece more =>
          rw [hrest] at ih
          obtain ⟨⟨line, hl, hp⟩, hmore⟩ := List.forall_mem_cons.1 ih
          exact List.forall_mem_cons.2 ⟨hfront hl hp, hmore⟩
  intro text htext
  obtain ⟨piece, hpiece, rfl⟩ := List.mem_map.1 htext
  obtain ⟨line, hl, hp⟩ := hpieces piece hpiece
  simp only [hp]
  exact isLine_toText hl

variable {U V : Type}

structure Outlook.Coincides (k k' : Outlook) : Prop where
  log : k.log = k'.log
  context : k.context = k'.context
  result : k.result = k'.result

namespace Outlook.Coincides
variable {k k' : Outlook}

theorem refl (k : Outlook) : k.Coincides k := ⟨rfl, rfl, rfl⟩

theorem after (h : k.Coincides k') (deeds : List Deed) (compiled compiled' : List String) :
    (k.after deeds compiled).Coincides (k'.after deeds compiled') :=
  ⟨congrArg (deeds ++ ·) h.log, h.context, h.result⟩

end Outlook.Coincides

/-- Evaluators that come to the same, whatever time they take. -/
structure Evaluator.SameOutcomes (evaluator evaluator' : Evaluator U) : Prop where
  compile : evaluator.compile = evaluator'.compile
  outcome : ∀ unit context, (evaluator.execute unit context).1.outcome =
    (evaluator'.execute unit context).1.outcome
  context : ∀ unit context, (evaluator.execute unit context).2 =
    (evaluator'.execute unit context).2

/-- What two texts have in common that a session takes for the same. -/
inductive Evaluator.SameUnit (evaluator : Evaluator U) (evaluator' : Evaluator V)
    (source source' : String) : Prop
  | incomplete (h : evaluator.compile source = .incomplete)
      (h' : evaluator'.compile source' = .incomplete)
  | fatal (e : SessionError) (h : evaluator.compile source = .fatal e)
      (h' : evaluator'.compile source' = .fatal e)
  | ready (unit : U) (unit' : V) (declaration : Option Declaration)
      (h : evaluator.compile source = .ready unit declaration)
      (h' : evaluator'.compile source' = .ready unit' declaration)
      (ho : ∀ context, (evaluator.execute unit context).1.outcome =
        (evaluator'.execute unit' context).1.outcome)
      (hc : ∀ context, (evaluator.execute unit context).2 = (evaluator'.execute unit' context).2)

def Evaluator.atOnce (evaluator : Evaluator U) : Evaluator U where
  compile := evaluator.compile
  execute unit context :=
    (match (evaluator.execute unit context).1.outcome with
      | .ok v => .immediate v
      | .error e => .failed e,
    (evaluator.execute unit context).2)

theorem Evaluator.sameOutcomes_atOnce (evaluator : Evaluator U) :
    evaluator.SameOutcomes evaluator.atOnce where
  compile := rfl
  outcome unit context := by
    simp only [atOnce]
    cases (evaluator.execute unit context).1.outcome <;> rfl
  context _ _ := rfl

theorem Evaluator.SameOutcomes.unit {evaluator evaluator' : Evaluator U}
    (h : evaluator.SameOutcomes evaluator') (source : String) :
    evaluator.SameUnit evaluator' source source := by
  have hcompile := congrFun h.compile source
  cases hc : evaluator'.compile source with
  | incomplete => exact .incomplete (hcompile.trans hc) hc
  | fatal e => exact .fatal e (hcompile.trans hc) hc
  | ready unit declaration =>
    exact .ready unit unit declaration (hcompile.trans hc) hc (h.outcome unit) (h.context unit)

namespace Setup
variable {setup : Setup U} {evaluator : Evaluator V}

theorem display_coincides {k k' : Outlook} (h : k.Coincides k')
    (shown : Except SessionError (Option Value)) (context : Bindings Value) :
    (setup.display shown context k).Coincides
      ((setup.withEvaluator evaluator).display shown context k') := by
  cases shown with
  | error e =>
    unfold display
    dsimp only
    split
    · exact .refl _
    · exact h.after _ _ _
  | ok v =>
    cases v with
    | none => exact h
    | some v => exact h.after _ _ _

theorem handled_coincides {source source' : String}
    (hs : setup.evaluator.SameUnit evaluator source source')
    {next next' : Bindings Value → String → Outlook} (context : Bindings Value)
    (hfresh : setup.evaluator.compile source ≠ .incomplete →
      ∀ context, (next context "").Coincides (next' context ""))
    (hmore : setup.evaluator.compile source = .incomplete →
      (next context source).Coincides (next' context source')) :
    (setup.handled source context next).Coincides
      ((setup.withEvaluator evaluator).handled source' context next') := by
  unfold handled withEvaluator
  cases hs with
  | incomplete h h' =>
    simp only [h, h']
    exact hmore h
  | fatal e h h' =>
    simp only [h, h']
    exact display_coincides (hfresh (by simp [h]) context) (.error e) context
  | ready unit unit' declaration h h' ho hc =>
    simp only [h, h', ho, hc, concluded]
    exact display_coincides (hfresh (by simp [h]) _) _ _

/-- Whether an execution is over at once or pending makes no difference. -/
theorem outlook_withEvaluator {evaluator : Evaluator U} (h : setup.evaluator.SameOutcomes evaluator)
    (lines : List String) (context : Bindings Value) (accumulated : String) :
    (setup.outlook lines context accumulated).Coincides
      ((setup.withEvaluator evaluator).outlook lines context accumulated) := by
  induction lines generalizing context accumulated with
  | nil => exact .refl _
  | cons line rest ih =>
    have hhandled := handled_coincides (h.unit (accumulated ++ line)) context
      (fun _ => (ih · "")) fun _ => ih context _
    exact hhandled.after _ _ _

theorem outlook_withSource (setup : Setup U) (source : Source) (lines : List String)
    (context : Bindings Value) (accumulated : String) :
    { setup with source }.outlook lines context accumulated =
      setup.outlook lines context accumulated := by
  induction lines generalizing context accumulated with
  | nil => rfl
  | cons line rest ih =>
    have hrest : { setup with source }.outlook rest = setup.outlook rest := by
      funext context accumulated
      exact ih context accumulated
    simp only [outlook, hrest]
    rfl

end Setup

section Retimed
open Script

/-- The second lines are the first ones with other times in the delays of their units: only the
values of finite numbers differ, and each unit is the same tree but for the times of its delays.
What is malformed is not changed. In front of the lines stands what is unfinished before them. -/
inductive Retimed : String → String → List String → List String → Prop
  | nil (front front' : String) : Retimed front front' [] []
  | unfinished {front front' line line' : String} {rest rest' : List String}
      (hl : Respelled line.toList line'.toList)
      (hp : Statement.parse (front ++ line).toList = .error .unfinished)
      (h : Retimed (front ++ line) (front' ++ line') rest rest') :
      Retimed front front' (line :: rest) (line' :: rest')
  | unit {front front' line line' : String} {rest rest' : List String} {unit : Statement}
      (hl : Respelled line.toList line'.toList)
      (hp : Statement.parse (front ++ line).toList = .ok unit)
      (hu : ∀ unit', Statement.parse (front' ++ line').toList = .ok unit' →
        unit'.untimed = unit.untimed)
      (h : Retimed "" "" rest rest') :
      Retimed front front' (line :: rest) (line' :: rest')
  | malformed {front line : String} {rest rest' : List String} {cause : Malformed}
      (hp : Statement.parse (front ++ line).toList = .error (.malformed cause))
      (h : Retimed "" "" rest rest') :
      Retimed front front (line :: rest) (line :: rest')

inductive Joined : String → String → Prop
  | none : Joined "" ""
  | lines {body body' : List Char} (h : Respelled (body ++ ['\n']) (body' ++ ['\n'])) :
      Joined (String.ofList (body ++ ['\n'])) (String.ofList (body' ++ ['\n']))

namespace Joined
variable {front front' line line' : String}

theorem append (h : Joined front front') (hr : Respelled line.toList line'.toList) :
    Respelled (front ++ line).toList (front' ++ line').toList := by
  cases h with
  | none => simpa using hr
  | lines h =>
    rw [String.toList_append, String.toList_append, String.toList_ofList, String.toList_ofList]
    exact h.append hr

theorem concat (h : Joined front front') (hl : IsLine line) (hl' : IsLine line')
    (hr : Respelled line.toList line'.toList) : Joined (front ++ line) (front' ++ line') := by
  have hjoined := h.append hr
  obtain ⟨body, rfl, -⟩ := hl
  obtain ⟨body', rfl, -⟩ := hl'
  have hlines (front : String) (body : List Char) : front ++ String.ofList (body ++ ['\n']) =
      String.ofList (front.toList ++ body ++ ['\n']) := by
    apply String.toList_injective
    simp
  rw [hlines, hlines] at hjoined ⊢
  rw [String.toList_ofList, String.toList_ofList] at hjoined
  exact .lines hjoined

theorem eq_empty_iff (h : Joined front front') : front = "" ↔ front' = "" := by
  cases h with
  | none => rfl
  | lines h => simp

end Joined

theorem execution_outcome (run : Timed RuntimeError (Option Value)) :
    (execution run).outcome = run.outcome.mapError fun e => SessionError.runtime e.message := by
  unfold execution
  dsimp only
  split
  · rfl
  · generalize run.outcome.mapError _ = outcome
    cases outcome <;> rfl

theorem parse_of_standing {text text' : List Char} (h : Respelled text text') :
    (Statement.parse text = .error .unfinished → Statement.parse text' = .error .unfinished) ∧
      ∀ unit, Statement.parse text = .ok unit → ∃ unit', Statement.parse text' = .ok unit' := by
  have hs := h.standing
  generalize Statement.parse text' = x at hs ⊢
  refine ⟨fun hp => ?_, fun unit hp => ?_⟩
  · rw [hp] at hs
    rcases x with (_ | _) | _
    · rfl
    · cases hs
    · cases hs
  · rw [hp] at hs
    rcases x with (_ | _) | unit'
    · cases hs
    · cases hs
    · exact ⟨unit', rfl⟩

/-- Units that differ in the times of their delays are one to a session. -/
theorem sameUnit_of_untimed {source source' : String} {unit unit' : Statement}
    (hp : Statement.parse source.toList = .ok unit)
    (hp' : Statement.parse source'.toList = .ok unit') (hu : unit'.untimed = unit.untimed) :
    evaluator.SameUnit evaluator source source' := by
  have hdeclaration : unit'.declaration? = unit.declaration? := by
    rw [← unit'.declaration?_untimed, hu, unit.declaration?_untimed]
  have hrun (context : Bindings Value) :
      (unit.run context).outcome = (unit'.run context).outcome := by
    rw [← unit.run_untimed context (waitable_of_parse hp), ← hu,
      unit'.run_untimed context (waitable_of_parse hp')]
  refine .ready unit unit' unit.declaration? (compile_unit hp) ?_ (fun context => ?_) fun _ => rfl
  · rw [← hdeclaration]
    exact compile_unit hp'
  · simp only [evaluator, execution_outcome, hrun]

/-- One line of each: the prompts are the same, for both fronts are empty or neither is. -/
theorem outlook_cons_coincides {setup : Setup Statement} (he : setup.evaluator = evaluator)
    (hecho : setup.echo = false) {front front' line line' : String} {rest rest' : List String}
    (hf : front = "" ↔ front' = "")
    (hu : evaluator.SameUnit evaluator (front ++ line) (front' ++ line')) (context : Bindings Value)
    (hfresh : compile (front ++ line) ≠ .incomplete →
      ∀ context, (setup.outlook rest context "").Coincides (setup.outlook rest' context ""))
    (hmore : compile (front ++ line) = .incomplete →
      (setup.outlook rest context (front ++ line)).Coincides
        (setup.outlook rest' context (front' ++ line'))) :
    (setup.outlook (line :: rest) context front).Coincides
      (setup.outlook (line' :: rest') context front') := by
  have hopening : setup.opening front line = setup.opening front' line' := by
    simp only [Setup.opening, hecho, Setup.promptAt, Session.promptText, hf]
    rfl
  have hsame : setup.withEvaluator evaluator = setup := by
    rw [← he]
    rfl
  have hcompile : setup.evaluator.compile = compile := by
    rw [he]
    rfl
  have hunit : setup.evaluator.SameUnit evaluator (front ++ line) (front' ++ line') := by
    rw [he]
    exact hu
  have hhandled : (setup.handled (front ++ line) context (setup.outlook rest)).Coincides
      ((setup.withEvaluator evaluator).handled (front' ++ line') context (setup.outlook rest')) :=
    Setup.handled_coincides hunit context (by rwa [hcompile]) (by rwa [hcompile])
  rw [hsame] at hhandled
  simp only [Setup.outlook, ← hopening]
  exact hhandled.after _ _ _

theorem outlook_retimed {setup : Setup Statement} (he : setup.evaluator = evaluator)
    (hecho : setup.echo = false) {front front' : String} {lines lines' : List String}
    (h : Retimed front front' lines lines') (hj : Joined front front')
    (hl : ∀ line ∈ lines, IsLine line) (hl' : ∀ line ∈ lines', IsLine line)
    (context : Bindings Value) :
    (setup.outlook lines context front).Coincides (setup.outlook lines' context front') := by
  induction h generalizing context with
  | nil front front' => exact .refl _
  | unfinished hr hp h ih =>
    obtain ⟨hline, hrest⟩ := List.forall_mem_cons.1 hl
    obtain ⟨hline', hrest'⟩ := List.forall_mem_cons.1 hl'
    have hp' := (parse_of_standing (hj.append hr)).1 hp
    have hc := compile_unfinished hp
    exact outlook_cons_coincides he hecho hj.eq_empty_iff (.incomplete hc (compile_unfinished hp'))
      context (absurd hc) fun _ => ih (hj.concat hline hline' hr) hrest hrest' context
  | unit hr hp hu h ih =>
    obtain ⟨-, hrest⟩ := List.forall_mem_cons.1 hl
    obtain ⟨-, hrest'⟩ := List.forall_mem_cons.1 hl'
    obtain ⟨unit', hp'⟩ := (parse_of_standing (hj.append hr)).2 _ hp
    have hc := compile_unit hp
    refine outlook_cons_coincides he hecho hj.eq_empty_iff
      (sameUnit_of_untimed hp hp' (hu unit' hp')) context
      (fun _ context => ih .none hrest hrest' context) fun hn => ?_
    rw [hc] at hn
    cases hn
  | malformed hp h ih =>
    obtain ⟨-, hrest⟩ := List.forall_mem_cons.1 hl
    obtain ⟨-, hrest'⟩ := List.forall_mem_cons.1 hl'
    have hc := compile_malformed hp
    refine outlook_cons_coincides he hecho Iff.rfl (.fatal _ hc hc) context
      (fun _ context => ih .none hrest hrest' context) fun hn => ?_
    rw [hc] at hn
    cases hn

end Retimed

namespace Session

structure SameEnd (a : Setup U) (b : Setup V) (s : Session) (events events' : List SessionEvent) :
    Prop where
  output : (s.run a events).output = (s.run b events').output
  errors : (s.run a events).errors = (s.run b events').errors
  context : (s.run a events).context = (s.run b events').context
  result : (s.run a events).result? = (s.run b events').result?

/-- Left to themselves two sessions come to their ends, given enough steps and results, and wherever
they have come to their ends these are the same. -/
structure EndsAlike (a : Setup U) (b : Setup V) (s : Session) : Prop where
  ends : ∀ events : List SessionEvent, (∀ e ∈ events, e.Driven) →
    (List.replicate (6 * max a.source.lines.length b.source.lines.length + 4)
      [SessionEvent.step, .resolve]).flatten.Sublist events →
    (s.run a events).result? ≠ none ∧ (s.run b events).result? ≠ none
  same : ∀ events events' : List SessionEvent, (∀ e ∈ events, e.Driven) →
    (∀ e ∈ events', e.Driven) → (s.run a events).result? ≠ none →
    (s.run b events').result? ≠ none → SameEnd a b s events events'

theorem create_endsAlike {a : Setup U} {b : Setup V} (ha : a.source ≠ .stream)
    (hb : b.source ≠ .stream) (o : Options) (host : Host) {output errors : Sink}
    (ho : ¬ output.MayFail) (he : ¬ errors.MayFail)
    (h : ((create o host output errors).outlook a).Coincides
      ((create o host output errors).outlook b)) :
    (create o host output errors).EndsAlike a b := by
  have hfirst : (create o host output errors).Unattended a := create_unattended o host ho he ha
  have hsecond : (create o host output errors).Unattended b := create_unattended o host ho he hb
  constructor
  · intro events hdriven hrounds
    have ha : (create o host output errors).measure a ≤
        6 * max a.source.lines.length b.source.lines.length + 4 :=
      Nat.add_le_add_right (Nat.mul_le_mul_left 6 (Nat.le_max_left _ _)) 4
    have hb : (create o host output errors).measure b ≤
        6 * max a.source.lines.length b.source.lines.length + 4 :=
      Nat.add_le_add_right (Nat.mul_le_mul_left 6 (Nat.le_max_right _ _)) 4
    exact ⟨(Unattended.rounds events hdriven).1 _ hfirst _ ha hrounds,
      (Unattended.rounds events hdriven).1 _ hsecond _ hb hrounds⟩
  · intro events events' hd hd' hr hr'
    have hfulfilled := hfirst.fulfils hd hr
    have hfulfilled' := hsecond.fulfils hd' hr'
    have hsink (v : Outlet) : ((create o host output errors).run a events).sink v =
        ((create o host output errors).run b events').sink v := by
      rw [run_sink, run_sink, hfulfilled.log, hfulfilled'.log, h.log]
    exact ⟨hsink .output, hsink .errors,
      hfulfilled.context.trans (h.context.trans hfulfilled'.context.symm),
      hfulfilled.result.trans ((congrArg some h.result).trans hfulfilled'.result.symm)⟩

theorem create_outlook_text (setup : Setup U) (o : Options) (host : Host) (output errors : Sink)
    (bytes : List UInt8) :
    (create o host output errors).outlook { setup with source := .text bytes } =
      setup.outlook (logicalLines bytes) (create o host output errors).context "" :=
  Setup.outlook_withSource setup (.text bytes) _ _ _

theorem create_outlook_withEvaluator {setup : Setup U} {evaluator : Evaluator U}
    (h : setup.evaluator.SameOutcomes evaluator) (o : Options) (host : Host)
    (output errors : Sink) :
    ((create o host output errors).outlook setup).Coincides
      ((create o host output errors).outlook (setup.withEvaluator evaluator)) := by
  unfold Session.outlook
  simp only [create, Setup.withEvaluator_source]
  cases setup.source.content with
  | ok bytes => exact Setup.outlook_withEvaluator h _ _ _
  | error e => exact .refl _

/-- Two sessions between terminals over texts that differ only in the times of delays come to the
same, and so do any two whose evaluators come to the same for every unit, whether at once or not. -/
theorem delays_change_only_time (o : Options) (host : Host) {output errors : Sink}
    (ho : ¬ output.MayFail) (he : ¬ errors.MayFail) :
    (∀ (here : Surroundings) (bytes bytes' : List UInt8) (a b : Setup Script.Statement),
      (o.withTerminal true true).setup? here (.text bytes) Script.evaluator = .ok a →
      (o.withTerminal true true).setup? here (.text bytes') Script.evaluator = .ok b →
      Retimed "" "" (logicalLines bytes) (logicalLines bytes') →
      (create (o.withTerminal true true) host output errors).EndsAlike a b) ∧
    ∀ {U : Type} (setup : Setup U) (evaluator : Evaluator U), setup.source ≠ .stream →
      setup.evaluator.SameOutcomes evaluator →
      (create o host output errors).EndsAlike setup (setup.withEvaluator evaluator) := by
  constructor
  · intro here bytes bytes' a b ha hb hr
    have hsetup : a.evaluator = Script.evaluator ∧ a.echo = false ∧
        a = { a with source := .text bytes } ∧ b = { a with source := .text bytes' } := by
      unfold Options.setup? Options.validate Options.withTerminal at ha hb
      by_cases hp : o.prompt = ""
      · simp [hp, Except.map] at ha
      · simp only [hp, if_false, Except.map, Except.ok.injEq] at ha hb
        subst ha hb
        exact ⟨rfl, rfl, rfl, rfl⟩
    obtain ⟨hevaluator, hecho, htext, htext'⟩ := hsetup
    refine create_endsAlike (by rw [htext]; simp) (by rw [htext']; simp) _ host ho he ?_
    rw [htext, htext', create_outlook_text, create_outlook_text]
    exact outlook_retimed hevaluator hecho hr .none (logicalLines_isLine bytes)
      (logicalLines_isLine bytes') _
  · intro U setup evaluator hsource h
    have hother : (setup.withEvaluator evaluator).source ≠ .stream := hsource
    exact create_endsAlike hsource hother o host ho he
      (create_outlook_withEvaluator h o host output errors)

open Script in
/-- A time on the second line of a unit is replaced, or not waited for. -/
theorem delay_of_five_or_seventy :
    ∃ a b : Setup Statement,
      (Options.withTerminal {} true true).setup? {}
        (.text [100, 101, 108, 97, 121, 40, 10, 53, 44, 32, 49, 41, 10]) evaluator = .ok a ∧
      (Options.withTerminal {} true true).setup? {}
        (.text [100, 101, 108, 97, 121, 40, 10, 55, 48, 44, 32, 49, 41, 10]) evaluator = .ok b ∧
      (create (Options.withTerminal {} true true) {} {} {}).EndsAlike a b ∧
      (create {} {} {} {}).EndsAlike a (a.withEvaluator evaluator.atOnce) := by
  refine ⟨_, _, rfl, rfl, ?_, ?_⟩
  · refine (delays_change_only_time {} {} (by simp [Sink.MayFail]) (by simp [Sink.MayFail])).1 {}
      [100, 101, 108, 97, 121, 40, 10, 53, 44, 32, 49, 41, 10]
      [100, 101, 108, 97, 121, 40, 10, 55, 48, 44, 32, 49, 41, 10] _ _ rfl rfl ?_
    have hlines : logicalLines [100, 101, 108, 97, 121, 40, 10, 53, 44, 32, 49, 41, 10] =
        ["delay(\n", "5, 1)\n"] := by decide +kernel
    have hlines' : logicalLines [100, 101, 108, 97, 121, 40, 10, 55, 48, 44, 32, 49, 41, 10] =
        ["delay(\n", "70, 1)\n"] := by decide +kernel
    have hscan : Token.scan "5, 1)\n".toList =
        .ok [.number (some ⟨false, 5629499534213120, -50⟩), .symbol .comma,
          .number (some ⟨false, 4503599627370496, -52⟩), .symbol .closeParen] := rfl
    have hscan' : Token.scan "70, 1)\n".toList =
        .ok [.number (some ⟨false, 4925812092436480, -46⟩), .symbol .comma,
          .number (some ⟨false, 4503599627370496, -52⟩), .symbol .closeParen] := rfl
    have hfront : Token.scan "delay(\n".toList = .ok [.word "delay", .symbol .openParen] := rfl
    have hparse : Statement.parse ("" ++ "delay(\n" ++ "5, 1)\n").toList = .ok (.expr (.call "delay"
        [.literal (.ofBinary64? (some ⟨false, 5629499534213120, -50⟩)),
          .literal (.ofBinary64? (some ⟨false, 4503599627370496, -52⟩))])) := rfl
    have hparse' : Statement.parse ("" ++ "delay(\n" ++ "70, 1)\n").toList =
        .ok (.expr (.call "delay"
          [.literal (.ofBinary64? (some ⟨false, 4925812092436480, -46⟩)),
            .literal (.ofBinary64? (some ⟨false, 4503599627370496, -52⟩))])) := rfl
    rw [hlines, hlines']
    refine .unfinished ⟨_, _, hfront, hfront, rfl⟩ rfl
      (.unit ⟨_, _, hscan, hscan', rfl⟩ hparse (fun unit' h => ?_) (.nil _ _))
    rw [hparse'] at h
    cases h
    rfl
  · exact (delays_change_only_time {} {} (by simp [Sink.MayFail]) (by simp [Sink.MayFail])).2 _ _
      (by simp) (evaluator.sameOutcomes_atOnce)

end Session
end PromptLoop
