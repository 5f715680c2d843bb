import PromptLoop.Proofs.Session.Journal
import PromptLoop.Proofs.Session.ReadProtocol

set_option autoImplicit false

namespace PromptLoop

variable {U : Type}

namespace Entry

def delivered? : Entry → Option String
  | .delivered line => some line
  | _ => none

def lost? : Entry → Option String
  | .lost line => some line
  | _ => none

/-- The text of a unit that is finished: it got a verdict, or a marker dropped it. -/
def unit? (setup : Setup U) : Entry → Option String
  | .compiled source =>
    match setup.evaluator.compile source with
    | .incomplete => none
    | _ => some source
  | .dropped text => some text
  | _ => none

def isHandled : Entry → Bool
  | .compiled _ => true
  | .dropped _ => true
  | _ => false

theorem unit?_compiled_incomplete {setup : Setup U} {source : String}
    (h : setup.evaluator.compile source = .incomplete) : (compiled source).unit? setup = none := by
  simp only [unit?, h]

theorem unit?_compiled {setup : Setup U} {source : String}
    (h : setup.evaluator.compile source ≠ .incomplete) :
    (compiled source).unit? setup = some source := by
  cases hc : setup.evaluator.compile source with
  | incomplete => exact absurd hc h
  | fatal e => simp only [unit?, hc]
  | ready unit declaration => simp only [unit?, hc]

end Entry

def deliveredLines (journal : List Entry) : List String :=
  journal.filterMap Entry.delivered?

def lostLines (journal : List Entry) : List String :=
  journal.filterMap Entry.lost?

def unitTexts (setup : Setup U) (journal : List Entry) : List String :=
  journal.filterMap (Entry.unit? setup)

@[simp] theorem deliveredLines_concat (journal : List Entry) (e : Entry) :
    deliveredLines (journal ++ [e]) = deliveredLines journal ++ e.delivered?.toList := by
  cases h : e.delivered? <;> simp [deliveredLines, h]

@[simp] theorem lostLines_concat (journal : List Entry) (e : Entry) :
    lostLines (journal ++ [e]) = lostLines journal ++ e.lost?.toList := by
  cases h : e.lost? <;> simp [lostLines, h]

@[simp] theorem unitTexts_concat (setup : Setup U) (journal : List Entry) (e : Entry) :
    unitTexts setup (journal ++ [e]) = unitTexts setup journal ++ (e.unit? setup).toList := by
  cases h : e.unit? setup <;> simp [unitTexts, h]

/-- The last line that was handled is the end of an incomplete text, and no marker was handled
since. -/
def LeftOpen (setup : Setup U) (journal : List Entry) : Prop :=
  ∃ source, (journal.filter Entry.isHandled).getLast? = some (.compiled source) ∧
    setup.evaluator.compile source = .incomplete

def Answer.lines : Answer → List String
  | .line l => if l = interruptMarker then [] else [l]
  | _ => []

def Phase.inHand : Phase → List String
  | .awaiting (some a) => a.lines
  | .prompting (some l) => [l]
  | .echoing l => [l]
  | _ => []

theorem Phase.Behind.inHand {E : SessionError → Prop} {p : Phase} (h : p.Behind E) :
    p.inHand = [] := by
  cases p with
  | awaiting a => exact False.elim h
  | prompting line => exact False.elim h
  | echoing line => exact False.elim h
  | _ => rfl

theorem Phase.inHand_of_isPending {p : Phase} (h : p.isPending = true) : p.inHand = [] := by
  cases p with
  | pending declaration d interrupted => rfl
  | _ => simp [isPending] at h

theorem join_map_join (groups : List (List String)) :
    String.join (groups.map String.join) = String.join groups.flatten := by
  induction groups with
  | nil => rfl
  | cons first later ih => simp [ih]

/-- The lines that were handed out are those of the finished units, then those of the unfinished
text, the line in hand and the one that was lost. -/
structure Shares (setup : Setup U) (journal : List Entry) (accumulated : String)
    (hand : List String) : Prop where
  unfinished : accumulated = "" ∨ setup.evaluator.compile accumulated = .incomplete
  left_open : accumulated ≠ "" ↔ LeftOpen setup journal
  shared : ∃ (groups : List (List String)) (rest : List String),
    groups.flatten ++ rest ++ hand ++ lostLines journal = deliveredLines journal ∧
    groups.map String.join = unitTexts setup journal ∧ String.join rest = accumulated
  lines : ∀ l ∈ hand, l ≠ interruptMarker

section Shares
variable {setup : Setup U} {journal : List Entry} {accumulated l : String}

theorem Shares.empty : Shares setup [] "" [] where
  unfinished := .inl rfl
  left_open := by simp [LeftOpen]
  shared := ⟨[], [], rfl, rfl, rfl⟩
  lines := by simp

theorem Shares.answer (h : Shares setup journal accumulated []) (hl : lostLines journal = [])
    (a : Answer) :
    Shares setup (journal ++ a.entries) accumulated a.lines ∧
      lostLines (journal ++ a.entries) = [] := by
  have hnone : Shares setup (journal ++ []) accumulated [] ∧ lostLines (journal ++ []) = [] := by
    rw [List.append_nil]
    exact ⟨h, hl⟩
  cases a with
  | failed message => exact hnone
  | ended => exact hnone
  | line l =>
    by_cases hm : l = interruptMarker
    · simp only [Answer.entries, Answer.lines, if_pos hm]
      exact hnone
    · simp only [Answer.entries, Answer.lines, if_neg hm]
      obtain ⟨groups, rest, hd, hu, hr⟩ := h.shared
      have hlost : lostLines (journal ++ [.delivered l]) = [] := by simp [Entry.lost?, hl]
      refine ⟨⟨h.unfinished, ?_, ⟨groups, rest, ?_, ?_, hr⟩, ?_⟩, hlost⟩
      · rw [h.left_open]
        simp [LeftOpen, Entry.isHandled]
      · rw [hl, List.append_nil, List.append_nil] at hd
        simp [hlost, Entry.delivered?, ← hd]
      · simpa [Entry.unit?] using hu
      · simpa using hm

theorem Shares.compile (h : Shares setup journal accumulated [l]) (context : Bindings Value) :
    Shares setup (journal ++ [.compiled (accumulated ++ l)])
      (setup.landing (accumulated ++ l) context).accumulated [] := by
  obtain ⟨groups, rest, hd, hu, hr⟩ := h.shared
  have hne : accumulated ++ l ≠ "" := by
    intro he
    exact h.lines l (by simp) (String.append_eq_empty_iff.1 he).2
  have hopen : LeftOpen setup (journal ++ [.compiled (accumulated ++ l)]) ↔
      setup.evaluator.compile (accumulated ++ l) = .incomplete := by
    simp [LeftOpen, Entry.isHandled]
  -- The line joins those of the unfinished text, or it completes them to a group.
  rcases setup.landing_cases (accumulated ++ l) context with ⟨hc, heq⟩ | ⟨hc, hnone, -⟩
  · rw [heq]
    refine ⟨.inr hc, by simp [hopen, hc, hne], ⟨groups, rest ++ [l], ?_, ?_, ?_⟩, by simp⟩
    · simpa [Entry.lost?, Entry.delivered?] using hd
    · simpa [Entry.unit?_compiled_incomplete hc] using hu
    · simp [hr]
  · rw [hnone]
    refine ⟨.inl rfl, by simp [hopen, hc], ⟨groups ++ [rest ++ [l]], [], ?_, ?_, rfl⟩, by simp⟩
    · simpa [Entry.lost?, Entry.delivered?] using hd
    · simpa [Entry.unit?_compiled hc, hr] using hu

theorem Shares.drop (h : Shares setup journal accumulated []) :
    Shares setup (journal ++ [.dropped accumulated]) "" [] := by
  obtain ⟨groups, rest, hd, hu, hr⟩ := h.shared
  refine ⟨.inl rfl, by simp [LeftOpen, Entry.isHandled], ⟨groups ++ [rest], [], ?_, ?_, rfl⟩,
    by simp⟩
  · simpa [Entry.lost?, Entry.delivered?] using hd
  · simpa [Entry.unit?, hr] using hu

theorem Shares.lose (h : Shares setup journal accumulated [l]) (hl : lostLines journal = []) :
    Shares setup (journal ++ [.lost l]) accumulated [] ∧
      lostLines (journal ++ [.lost l]) = [l] := by
  obtain ⟨groups, rest, hd, hu, hr⟩ := h.shared
  have hlost : lostLines (journal ++ [.lost l]) = [l] := by simp [Entry.lost?, hl]
  refine ⟨⟨h.unfinished, ?_, ⟨groups, rest, ?_, ?_, hr⟩, by simp⟩, hlost⟩
  · rw [h.left_open]
    simp [LeftOpen, Entry.isHandled]
  · simpa [hlost, hl, Entry.delivered?] using hd
  · simpa [Entry.unit?] using hu

end Shares

namespace Session
variable {setup : Setup U} {s : Session} {journal : List Entry}

structure Booked (setup : Setup U) (s : Session) (journal : List Entry) : Prop where
  shares : Shares setup journal s.accumulated s.phase.inHand
  idle : s.phase.isPending = true ∨ s.phase.shows = true → s.accumulated = ""
  lost : lostLines journal = [] ∨ ∃ line message, lostLines journal = [line] ∧
    s.phase.verdict? = some (.error (.transport message))

theorem Shares.booked (h : Shares setup journal s.accumulated [])
    (hl : lostLines journal = []) (hhand : s.phase.inHand = []) (hp : s.phase.isPending = false)
    (hs : s.phase.shows = false) : s.Booked setup journal where
  shares := by rw [hhand]; exact h
  idle := by simp [hp, hs]
  lost := .inl hl

theorem Booked.spare (h : s.Booked setup journal) (hv : s.phase.verdict? = none) :
    lostLines journal = [] := by
  rcases h.lost with hl | ⟨line, message, -, hm⟩
  · exact hl
  · simp [hv] at hm

theorem evaluate_booked {line : String} (h : Shares setup journal s.accumulated [line])
    (hl : lostLines journal = []) :
    (s.evaluate setup line).Booked setup (journal ++ [.compiled (s.accumulated ++ line)]) := by
  have hshares := h.compile s.context
  have hlost : lostLines (journal ++ [.compiled (s.accumulated ++ line)]) = [] := by
    simp [Entry.lost?, hl]
  rw [evaluate_eq]
  rcases setup.landing_cases (s.accumulated ++ line) s.context with ⟨-, heq⟩ | ⟨-, hnone, hp⟩
  · rw [heq] at hshares ⊢
    exact Shares.booked hshares hlost rfl rfl rfl
  · refine ⟨?_, fun _ => hnone, .inl hlost⟩
    have hhand : (setup.landing (s.accumulated ++ line) s.context).phase.inHand = [] := by
      rcases hp with hp | hp
      · exact hp.inHand
      · exact Phase.inHand_of_isPending hp
    simpa only [land, hhand] using hshares

theorem receive_booked {a : Answer} (h : Shares setup journal s.accumulated a.lines)
    (hl : lostLines journal = []) :
    (s.receive setup a).Booked setup (journal ++ s.receiveEntries setup a) := by
  cases a with
  | line l =>
    by_cases hm : l = interruptMarker
    · simp only [Answer.lines, if_pos hm] at h
      simp only [Session.receive, receiveEntries, if_pos hm, List.append_nil]
      exact Shares.booked h hl rfl rfl rfl
    · simp only [Answer.lines, if_neg hm] at h
      simp only [Session.receive, receiveEntries, if_neg hm]
      by_cases he : setup.echo = true
      · simp only [if_pos he, List.append_nil]
        exact ⟨h, by simp [enterPrompt, Phase.isPending, Phase.shows], .inl hl⟩
      · simp only [if_neg he]
        exact evaluate_booked h hl
  | failed message =>
    simp only [receiveEntries, List.append_nil]
    exact Shares.booked h hl rfl rfl rfl
  | ended =>
    simp only [receiveEntries, List.append_nil]
    exact Shares.booked h hl rfl rfl rfl

theorem read_booked (h : Shares setup journal s.accumulated []) (hl : lostLines journal = []) :
    (s.read setup).Booked setup (journal ++ s.readEntries setup) := by
  unfold Session.read readEntries
  cases s.buffer.read with
  | error fault =>
    simp only [List.append_nil]
    exact Shares.booked h hl rfl rfl rfl
  | ok r =>
    obtain ⟨buffer, a⟩ := r
    cases a with
    | none =>
      simp only [List.append_nil]
      exact Shares.booked h hl rfl rfl rfl
    | some a =>
      obtain ⟨hanswer, hlost⟩ := h.answer hl a
      have hnext := receive_booked (s := { s with buffer }) hanswer hlost
      rw [List.append_assoc] at hnext
      exact hnext

theorem iterate_booked (h : Shares setup journal s.accumulated [])
    (hl : lostLines journal = []) :
    (s.iterate setup).Booked setup (journal ++ s.iterateEntries setup) := by
  by_cases hd : s.buffer.isDone = true
  · simp only [Session.iterate, iterateEntries, if_pos hd, List.append_nil]
    exact Shares.booked h hl rfl rfl rfl
  · simp only [Session.iterate, iterateEntries, if_neg hd]
    by_cases he : setup.echo = true
    · simp only [if_pos he]
      exact read_booked h hl
    · simp only [if_neg he, List.append_nil]
      exact Shares.booked h hl rfl rfl rfl

theorem Booked.supply (h : s.Booked setup journal) (r : LineBuffer × Option Answer) :
    (s.supply r).Booked setup (journal ++ s.supplyEntries r) := by
  rcases supply_turn s r with ⟨a, -, hp, heq, hentries⟩ | ⟨heq, hentries⟩
  · have hshares := h.shares
    rw [hp] at hshares
    obtain ⟨hanswer, hlost⟩ := hshares.answer (h.spare (by rw [hp]; rfl)) a
    rw [heq, hentries]
    exact ⟨hanswer, by simp [Phase.isPending, Phase.shows], .inl hlost⟩
  · rw [heq, hentries, List.append_nil]
    exact ⟨h.shares, h.idle, h.lost⟩

theorem Phase.inHand_of_verdict {p : Phase} (h : p.verdict?.isSome = true) :
    p.inHand = [] ∧ p.isPending = false ∧ p.shows = false := by
  cases p with
  | closing r => exact ⟨rfl, rfl, rfl⟩
  | closingErrors r failure => exact ⟨rfl, rfl, rfl⟩
  | ended r => exact ⟨rfl, rfl, rfl⟩
  | _ => simp [Phase.verdict?] at h

/-- Behind a verdict no line is handed out any more, and a failure stays the verdict. -/
theorem Booked.step_over (h : s.Booked setup journal) (hv : s.phase.verdict?.isSome = true) :
    (s.step setup).Booked setup (journal ++ s.stepEntries setup) := by
  have hnext : (s.step setup).accumulated = s.accumulated ∧
      (s.step setup).phase.verdict?.isSome = true ∧ s.stepEntries setup = [] := by
    unfold Session.step stepEntries
    cases hp : s.phase with
    | closing r => exact ⟨rfl, rfl, rfl⟩
    | closingErrors r failure => exact ⟨rfl, rfl, rfl⟩
    | ended r => exact ⟨rfl, by simp [hp, Phase.verdict?], rfl⟩
    | _ => simp [hp, Phase.verdict?] at hv
  obtain ⟨hs, hvs, he⟩ := hnext
  obtain ⟨hhand, hpending, hshows⟩ := Phase.inHand_of_verdict hvs
  have hshares := h.shares
  rw [(Phase.inHand_of_verdict hv).1, ← hs] at hshares
  rw [he, List.append_nil]
  refine ⟨by rw [hhand]; exact hshares, by simp [hpending, hshows], ?_⟩
  rcases h.lost with hl | ⟨line, message, hl, hm⟩
  · exact .inl hl
  · exact .inr ⟨line, message, hl, verdict_handle hm .step⟩

theorem write_booked {text : String} {next : Session → Session}
    (h : Shares setup journal s.accumulated []) (hl : lostLines journal = [])
    (hnext : ∀ output, (next { s with output }).Booked setup journal) :
    (s.write text next).Booked setup journal := by
  unfold Session.write
  cases s.output.write text with
  | mk output failure =>
    cases failure with
    | none => exact hnext output
    | some message => exact Shares.booked h hl rfl rfl rfl

/-- A line whose prompt or echo cannot be written is the last one. -/
theorem lost_booked {l message : String} (h : Shares setup journal s.accumulated [l])
    (hl : lostLines journal = []) :
    (s.close (.error (.transport message))).Booked setup (journal ++ [.lost l]) := by
  obtain ⟨hlose, hlost⟩ := h.lose hl
  exact ⟨hlose, by simp [close, Phase.isPending, Phase.shows], .inr ⟨l, message, hlost, rfl⟩⟩

theorem afterBreak_booked (h : Shares setup journal s.accumulated [])
    (hl : lostLines journal = []) :
    s.afterBreak.Booked setup (journal ++ [.dropped s.accumulated]) := by
  have hdrop := h.drop
  have hlost : lostLines (journal ++ [.dropped s.accumulated]) = [] := by simp [Entry.lost?, hl]
  unfold afterBreak
  split
  · rename_i ha
    rw [ha] at hdrop hlost ⊢
    exact Shares.booked (ha ▸ hdrop) hlost rfl rfl rfl
  · exact Shares.booked hdrop hlost rfl rfl rfl

theorem Booked.step (h : s.Booked setup journal) :
    (s.step setup).Booked setup (journal ++ s.stepEntries setup) := by
  cases hv : s.phase.verdict? with
  | some r => exact h.step_over (by simp [hv])
  | none =>
    have hl := h.spare hv
    have hshares := h.shares
    have hstays : s.Booked setup (journal ++ []) := by
      rw [List.append_nil]
      exact h
    unfold Session.step stepEntries
    cases hp : s.phase <;> rw [hp] at hshares
    case created =>
      cases hsrc : setup.source with
      | text bytes => exact iterate_booked (s := s.load bytes) hshares hl
      | file content =>
        simp only [List.append_nil]
        exact Shares.booked hshares hl rfl rfl rfl
      | stream => exact iterate_booked hshares hl
    case loading =>
      cases hsrc : setup.source with
      | file content =>
        cases content with
        | ok bytes => exact iterate_booked (s := s.load bytes) hshares hl
        | error e =>
          simp only [List.append_nil]
          exact Shares.booked hshares hl rfl rfl rfl
      | _ => exact hstays
    case prompting line =>
      dsimp only
      unfold Session.write
      cases s.output.write (s.promptText setup) with
      | mk output failure =>
        cases failure with
        | none =>
          cases line with
          | none => exact read_booked (s := { s with output }) hshares hl
          | some l =>
            simp only [List.append_nil]
            exact ⟨hshares, by simp [Phase.isPending, Phase.shows], .inl hl⟩
        | some message =>
          cases line with
          | none =>
            simp only [List.append_nil]
            exact Shares.booked hshares hl rfl rfl rfl
          | some l => exact lost_booked (s := { s with output }) hshares hl
    case echoing line =>
      dsimp only
      unfold Session.write
      cases s.output.write line with
      | mk output failure =>
        cases failure with
        | none => exact evaluate_booked (s := { s with output }) hshares hl
        | some message => exact lost_booked (s := { s with output }) hshares hl
    case awaiting answer =>
      cases answer with
      | none => exact hstays
      | some a => exact receive_booked hshares hl
    case pending declaration d interrupted =>
      cases interrupted with
      | false => exact hstays
      | true =>
        simp only [List.append_nil]
        exact Shares.booked hshares hl rfl rfl rfl
    case transforming d => exact hstays
    case printing v =>
      simp only [List.append_nil]
      exact write_booked hshares hl fun output => Shares.booked hshares hl rfl rfl rfl
    case reporting e =>
      simp only [List.append_nil]
      unfold Session.writeError
      cases s.errors.write (errorText setup e) with
      | mk errors failure =>
        cases failure <;> exact Shares.booked hshares hl rfl rfl rfl
    case breaking =>
      dsimp only
      unfold Session.write
      cases s.output.write "\n" with
      | mk output failure =>
        cases failure with
        | some message =>
          simp only [List.append_nil]
          exact Shares.booked hshares hl rfl rfl rfl
        | none => exact afterBreak_booked (s := { s with output }) hshares hl
    case yielding => exact iterate_booked hshares hl
    all_goals simp [hp, Phase.verdict?] at hv

theorem Booked.handle (h : s.Booked setup journal) (e : SessionEvent) :
    (s.handle setup e).Booked setup (journal ++ s.entries setup e) := by
  cases e with
  | step => exact h.step
  | feed chunk => exact h.supply _
  | finish => exact h.supply _
  | fail message => exact h.supply _
  | interrupt =>
    have hsupply := h.supply s.buffer.interrupt
    change s.interrupt.Booked setup (journal ++ s.supplyEntries s.buffer.interrupt)
    unfold Session.interrupt
    generalize s.supply s.buffer.interrupt = t at hsupply
    dsimp only
    split
    · rename_i declaration d interrupted hp
      have hshares := hsupply.shares
      have hidle := hsupply.idle
      have hspare := hsupply.spare (by rw [hp]; rfl)
      rw [hp] at hshares hidle
      exact ⟨hshares, fun _ => hidle (.inl rfl), .inl hspare⟩
    · exact hsupply
  | resolve =>
    have hshares := h.shares
    have hidle := h.idle
    simp only [Session.handle, entries, List.append_nil]
    unfold Session.resolve
    split
    · rename_i declaration d interrupted hp
      have hspare := h.spare (by rw [hp]; rfl)
      rw [hp] at hshares hidle
      have hb := Phase.behindUnit_any setup.transform declaration d.outcome
      rw [settled_eq]
      exact ⟨by simp only [hb.inHand]; exact hshares, fun _ => hidle (.inl rfl), .inl hspare⟩
    · rename_i d hp
      have hspare := h.spare (by rw [hp]; rfl)
      rw [hp] at hshares hidle
      have hb := Phase.behindTransform_any d.outcome
      rw [transformed_eq]
      exact ⟨by simp only [hb.inHand]; exact hshares, fun _ => hidle (.inr rfl), .inl hspare⟩
    · exact h
  | embed change =>
    simp only [Session.handle, entries, List.append_nil]
    exact ⟨h.shares, h.idle, h.lost⟩

theorem Booked.run (h : s.Booked setup journal) (events : List SessionEvent) :
    (s.run setup events).Booked setup (journal ++ s.journal setup events) := by
  induction events generalizing s journal with
  | nil =>
    simp only [Session.journal, List.append_nil]
    exact h
  | cons e rest ih =>
    have hrest := ih (h.handle e)
    rw [List.append_assoc] at hrest
    exact hrest

theorem step_output_of_prompting {line : Option String} (hp : s.phase = .prompting line) :
    (s.step setup).output = (s.output.write (s.promptText setup)).1 := by
  unfold Session.step
  rw [hp]
  dsimp only
  rcases write_cases (s.promptText setup) _ s with ⟨-, heq⟩ | ⟨message, -, heq⟩
  · rw [heq]
    cases line with
    | none => exact read_output setup _
    | some l => rfl
  · rw [heq]
    rfl

theorem create_booked (o : Options) (host : Host) (output errors : Sink) :
    (create o host output errors).Booked setup [] where
  shares := Shares.empty
  idle := fun _ => rfl
  lost := .inl rfl

/-- Whatever happens in a session: the unfinished text is empty or incomplete, it is there exactly
if the last line that was handled left it so, which is when the continuation prompt is written, and
it is empty while a unit is evaluated or its value is on the way. The lines that were handed out
are shared out, in their order, among the finished units, the unfinished text and the line in hand.
Only a line whose prompt or echo cannot be written is left over, and then that failure is the
verdict. -/
theorem lines_shared_out (setup : Setup U) (o : Options) (host : Host) (output errors : Sink)
    (events : List SessionEvent) :
    let s := (create o host output errors).run setup events
    let journal := (create o host output errors).journal setup events
    (s.accumulated = "" ∨ setup.evaluator.compile s.accumulated = .incomplete) ∧
    (s.accumulated ≠ "" ↔ LeftOpen setup journal) ∧
    (∀ line, s.phase = .prompting line → ∃ prompt : String,
      (s.step setup).output = (s.output.write (String.ofList
        (Terminal.paintIf setup.styled [.blue, .bold] prompt.toList))).1 ∧
      ((LeftOpen setup journal ∧ prompt = setup.continuation) ∨
        (¬ LeftOpen setup journal ∧ prompt = setup.prompt))) ∧
    (s.phase.isPending = true ∨ s.phase.shows = true → s.accumulated = "") ∧
    (∃ (groups : List (List String)) (rest : List String),
      groups.flatten ++ rest ++ s.phase.inHand ++ lostLines journal = deliveredLines journal ∧
      groups.map String.join = unitTexts setup journal ∧ String.join rest = s.accumulated) ∧
    String.join (unitTexts setup journal) ++ s.accumulated ++
      String.join (s.phase.inHand ++ lostLines journal) = String.join (deliveredLines journal) ∧
    (lostLines journal = [] ∨ ∃ line message, lostLines journal = [line] ∧
      s.phase.verdict? = some (.error (.transport message))) := by
  intro s journal
  have h : s.Booked setup journal := (create_booked o host output errors).run events
  obtain ⟨groups, rest, hd, hu, hr⟩ := h.shares.shared
  refine ⟨h.shares.unfinished, h.shares.left_open, ?_, h.idle, ⟨groups, rest, hd, hu, hr⟩, ?_,
    h.lost⟩
  · intro line hp
    rw [step_output_of_prompting hp]
    by_cases ha : s.accumulated = ""
    · have hclosed : ¬ LeftOpen setup journal := fun ho => h.shares.left_open.2 ho ha
      exact ⟨setup.prompt, by simp only [Session.promptText, if_pos ha], .inr ⟨hclosed, rfl⟩⟩
    · have hopen := h.shares.left_open.1 ha
      exact ⟨setup.continuation, by simp only [Session.promptText, if_neg ha], .inl ⟨hopen, rfl⟩⟩
  · rw [← hd, ← hu, ← hr, join_map_join]
    simp only [String.join_append, String.append_assoc]

end Session
end PromptLoop
