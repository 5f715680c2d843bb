import PromptLoop.Proofs.Session.EchoFold

set_option autoImplicit false

namespace PromptLoop

variable {U : Type}

def SessionEvent.bytes : SessionEvent → List UInt8
  | .feed chunk => chunk
  | _ => []

/-- The events of a session that is left to itself. -/
def SessionEvent.Driven (e : SessionEvent) : Prop :=
  e = .step ∨ e = .resolve

namespace Session
variable {setup : Setup U} {origin s : Session} {start : Transcript} {lines : List String}
  {later : Option (List UInt8)}

section Left
variable (ht : Terms.undisturbed.Cover setup) (hecho : setup.echo = true)
  (hlater : setup.source ≠ .stream → later = none)
include ht hecho hlater

theorem Follows.driven {e : SessionEvent} (hs : s.Follows setup origin start lines later)
    (he : e.Driven) :
    (s.handle setup e).Follows setup origin start lines later ∧
      (s.handle setup e).rank setup later ≤ s.rank setup later := by
  rcases he with rfl | rfl
  · obtain ⟨hnext, hlt⟩ := hs.step ht hecho hlater
    refine ⟨hnext, ?_⟩
    cases hr : s.phase.rests with
    | true => exact Nat.le_of_eq (congrArg (rank setup · later) (step_of_rests hr))
    | false => exact Nat.le_of_lt (hlt hr)
  · obtain ⟨hnext, hlt⟩ := hs.resolve ht
    refine ⟨hnext, ?_⟩
    cases hw : s.phase.waits with
    | true => exact Nat.le_of_lt (hlt hw)
    | false => exact Nat.le_of_eq (congrArg (rank setup · later) (resolve_of_waits hw))

theorem Follows.run (events : List SessionEvent) (he : ∀ e ∈ events, e.Driven)
    (hs : s.Follows setup origin start lines later) :
    (s.run setup events).Follows setup origin start lines later ∧
      (s.run setup events).rank setup later ≤ s.rank setup later := by
  induction events generalizing s with
  | nil => exact ⟨hs, Nat.le_refl _⟩
  | cons e rest ih =>
    have hnext := hs.driven ht hecho hlater (he e (by simp))
    have hrest := ih (fun e' h => he e' (by simp [h])) hnext.1
    exact ⟨hrest.1, Nat.le_trans hrest.2 hnext.2⟩

end Left

/-- Once the input is complete nothing but results is waited for. -/
theorem Follows.waits (hs : s.Follows setup origin start lines none)
    (hr : s.phase.rests = true) (hn : s.rank setup none ≠ 0) : s.phase.waits = true := by
  have hphase := hs.lawful.phase
  cases hp : s.phase with
  | awaiting a =>
    cases a with
    | some a => simp [hp, Phase.rests] at hr
    | none =>
      have hslot : s.buffer.slot ≠ .free := by
        rw [hs.lawful.slot, hp]
        simp [Phase.awaits]
      have hopen := (hs.lawful.sound.waiting hslot).2.2
      rcases hs.ended rfl with he | ⟨-, hc | hc⟩
      · simp [hopen] at he
      · simp [hp] at hc
      · simp [hp] at hc
  | pending declaration d interrupted => rfl
  | transforming d => rfl
  | ended result =>
    have hi : s.phase.Inside .undisturbed := by simpa only [hp, Phase.Within] using hphase
    obtain ⟨he, hl, -⟩ := (LineBuffer.isDone_iff _).1 (hs.exhausted (by rw [hp]; rfl))
    have hrank : s.rank setup none = 0 := by
      rw [rank_inside hi]
      simp [LineBuffer.remaining, he, hl, hp, Phase.ahead]
    exact absurd hrank hn
  | _ => simp [hp, Phase.rests] at hr

section Complete
variable (ht : Terms.undisturbed.Cover setup) (hecho : setup.echo = true)
include ht hecho

theorem Follows.run_complete (hs : s.Follows setup origin start lines none)
    (events : List SessionEvent) (he : ∀ e ∈ events, e.Driven) :
    (s.run setup events).Follows setup origin start lines none ∧
      (s.run setup events).rank setup none ≤ s.rank setup none :=
  hs.run ht hecho (fun _ => rfl) events he

theorem Follows.run_waiting (events : List SessionEvent) (he : ∀ e ∈ events, e.Driven)
    (hs : s.Follows setup origin start lines none) (hw : s.phase.waits = true)
    (hr : s.phase.rests = true) :
    (s.run setup (events ++ [.resolve])).rank setup none < s.rank setup none := by
  obtain ⟨hnext, hlt⟩ := hs.resolve ht
  induction events with
  | nil => exact hlt hw
  | cons e rest ih =>
    have hrest : ∀ e' ∈ rest, e'.Driven := fun e' h => he e' (by simp [h])
    rcases he e (by simp) with rfl | rfl
    · have heq : s.run setup (.step :: rest ++ [.resolve]) = s.run setup (rest ++ [.resolve]) := by
        change Session.run setup (s.step setup) (rest ++ [.resolve]) = _
        rw [step_of_rests hr]
      rw [heq]
      exact ih hrest
    · have hgo := hnext.run_complete ht hecho (rest ++ [.resolve])
        (List.forall_mem_append.2 ⟨hrest, by simp [SessionEvent.Driven]⟩)
      exact Nat.lt_of_le_of_lt hgo.2 (hlt hw)

theorem Follows.round (events : List SessionEvent) (he : ∀ e ∈ events, e.Driven)
    (hs : s.Follows setup origin start lines none) (hn : s.rank setup none ≠ 0) :
    (s.run setup (.step :: events ++ [.resolve])).rank setup none < s.rank setup none := by
  cases hr : s.phase.rests with
  | true =>
    have heq : s.run setup (.step :: events ++ [.resolve]) =
        s.run setup (events ++ [.resolve]) := by
      change Session.run setup (s.step setup) (events ++ [.resolve]) = _
      rw [step_of_rests hr]
    rw [heq]
    exact hs.run_waiting ht hecho events he (hs.waits hr hn) hr
  | false =>
    obtain ⟨hnext, hlt⟩ := hs.step ht hecho fun _ => rfl
    have hgo := hnext.run_complete ht hecho (events ++ [.resolve])
      (List.forall_mem_append.2 ⟨he, by simp [SessionEvent.Driven]⟩)
    exact Nat.lt_of_le_of_lt hgo.2 (hlt hr)

/-- As many steps as the rank counts, each with a result behind it, lead to the end. -/
theorem Follows.rounds (n : Nat) (events : List SessionEvent) (he : ∀ e ∈ events, e.Driven)
    (hs : s.Follows setup origin start lines none) (hn : s.rank setup none ≤ n)
    (hrounds : (List.replicate n [SessionEvent.step, .resolve]).flatten.Sublist events) :
    (s.run setup events).rank setup none = 0 := by
  induction n generalizing s events with
  | zero => exact Nat.le_zero.1 (Nat.le_trans (hs.run_complete ht hecho events he).2 hn)
  | succ n ih =>
    -- The first step and the first result behind it make a round; what stands around them does
    -- not matter.
    rw [List.replicate_succ, List.flatten_cons] at hrounds
    obtain ⟨front, behind, rfl, hstep, hbehind⟩ := List.cons_sublist_iff.1 hrounds
    obtain ⟨middle, rest, rfl, hresolve, hleft⟩ := List.cons_sublist_iff.1 hbehind
    obtain ⟨u, v, rfl⟩ := List.append_of_mem hstep
    obtain ⟨u', v', rfl⟩ := List.append_of_mem hresolve
    simp only [List.forall_mem_append, List.forall_mem_cons] at he
    obtain ⟨⟨hu, -, hv⟩, ⟨hu', -, hv'⟩, hrest⟩ := he
    have hshape : u ++ .step :: v ++ (u' ++ .resolve :: v' ++ rest) =
        u ++ ((.step :: (v ++ u') ++ [.resolve]) ++ (v' ++ rest)) := by simp
    rw [hshape, run_append, run_append]
    obtain ⟨hfront, hfrontrank⟩ := hs.run_complete ht hecho u hu
    have hmiddle : ∀ e ∈ v ++ u', e.Driven := List.forall_mem_append.2 ⟨hv, hu'⟩
    have hround : ∀ e ∈ SessionEvent.step :: (v ++ u') ++ [.resolve], e.Driven :=
      List.forall_mem_append.2
        ⟨List.forall_mem_cons.2 ⟨.inl rfl, hmiddle⟩, by simp [SessionEvent.Driven]⟩
    obtain ⟨hnext, hnextrank⟩ := hfront.run_complete ht hecho _ hround
    have hle :
        ((s.run setup u).run setup (.step :: (v ++ u') ++ [.resolve])).rank setup none ≤ n := by
      by_cases hz : (s.run setup u).rank setup none = 0
      · omega
      · have hlt := hfront.round ht hecho (v ++ u') hmiddle hz
        omega
    exact ih (v' ++ rest) (List.forall_mem_append.2 ⟨hv', hrest⟩) hnext hle
      (hleft.trans (List.sublist_append_right v' rest))

end Complete

/-- `s` has ended with its input, and it made `t` of it since `origin`. -/
structure Concludes (s origin : Session) (t : Transcript) : Prop where
  result : s.result? = some (.ok .endOfInput)
  output : s.output.written = origin.output.written ++ t.output.toUTF8
  errors : s.errors.written = origin.errors.written ++ t.errors.toUTF8
  context : s.context = t.context

theorem Follows.concludes (hs : s.Follows setup origin start lines none)
    (hr : s.result? ≠ none) :
    s.Concludes origin (lines.foldl (Transcript.line setup) start) := by
  cases hp : s.phase with
  | ended result =>
    have hphase := hs.lawful.phase
    have hi : s.phase.Inside .undisturbed := by simpa only [hp, Phase.Within] using hphase
    have hresult : result = .ok .endOfInput := hphase.verdict (by rw [hp]; rfl)
    obtain ⟨he, hl, -⟩ := (LineBuffer.isDone_iff _).1 (hs.exhausted (by rw [hp]; rfl))
    obtain ⟨done, ⟨now, hshow, hcomplete⟩, hsplit⟩ := hs.taken
    rw [hp] at hcomplete
    have hall : done = lines := by
      rw [upcoming_inside hi] at hsplit
      simpa [LineBuffer.remaining, he, hl] using hsplit
    rw [← hall, ← hcomplete]
    exact ⟨by simp [Session.result?, hp, hresult], hshow.output, hshow.errors, hshow.context⟩
  | _ => simp [Session.result?, hp] at hr

end Session
end PromptLoop
