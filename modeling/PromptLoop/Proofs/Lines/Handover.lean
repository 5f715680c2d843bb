import PromptLoop.Proofs.Lines.Pieces

set_option autoImplicit false

namespace PromptLoop

def Answer.line? : Answer → Option String
  | .line l => some l
  | _ => none

def handed (a : Option Answer) : List String :=
  (a.bind Answer.line?).toList

namespace LineBuffer

structure Sound (b : LineBuffer) : Prop where
  residue_clean : separator ∉ b.residue
  residue_ended : b.ended = true → b.residue = []
  failure_ended : b.failure ≠ none → b.ended = true
  waiting : b.slot ≠ .free → b.lines = [] ∧ b.failure = none ∧ b.ended = false

/-- The lines that are still to be handed over if `later` are the bytes that still arrive. -/
def remaining (b : LineBuffer) (later : List UInt8) : List String :=
  b.lines ++ if b.ended then [] else logicalLines (b.residue.reverse ++ later)

theorem sound_empty : ({} : LineBuffer).Sound :=
  ⟨by simp, by simp, by simp, by simp⟩

theorem remaining_empty (bytes : List UInt8) :
    ({} : LineBuffer).remaining bytes = logicalLines bytes := by
  simp [remaining]

theorem isDone_iff (b : LineBuffer) :
    b.isDone = true ↔ b.ended = true ∧ b.lines = [] ∧ b.failure = none := by
  simp [isDone, and_assoc]

theorem answer?_eq_none_iff (b : LineBuffer) :
    b.answer? = none ↔ b.lines = [] ∧ b.failure = none ∧ b.ended = false := by
  cases hl : b.lines <;> cases hf : b.failure <;> simp [answer?, hl, hf]

inductive Settling (b : LineBuffer) : LineBuffer × Option Answer → Prop where
  | kept (h : b.slot = .free ∨ b.answer? = none) : Settling b (b, none)
  | abandoned (hs : b.slot = .abandoned) : Settling b ({ b with slot := .free }, none)
  | line {line : String} {rest : List String} (hs : b.slot = .awaited)
      (hl : b.lines = line :: rest) :
      Settling b ({ b with lines := rest, slot := .free }, some (.line line))
  | failed {message : String} (hs : b.slot = .awaited) (hl : b.lines = [])
      (hf : b.failure = some message) :
      Settling b ({ b with failure := none, slot := .free }, some (.failed message))
  | ended (hs : b.slot = .awaited) (hl : b.lines = []) (hf : b.failure = none)
      (he : b.ended = true) : Settling b ({ b with slot := .free }, some .ended)

theorem settle_settling (b : LineBuffer) : Settling b b.settle := by
  cases hs : b.slot with
  | free => simpa [settle, hs] using Settling.kept (Or.inl hs)
  | abandoned =>
    cases ha : b.answer? with
    | none => simpa [settle, hs, ha] using Settling.kept (Or.inr ha)
    | some r => simpa [settle, hs, ha] using Settling.abandoned hs
  | awaited =>
    cases hl : b.lines with
    | cons line rest => simpa [settle, answer?, hs, hl] using Settling.line hs hl
    | nil =>
      cases hf : b.failure with
      | some message => simpa [settle, answer?, hs, hl, hf] using Settling.failed hs hl hf
      | none =>
        cases he : b.ended with
        | true => simpa [settle, answer?, hs, hl, hf, he] using Settling.ended hs hl hf he
        | false =>
          have ha := (answer?_eq_none_iff b).2 ⟨hl, hf, he⟩
          simpa [settle, hs, ha] using Settling.kept (Or.inr ha)

theorem settle_ended (b : LineBuffer) : b.settle.1.ended = b.ended := by
  have h := settle_settling b
  generalize b.settle = r at h
  cases h <;> rfl

theorem settle_residue (b : LineBuffer) : b.settle.1.residue = b.residue := by
  have h := settle_settling b
  generalize b.settle = r at h
  cases h <;> rfl

theorem settle_lines (b : LineBuffer) : handed b.settle.2 ++ b.settle.1.lines = b.lines := by
  have h := settle_settling b
  generalize b.settle = r at h
  cases h with
  | kept _ => rfl
  | abandoned _ => rfl
  | line _ hl => exact hl.symm
  | failed _ _ _ => rfl
  | ended _ _ _ _ => rfl

theorem settle_sound (b : LineBuffer) (hr : separator ∉ b.residue)
    (he : b.ended = true → b.residue = []) (hf : b.failure ≠ none → b.ended = true) :
    b.settle.1.Sound := by
  have h := settle_settling b
  generalize b.settle = r at h
  cases h with
  | kept hk =>
    refine ⟨hr, he, hf, ?_⟩
    intro hw
    rcases hk with hs | ha
    · exact absurd hs hw
    · exact (answer?_eq_none_iff b).1 ha
  | abandoned _ => exact ⟨hr, he, hf, by simp⟩
  | line _ _ => exact ⟨hr, he, hf, by simp⟩
  | failed _ _ _ => exact ⟨hr, he, by simp, by simp⟩
  | ended _ _ _ _ => exact ⟨hr, he, hf, by simp⟩

/-- What a change of the buffer does to the read slot: an answer frees it, and without an answer a
read that is not abandoned stays as it is. -/
def Releases (b : LineBuffer) (r : LineBuffer × Option Answer) : Prop :=
  match r.2 with
  | none => b.slot ≠ .abandoned → r.1.slot = b.slot
  | some _ => b.slot = .awaited ∧ r.1.slot = .free

theorem settle_releases (b : LineBuffer) : b.Releases b.settle := by
  have h := settle_settling b
  generalize b.settle = r at h
  cases h with
  | kept _ => exact fun _ => rfl
  | abandoned hs => exact fun hn => absurd hs hn
  | line hs _ => exact ⟨hs, rfl⟩
  | failed hs _ _ => exact ⟨hs, rfl⟩
  | ended hs _ _ _ => exact ⟨hs, rfl⟩

theorem feed_releases (b : LineBuffer) (chunk : List UInt8) : b.Releases (b.feed chunk) := by
  unfold LineBuffer.feed
  split
  · exact fun _ => rfl
  · exact settle_releases _

theorem finish_releases (b : LineBuffer) : b.Releases b.finish := by
  unfold LineBuffer.finish
  split
  · exact fun _ => rfl
  · exact settle_releases _

theorem fail_releases (b : LineBuffer) (message : String) : b.Releases (b.fail message) := by
  unfold LineBuffer.fail
  split
  · exact fun _ => rfl
  · exact settle_releases _

theorem interrupt_releases (b : LineBuffer) : b.Releases b.interrupt :=
  settle_releases _

theorem Releases.free {b : LineBuffer} {r : LineBuffer × Option Answer} (h : b.Releases r)
    (hs : b.slot = .free) : r.1.slot = .free ∧ r.2 = none := by
  obtain ⟨rest, a⟩ := r
  cases a with
  | none => exact ⟨by simpa [Releases, hs] using h, rfl⟩
  | some a => simp [Releases, hs] at h

def Plain (r : LineBuffer × Option Answer) : Prop :=
  r.1.failure = none ∧ ∀ a ∈ r.2, (∃ line, a = .line line) ∨ (a = .ended ∧ r.1.isDone = true)

theorem settle_plain {b : LineBuffer} (hf : b.failure = none) : Plain b.settle := by
  have h := settle_settling b
  generalize b.settle = r at h
  cases h with
  | kept _ => exact ⟨hf, by simp⟩
  | abandoned _ => exact ⟨hf, by simp⟩
  | line _ _ => exact ⟨hf, by simp⟩
  | failed _ _ hm => simp [hf] at hm
  | ended _ hl _ he =>
    refine ⟨hf, ?_⟩
    intro a ha
    obtain rfl : Answer.ended = a := by simpa using ha
    exact .inr ⟨rfl, (isDone_iff _).2 ⟨he, hl, hf⟩⟩

theorem feed_plain {b : LineBuffer} (hf : b.failure = none) (chunk : List UInt8) :
    Plain (b.feed chunk) := by
  unfold LineBuffer.feed
  split
  · exact ⟨hf, by simp⟩
  · exact settle_plain hf

theorem finish_plain {b : LineBuffer} (hf : b.failure = none) : Plain b.finish := by
  unfold LineBuffer.finish
  split
  · exact ⟨hf, by simp⟩
  · exact settle_plain hf

theorem feed_of_isDone {b : LineBuffer} (hd : b.isDone = true) (chunk : List UInt8) :
    b.feed chunk = (b, none) := by
  simp [LineBuffer.feed, ((isDone_iff b).1 hd).1]

theorem finish_of_isDone {b : LineBuffer} (hd : b.isDone = true) : b.finish = (b, none) := by
  simp [LineBuffer.finish, ((isDone_iff b).1 hd).1]

theorem feed_ended (b : LineBuffer) (chunk : List UInt8) : (b.feed chunk).1.ended = b.ended := by
  unfold LineBuffer.feed
  split
  · rfl
  · exact settle_ended _

theorem finish_ended (b : LineBuffer) : b.finish.1.ended = true := by
  unfold LineBuffer.finish
  split
  · rename_i he
    exact he
  · exact settle_ended _

section Operations
variable {b : LineBuffer} (hb : b.Sound)
include hb

theorem Sound.feed (chunk : List UInt8) : (b.feed chunk).1.Sound := by
  unfold LineBuffer.feed
  split
  · exact hb
  · rename_i hn
    refine settle_sound _ (Cut.foldl_push_residue chunk ⟨[], b.residue⟩ hb.residue_clean) ?_
      hb.failure_ended
    intro he
    exact absurd he hn

theorem Sound.finish : b.finish.1.Sound := by
  unfold LineBuffer.finish
  split
  · exact hb
  · exact settle_sound _ (by simp) (by simp) (by simp)

theorem Sound.fail (message : String) : (b.fail message).1.Sound := by
  unfold LineBuffer.fail
  split
  · exact hb
  · exact settle_sound _ (by simp) (by simp) (by simp)

theorem Sound.interrupt : b.interrupt.1.Sound :=
  settle_sound _ (by simp) (by simp) hb.failure_ended

theorem feed_remaining (chunk later : List UInt8) :
    handed (b.feed chunk).2 ++ (b.feed chunk).1.remaining later = b.remaining (chunk ++ later) := by
  unfold LineBuffer.feed
  split
  · rename_i he
    simp [handed, remaining, he]
  · rename_i hn
    have hc := logicalLines_cut chunk later ⟨[], b.residue⟩ hb.residue_clean
    simp only [remaining, settle_ended, settle_residue, hn, if_false, Bool.false_eq_true]
    rw [← List.append_assoc, settle_lines, List.append_assoc]
    simpa using hc.symm

theorem finish_remaining (later : List UInt8) :
    handed b.finish.2 ++ b.finish.1.remaining later = b.remaining [] := by
  unfold LineBuffer.finish
  split
  · rename_i he
    simp [handed, remaining, he]
  · rename_i hn
    have hf := logicalLines_fragment b.residue.reverse (by simpa using hb.residue_clean)
    simp only [remaining, settle_ended, if_true, List.append_nil]
    rw [settle_lines, hf]
    simp [hn]

end Operations

inductive Starting (b : LineBuffer) : Except ReadFault (LineBuffer × Option Answer) → Prop where
  | outstanding (hs : b.slot = .awaited) : Starting b (.error .outstanding)
  | line {line : String} {rest : List String} (hs : b.slot ≠ .awaited)
      (hl : b.lines = line :: rest) :
      Starting b (.ok ({ b with lines := rest, slot := .free }, some (.line line)))
  | failed {message : String} (hs : b.slot ≠ .awaited) (hl : b.lines = [])
      (hf : b.failure = some message) :
      Starting b (.ok ({ b with failure := none, slot := .free }, some (.failed message)))
  | afterEnd (hs : b.slot ≠ .awaited) (hd : b.isDone = true) : Starting b (.error .afterEnd)
  | waiting (hs : b.slot ≠ .awaited) (hl : b.lines = []) (hf : b.failure = none)
      (he : b.ended = false) : Starting b (.ok ({ b with slot := .awaited }, none))

theorem read_starting (b : LineBuffer) : Starting b b.read := by
  by_cases hs : b.slot = .awaited
  · simpa [LineBuffer.read, hs] using Starting.outstanding hs
  · cases hl : b.lines with
    | cons line rest => simpa [LineBuffer.read, hs, hl] using Starting.line hs hl
    | nil =>
      cases hf : b.failure with
      | some message => simpa [LineBuffer.read, hs, hl, hf] using Starting.failed hs hl hf
      | none =>
        cases he : b.ended with
        | true =>
          have hd := (isDone_iff b).2 ⟨he, hl, hf⟩
          simpa [LineBuffer.read, hs, hl, hf, he] using Starting.afterEnd hs hd
        | false => simpa [LineBuffer.read, hs, hl, hf, he] using Starting.waiting hs hl hf he

theorem Sound.read {b rest : LineBuffer} {a : Option Answer} (hb : b.Sound)
    (h : b.read = .ok (rest, a)) : rest.Sound := by
  have hs := read_starting b
  rw [h] at hs
  cases hs with
  | line _ _ => exact ⟨hb.residue_clean, hb.residue_ended, hb.failure_ended, by simp⟩
  | failed _ _ _ => exact ⟨hb.residue_clean, hb.residue_ended, by simp, by simp⟩
  | waiting _ hl hf he =>
    exact ⟨hb.residue_clean, hb.residue_ended, hb.failure_ended, fun _ => ⟨hl, hf, he⟩⟩

theorem read_remaining {b rest : LineBuffer} {a : Option Answer} (h : b.read = .ok (rest, a))
    (later : List UInt8) : handed a ++ rest.remaining later = b.remaining later := by
  have hs := read_starting b
  rw [h] at hs
  cases hs with
  | line _ hl => simp [handed, Answer.line?, remaining, hl]
  | failed _ _ _ => simp [handed, Answer.line?, remaining]
  | waiting _ _ _ _ => simp [handed, remaining]

theorem read_ended {b rest : LineBuffer} {a : Option Answer} (h : b.read = .ok (rest, a)) :
    rest.ended = b.ended := by
  have hs := read_starting b
  rw [h] at hs
  cases hs <;> rfl

theorem read_plain {b rest : LineBuffer} {a : Option Answer} (hf : b.failure = none)
    (h : b.read = .ok (rest, a)) : Plain (rest, a) := by
  have hs := read_starting b
  rw [h] at hs
  cases hs with
  | line _ _ => exact ⟨hf, by simp⟩
  | failed _ _ hm => simp [hf] at hm
  | waiting _ _ _ _ => exact ⟨hf, by simp⟩

/-- A buffer that is done has no answer left for a read. -/
theorem read_of_isDone {b rest : LineBuffer} {a : Option Answer} (hd : b.isDone = true) :
    b.read ≠ .ok (rest, a) := by
  obtain ⟨he, hl, hf⟩ := (isDone_iff b).1 hd
  intro h
  have hs := read_starting b
  rw [h] at hs
  cases hs with
  | line _ hl' => simp [hl] at hl'
  | failed _ _ hf' => simp [hf] at hf'
  | waiting _ _ _ he' => simp [he] at he'

end LineBuffer
end PromptLoop
