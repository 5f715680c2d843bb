import PromptLoop.Proofs.Lines.Channels
import PromptLoop.Proofs.Lines.Conservation

set_option autoImplicit false

namespace PromptLoop

def nextReply (history : List ReaderOp) : Reply :=
  (ledger history).reader.start.2

def Refused (history : List ReaderOp) (i : Nat) : Prop :=
  ∃ before after, history = before ++ .start :: after ∧ before.count .start = i ∧
    ∃ fault, nextReply before = .fault fault

def Answered (history : List ReaderOp) (i : Nat) : Prop :=
  ∃ a, (i, a) ∈ (ledger history).given

def Dropped (history : List ReaderOp) (i : Nat) : Prop :=
  ∃ before after, history = before ++ .drop i :: after ∧ i < before.count .start

structure Outstanding (history : List ReaderOp) (i : Nat) : Prop where
  started : i < history.count .start
  not_refused : ¬ Refused history i
  not_answered : ¬ Answered history i
  not_dropped : ¬ Dropped history i

theorem Performed.length {r r' : LineReader} {op : ReaderOp} {given received : List (Nat × Answer)}
    (h : Performed r op r' given received) :
    r'.reads.length = r.reads.length + [op].count .start := by
  have hsupply {op : ReaderOp} (hop : op.isSupply = true) : [op].count .start = 0 := by
    cases op with
    | start => cases hop
    | _ => rfl
  cases h with
  | supplied hop _ => rw [hsupply hop, Nat.add_zero]
  | answered hop _ _ => rw [hsupply hop, Nat.add_zero, List.length_set]
  | begun _ => exact List.length_append
  | served _ => exact List.length_append
  | refused _ => exact List.length_append
  | looked => rfl
  | ignored _ => rfl
  | taken _ => exact List.length_set
  | abandoned _ => exact List.length_set
  | lost _ => exact List.length_set

theorem reads_length (history : List ReaderOp) :
    (ledger history).reader.reads.length = history.count .start := by
  induction history using List.reverseRec with
  | nil => rfl
  | append_singleton history op ih =>
    rw [ledger_concat, List.count_append, ← ih]
    exact (ledger_performed history op).length

theorem LineReader.start_fault {r : LineReader} {fault : ReadFault} :
    r.start.2 = .fault fault ↔ r.buffer.read = .error fault := by
  unfold LineReader.start
  cases r.buffer.read with
  | error f => simp
  | ok result =>
    obtain ⟨b, _ | a⟩ := result
    · simp
    · simp

theorem Performed.over {r r' : LineReader} {op : ReaderOp} {given received : List (Nat × Answer)}
    (h : Performed r op r' given received) {i : Nat} (hi : r'.reads[i]? = some .over) :
    r.reads[i]? = some .over ∨ (∃ a, (i, a) ∈ given) ∨ (∃ a, r.reads[i]? = some (.answered a)) ∨
      (op = .start ∧ i = r.reads.length ∧ ∃ fault, r.buffer.read = .error fault) ∨
      (op = .drop i ∧ i < r.reads.length) := by
  cases h with
  | supplied _ _ => exact .inl hi
  | looked => exact .inl hi
  | ignored _ => exact .inl hi
  | @answered _ j a _ _ hj =>
    rcases getElem?_set_cases hj (.answered a) i with ⟨-, hset⟩ | ⟨-, hset⟩
    · rw [hset] at hi
      cases hi
    · exact .inl (hset.symm.trans hi)
  | begun _ =>
    rcases getElem?_concat_cases r.reads .waiting i with ⟨-, hlast⟩ | ⟨-, hfront⟩
    · rw [hlast] at hi
      cases hi
    · exact .inl (hfront.symm.trans hi)
  | @served _ a _ =>
    rcases getElem?_concat_cases r.reads .over i with ⟨rfl, -⟩ | ⟨-, hfront⟩
    · exact .inr (.inl ⟨a, List.mem_singleton_self _⟩)
    · exact .inl (hfront.symm.trans hi)
  | refused hread =>
    rcases getElem?_concat_cases r.reads .over i with ⟨rfl, -⟩ | ⟨-, hfront⟩
    · exact .inr (.inr (.inr (.inl ⟨rfl, rfl, _, hread⟩)))
    · exact .inl (hfront.symm.trans hi)
  | @taken j a hj =>
    rcases getElem?_set_cases hj .over i with ⟨rfl, -⟩ | ⟨-, hset⟩
    · exact .inr (.inr (.inl ⟨a, hj⟩))
    · exact .inl (hset.symm.trans hi)
  | @abandoned j hj =>
    rcases getElem?_set_cases hj .over i with ⟨rfl, -⟩ | ⟨-, hset⟩
    · exact .inr (.inr (.inr (.inr ⟨rfl, (List.getElem?_eq_some_iff.1 hj).1⟩)))
    · exact .inl (hset.symm.trans hi)
  | @lost j a hj =>
    rcases getElem?_set_cases hj .over i with ⟨rfl, -⟩ | ⟨-, hset⟩
    · exact .inr (.inr (.inl ⟨a, hj⟩))
    · exact .inl (hset.symm.trans hi)

theorem Answered.snoc {history : List ReaderOp} {i : Nat} (h : Answered history i)
    (op : ReaderOp) : Answered (history ++ [op]) i := by
  obtain ⟨a, ha⟩ := h
  refine ⟨a, ?_⟩
  rw [ledger_concat]
  exact List.mem_append_left _ ha

theorem answered_of_held {history : List ReaderOp} {i : Nat} {a : Answer}
    (h : (ledger history).reader.reads[i]? = some (.answered a)) : Answered history i := by
  have hlife := life history i
  rw [h] at hlife
  exact ⟨a, mem_answersTo.1 (hlife.of_answered.1 ▸ List.mem_singleton_self a)⟩

/-- A read ends by being answered, refused or dropped. -/
theorem over_cases {history : List ReaderOp} {i : Nat}
    (h : (ledger history).reader.reads[i]? = some .over) :
    Answered history i ∨ Refused history i ∨ Dropped history i := by
  induction history using List.reverseRec with
  | nil => cases h
  | append_singleton history op ih =>
    rw [ledger_concat] at h
    rcases (ledger_performed history op).over h with
      hover | ⟨a, ha⟩ | ⟨a, ha⟩ | ⟨rfl, hi, fault, hread⟩ | ⟨rfl, hi⟩
    · rcases ih hover with ha | ⟨before, after, rfl, hrest⟩ | ⟨before, after, rfl, hrest⟩
      · exact .inl (ha.snoc op)
      · exact .inr (.inl ⟨before, after ++ [op], by simp, hrest⟩)
      · exact .inr (.inr ⟨before, after ++ [op], by simp, hrest⟩)
    · refine .inl ⟨a, ?_⟩
      rw [ledger_concat]
      exact List.mem_append_right _ ha
    · exact .inl ((answered_of_held ha).snoc op)
    · rw [reads_length] at hi
      exact .inr (.inl ⟨history, [], rfl, hi.symm, fault, LineReader.start_fault.2 hread⟩)
    · rw [reads_length] at hi
      exact .inr (.inr ⟨history, [], rfl, hi⟩)

theorem Refused.over {history : List ReaderOp} {i : Nat} (h : Refused history i) :
    (ledger history).reader.reads[i]? = some .over := by
  obtain ⟨before, after, rfl, rfl, fault, hfault⟩ := h
  have hread := LineReader.start_fault.1 hfault
  have hend : (ledger (before ++ [.start])).reader.reads[before.count .start]? = some .over := by
    have hstart : (ledger before).reader.start =
        (⟨(ledger before).reader.buffer, (ledger before).reader.reads ++ [.over]⟩, .fault fault) := by
      simp only [LineReader.start, hread]
    rw [ledger_concat]
    simp only [Ledger.record, LineReader.perform, hstart, ← reads_length]
    exact List.getElem?_concat_length
  have hstays := (over_stays hend after).1
  rwa [← List.append_cons] at hstays

theorem Dropped.over {history : List ReaderOp} {i : Nat} (h : Dropped history i) :
    (ledger history).reader.reads[i]? = some .over := by
  obtain ⟨before, after, rfl, hi⟩ := h
  rw [← reads_length] at hi
  exact (drop_ends (List.getElem?_eq_getElem hi) after).1

theorem outstanding_iff (history : List ReaderOp) (i : Nat) :
    Outstanding history i ↔ (ledger history).reader.reads[i]? = some .waiting := by
  constructor
  · intro h
    have hlt := h.started
    rw [← reads_length] at hlt
    have hi := List.getElem?_eq_getElem hlt
    rcases hs : (ledger history).reader.reads[i] with _ | a | _
    · rw [hi, hs]
    · rw [hs] at hi
      exact absurd (answered_of_held hi) h.not_answered
    · rw [hs] at hi
      rcases over_cases hi with ha | hr | hd
      · exact absurd ha h.not_answered
      · exact absurd hr h.not_refused
      · exact absurd hd h.not_dropped
  · intro hi
    have hover : (ledger history).reader.reads[i]? ≠ some .over := by
      rw [hi]
      simp
    refine ⟨?_, fun h => hover h.over, ?_, fun h => hover h.over⟩
    · rw [← reads_length]
      exact (List.getElem?_eq_some_iff.1 hi).1
    · rintro ⟨a, ha⟩
      have hlife := life history i
      rw [hi] at hlife
      have hnone := mem_answersTo.2 ha
      rw [hlife.of_waiting.1] at hnone
      cases hnone

theorem awaited_iff (history : List ReaderOp) :
    (ledger history).reader.buffer.slot = .awaited ↔ ∃ i, Outstanding history i := by
  have ht := (ledger_tracked history).2
  unfold LineReader.Tracked at ht
  simp only [outstanding_iff, ← List.mem_iff_getElem?, ← List.count_pos_iff, ht]
  split <;> simp [*]

theorem Outstanding.unique {history : List ReaderOp} {i j : Nat} (hi : Outstanding history i)
    (hj : Outstanding history j) : j = i := by
  have hwaiting := (outstanding_iff history i).1 hi
  have hover : ReadState.over ≠ .waiting := by simp
  have hcount := count_waiting_set hwaiting hover
  rw [(ledger_tracked history).2, if_pos ((awaited_iff history).2 ⟨i, hi⟩)] at hcount
  rcases getElem?_set_cases hwaiting .over j with ⟨h, -⟩ | ⟨-, hset⟩
  · exact h
  · rw [(outstanding_iff history j).1 hj] at hset
    exact absurd (List.mem_of_getElem? hset) (List.count_eq_zero.1 hcount)

namespace LineReader
variable {r : LineReader}

theorem poll_waiting {i : Nat} : (r.poll i).2 = .waiting ↔ r.reads[i]? = some .waiting := by
  unfold poll
  cases r.reads[i]? with
  | none => simp
  | some state => cases state <;> simp

end LineReader

inductive NextRead (history : List ReaderOp) (b : LineBuffer) : Reply → Prop where
  | outstanding (ho : ∃ i, Outstanding history i) (hd : b.isDone = false) (hl : b.lines = [])
      (hf : b.failure = none) : NextRead history b (.fault .outstanding)
  | answered {a : Answer} (ho : ¬ ∃ i, Outstanding history i) (hd : b.isDone = false)
      (hheld : b.lines ≠ [] ∨ b.failure ≠ none) (ha : b.items.head? = some a) :
      NextRead history b (.answer a)
  | afterEnd (ho : ¬ ∃ i, Outstanding history i) (hd : b.isDone = true) (hl : b.lines = [])
      (hf : b.failure = none) : NextRead history b (.fault .afterEnd)
  | waiting (ho : ¬ ∃ i, Outstanding history i) (hd : b.isDone = false) (hl : b.lines = [])
      (hf : b.failure = none) : NextRead history b .waiting

theorem next_read (history : List ReaderOp) :
    NextRead history (ledger history).reader.buffer (nextReply history) := by
  have hb := (ledger_tracked history).1
  have hawaited := awaited_iff history
  unfold nextReply
  generalize (ledger history).reader = r at hb hawaited ⊢
  have hs := LineBuffer.read_starting r.buffer
  cases hread : r.buffer.read with
  | error fault =>
    rw [hread] at hs
    rw [LineReader.start_fault.2 hread]
    cases hs with
    | outstanding hs =>
      obtain ⟨hl, hf, he⟩ := hb.waiting (by simp [hs])
      exact .outstanding (hawaited.1 hs) (by simp [LineBuffer.isDone, he]) hl hf
    | afterEnd hs hd =>
      obtain ⟨-, hl, hf⟩ := (LineBuffer.isDone_iff _).1 hd
      exact .afterEnd (mt hawaited.2 hs) hd hl hf
  | ok result =>
    rw [hread] at hs
    simp only [LineReader.start, hread]
    cases hs with
    | line hs hl =>
      exact .answered (mt hawaited.2 hs) (by simp [LineBuffer.isDone, hl]) (.inl (by simp [hl]))
        (by simp [LineBuffer.items, hl])
    | failed hs hl hf =>
      exact .answered (mt hawaited.2 hs) (by simp [LineBuffer.isDone, hf]) (.inr (by simp [hf]))
        (by simp [LineBuffer.items, hl, hf])
    | waiting hs hl hf he =>
      exact .waiting (mt hawaited.2 hs) (by simp [LineBuffer.isDone, he]) hl hf

theorem LineBuffer.supplied_of_ended {b : LineBuffer} (he : b.ended = true) {op : ReaderOp}
    (hop : op ≠ .interrupt) : b.supplied op = b := by
  cases op with
  | interrupt => exact absurd rfl hop
  | feed chunk => exact if_pos he
  | finish => exact if_pos he
  | fail message => exact if_pos he
  | _ => rfl

theorem Performed.isDone {r r' : LineReader} {op : ReaderOp} {given received : List (Nat × Answer)}
    (h : Performed r op r' given received) (hb : r.buffer.Sound) (hop : op ≠ .interrupt)
    (hd : r.buffer.isDone = true) : r'.buffer.isDone = true := by
  have hsupplied := LineBuffer.supplied_of_ended ((LineBuffer.isDone_iff _).1 hd).1 hop
  cases h with
  | supplied _ _ =>
    rw [hsupplied, hb.settle_self]
    exact hd
  | answered _ _ _ =>
    rw [hsupplied, hb.settle_self]
    exact hd
  | begun hread => exact absurd hread (LineBuffer.read_of_isDone hd)
  | served hread => exact absurd hread (LineBuffer.read_of_isDone hd)
  | abandoned _ =>
    unfold LineBuffer.abandon
    split <;> exact hd
  | _ => exact hd

theorem ledger_isDone {history : List ReaderOp} (hd : (ledger history).reader.buffer.isDone = true)
    {later : List ReaderOp} (hlater : .interrupt ∉ later) :
    (ledger (history ++ later)).reader.buffer.isDone = true := by
  induction later using List.reverseRec with
  | nil => rwa [List.append_nil]
  | append_singleton later op ih =>
    have hrest := ih fun h => hlater (List.mem_append_left _ h)
    rw [← List.append_assoc, ledger_concat]
    refine (ledger_performed (history ++ later) op).isDone (ledger_tracked _).1 ?_ hrest
    rintro rfl
    exact hlater (List.mem_append_right _ (List.mem_singleton_self _))

structure NextContract (history : List ReaderOp) (b : LineBuffer) (reply : Reply) : Prop where
  /-- The read is refused if another one is outstanding or nothing will come any more. -/
  refused : (∃ fault, reply = .fault fault) ↔
    (∃ i, Outstanding history i) ∨ b.isDone = true
  refused_outstanding : reply = .fault .outstanding ↔ ∃ i, Outstanding history i
  refused_afterEnd : reply = .fault .afterEnd ↔ b.isDone = true
  answered : (∃ a, reply = .answer a) ↔ b.lines ≠ [] ∨ b.failure ≠ none
  first : ∀ a, reply = .answer a → b.items.head? = some a
  waits : reply = .waiting ↔ ¬ ((∃ i, Outstanding history i) ∨ b.isDone = true ∨ b.lines ≠ [] ∨
    b.failure ≠ none)

theorem NextRead.contract {history : List ReaderOp} {b : LineBuffer} {reply : Reply}
    (h : NextRead history b reply) : NextContract history b reply := by
  cases h <;> constructor <;> simp [*]

/-- What a reader promises its callers behind a history of calls. -/
structure ReadContract (history : List ReaderOp) : Prop where
  next : NextContract history (ledger history).reader.buffer (nextReply history)
  unique : ∀ i j, Outstanding history i → Outstanding history j → i = j
  once : ∀ i, (answersTo i (ledger history).given).length ≤ 1
  /-- A read that is outstanding waits, and no other one does. -/
  waiting : ∀ i, ((ledger history).reader.poll i).2 = .waiting ↔ Outstanding history i
  /-- The reader with its channels is this reader, and a read learns the same from both: no channel
  is cut off. -/
  channels_eq : (channels history).toReader = (ledger history).reader
  channels_next : (channels history).start.2 = nextReply history
  channels_poll : ∀ i, ((channels history).poll i).2 = .reply ((ledger history).reader.poll i).2
  /-- A reader that is done stays so until an interrupt. -/
  done : (ledger history).reader.buffer.isDone = true → ∀ later, .interrupt ∉ later →
    (ledger (history ++ later)).reader.buffer.isDone = true

theorem read_contract (history : List ReaderOp) : ReadContract history where
  next := (next_read history).contract
  unique _ _ hi hj := hj.unique hi
  once i := (life history i).given_length
  waiting i := LineReader.poll_waiting.trans (outstanding_iff history i).symm
  channels_eq := (channels_toReader history).2
  channels_next := PromptLoop.channels_start history
  channels_poll := PromptLoop.channels_poll history
  done hd _ hlater := ledger_isDone hd hlater

end PromptLoop
