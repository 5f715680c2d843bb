import Mathlib.Data.List.Induction
import PromptLoop.Lines.Reader
import PromptLoop.Proofs.Lines.Handover

set_option autoImplicit false

/-!
# Who was given what

A history of calls on a reader is written down in a ledger: which answers were put into which
reads, and which answers the owners of reads have got. `Performed` is all that a call can do. It
takes each read one turn further (`Turn`), so each read leads a life of its own (`Life`): it is
answered at most once, the answer is got or held, and it is lost only if the read is dropped in
between.
-/
namespace PromptLoop

inductive ReaderOp where
  | feed (chunk : List UInt8)
  | finish
  | fail (message : String)
  | interrupt
  | start
  | poll (i : Nat)
  | drop (i : Nat)
deriving DecidableEq

def ReaderOp.isSupply : ReaderOp → Bool
  | .feed _ | .finish | .fail _ | .interrupt => true
  | _ => false

def Reply.answer? : Reply → Option Answer
  | .answer a => some a
  | _ => none

def answeredSince (i : Nat) : List ReadState → List ReadState → List (Nat × Answer)
  | .waiting :: before, .answered a :: after => (i, a) :: answeredSince (i + 1) before after
  | _ :: before, _ :: after => answeredSince (i + 1) before after
  | _, _ => []

namespace LineReader

def perform (r : LineReader) : ReaderOp → LineReader
  | .feed chunk => r.feed chunk
  | .finish => r.finish
  | .fail message => r.fail message
  | .interrupt => r.interrupt
  | .start => r.start.1
  | .poll i => (r.poll i).1
  | .drop i => r.drop i

def received (r : LineReader) : ReaderOp → List (Nat × Answer)
  | .start => r.start.2.answer?.toList.map (r.reads.length, ·)
  | .poll i => (r.poll i).2.answer?.toList.map (i, ·)
  | _ => []

def given (r : LineReader) (op : ReaderOp) : List (Nat × Answer) :=
  match op with
  | .start => r.received .start
  | op => answeredSince 0 r.reads (r.perform op).reads

end LineReader

def LineBuffer.supplied (b : LineBuffer) : ReaderOp → LineBuffer
  | .feed chunk =>
    if b.ended then b
    else
      let cut := chunk.foldl Cut.push ⟨[], b.residue⟩
      { b with lines := b.lines ++ cut.lines.reverse.map Utf8.toText, residue := cut.residue }
  | .finish =>
    if b.ended then b
    else
      let last := if b.residue.isEmpty then [] else [Utf8.toText (separator :: b.residue).reverse]
      { b with lines := b.lines ++ last, residue := [], ended := true }
  | .fail message =>
    if b.ended then b
    else { b with residue := [], ended := true, failure := some message }
  | .interrupt => { b with residue := [], lines := [interruptMarker] }
  | _ => b

/-- What a call can do: the reader behind it, the answers that it puts into reads and those that an
owner gets. -/
inductive Performed (r : LineReader) : ReaderOp → LineReader → List (Nat × Answer) →
    List (Nat × Answer) → Prop where
  | supplied {op : ReaderOp} (hop : op.isSupply = true)
      (ha : (r.buffer.supplied op).settle.2 = none) :
      Performed r op ⟨(r.buffer.supplied op).settle.1, r.reads⟩ [] []
  | answered {op : ReaderOp} {i : Nat} {a : Answer} (hop : op.isSupply = true)
      (ha : (r.buffer.supplied op).settle.2 = some a) (hi : r.reads[i]? = some .waiting) :
      Performed r op ⟨(r.buffer.supplied op).settle.1, r.reads.set i (.answered a)⟩ [(i, a)] []
  | begun {b : LineBuffer} (hread : r.buffer.read = .ok (b, none)) :
      Performed r .start ⟨b, r.reads ++ [.waiting]⟩ [] []
  | served {b : LineBuffer} {a : Answer} (hread : r.buffer.read = .ok (b, some a)) :
      Performed r .start ⟨b, r.reads ++ [.over]⟩ [(r.reads.length, a)] [(r.reads.length, a)]
  | refused {fault : ReadFault} (hread : r.buffer.read = .error fault) :
      Performed r .start ⟨r.buffer, r.reads ++ [.over]⟩ [] []
  | looked {i : Nat} : Performed r (.poll i) r [] []
  | taken {i : Nat} {a : Answer} (hi : r.reads[i]? = some (.answered a)) :
      Performed r (.poll i) ⟨r.buffer, r.reads.set i .over⟩ [] [(i, a)]
  | abandoned {i : Nat} (hi : r.reads[i]? = some .waiting) :
      Performed r (.drop i) ⟨r.buffer.abandon, r.reads.set i .over⟩ [] []
  | lost {i : Nat} {a : Answer} (hi : r.reads[i]? = some (.answered a)) :
      Performed r (.drop i) ⟨r.buffer, r.reads.set i .over⟩ [] []
  | ignored {i : Nat} (hi : r.reads[i]? = none ∨ r.reads[i]? = some .over) :
      Performed r (.drop i) r [] []

theorem answeredSince_self (k : Nat) (reads : List ReadState) :
    answeredSince k reads reads = [] := by
  induction reads generalizing k with
  | nil => rfl
  | cons state rest ih => cases state <;> exact ih (k + 1)

theorem answeredSince_set_over (k i : Nat) (reads : List ReadState) :
    answeredSince k reads (reads.set i .over) = [] := by
  induction reads generalizing k i with
  | nil => rfl
  | cons state rest ih =>
    cases i with
    | zero => cases state <;> exact answeredSince_self (k + 1) rest
    | succ i => cases state <;> exact ih (k + 1) i

theorem answeredSince_set_answered (k : Nat) {i : Nat} {reads : List ReadState} (a : Answer)
    (h : reads[i]? = some .waiting) :
    answeredSince k reads (reads.set i (.answered a)) = [(k + i, a)] := by
  induction reads generalizing k i with
  | nil => cases h
  | cons state rest ih =>
    cases i with
    | zero =>
      cases h
      exact congrArg ((k, a) :: ·) (answeredSince_self (k + 1) rest)
    | succ i =>
      have hrest := ih (k + 1) (i := i) h
      rw [Nat.succ_add_eq_add_succ] at hrest
      cases state <;> exact hrest

namespace LineReader

def Tracked (r : LineReader) : Prop :=
  r.reads.count .waiting = if r.buffer.slot = .awaited then 1 else 0

theorem deliver_of_count_zero {reads : List ReadState} (h : reads.count .waiting = 0)
    (a : Option Answer) : deliver reads a = reads := by
  cases a with
  | none => rfl
  | some a =>
    have hself : ∀ state ∈ reads, (if state = .waiting then .answered a else state) = state := by
      intro state hs
      refine if_neg ?_
      rintro rfl
      exact List.count_eq_zero.1 h hs
    exact (List.map_congr_left hself).trans (List.map_id' reads)

theorem exists_deliver {reads : List ReadState} (h : reads.count .waiting = 1) (a : Answer) :
    ∃ i, reads[i]? = some .waiting ∧ deliver reads (some a) = reads.set i (.answered a) := by
  induction reads with
  | nil => cases h
  | cons state rest ih =>
    by_cases hs : state = .waiting
    · subst hs
      rw [List.count_cons_self] at h
      have hrest := deliver_of_count_zero (Nat.succ.inj h) (some a)
      exact ⟨0, rfl, congrArg (ReadState.answered a :: ·) hrest⟩
    · rw [List.count_cons_of_ne hs] at h
      obtain ⟨i, hi, hdeliver⟩ := ih h
      refine ⟨i + 1, hi, ?_⟩
      have hcons : deliver (state :: rest) (some a) = state :: deliver rest (some a) :=
        congrArg (· :: _) (if_neg hs)
      rw [hcons, hdeliver]
      rfl

end LineReader

namespace LineBuffer
variable {b : LineBuffer}

theorem Sound.settle_self (hb : b.Sound) : b.settle = (b, none) := by
  by_cases hs : b.slot = .free
  · simp only [settle, hs]
  · have ha := (answer?_eq_none_iff b).2 (hb.waiting hs)
    unfold settle
    rw [ha]
    cases b.slot <;> rfl

theorem settle_slot (b : LineBuffer) :
    (b.settle.2 = none ∧ (b.settle.1.slot = .awaited ↔ b.slot = .awaited)) ∨
      ∃ a, b.settle.2 = some a ∧ b.slot = .awaited ∧ b.settle.1.slot = .free := by
  have h := settle_settling b
  generalize b.settle = r at h
  cases h with
  | kept _ => exact .inl ⟨rfl, Iff.rfl⟩
  | abandoned hs =>
    exact .inl ⟨rfl, by simp [hs]⟩
  | line hs _ => exact .inr ⟨_, rfl, hs, rfl⟩
  | failed hs _ _ => exact .inr ⟨_, rfl, hs, rfl⟩
  | ended hs _ _ _ => exact .inr ⟨_, rfl, hs, rfl⟩

theorem supplied_slot (b : LineBuffer) (op : ReaderOp) : (b.supplied op).slot = b.slot := by
  cases op with
  | feed chunk =>
    simp only [supplied]
    split <;> rfl
  | finish =>
    simp only [supplied]
    split <;> rfl
  | fail message =>
    simp only [supplied]
    split <;> rfl
  | _ => rfl

theorem Sound.abandon (hb : b.Sound) : b.abandon.Sound := by
  unfold LineBuffer.abandon
  split
  · rename_i hs
    exact ⟨hb.residue_clean, hb.residue_ended, hb.failure_ended, fun _ => hb.waiting (by simp [hs])⟩
  · exact hb

theorem Sound.feed_eq (hb : b.Sound) (chunk : List UInt8) :
    b.feed chunk = (b.supplied (.feed chunk)).settle := by
  unfold LineBuffer.feed supplied
  split
  · exact hb.settle_self.symm
  · rfl

theorem Sound.finish_eq (hb : b.Sound) : b.finish = (b.supplied .finish).settle := by
  unfold LineBuffer.finish supplied
  split
  · exact hb.settle_self.symm
  · rfl

theorem Sound.fail_eq (hb : b.Sound) (message : String) :
    b.fail message = (b.supplied (.fail message)).settle := by
  unfold LineBuffer.fail supplied
  split
  · exact hb.settle_self.symm
  · rfl

end LineBuffer

namespace LineReader
variable {r : LineReader} {op : ReaderOp}

/-- What is added to the buffer goes to the read that waits, if there is one. -/
theorem performed_change (hop : op.isSupply = true) (ht : r.Tracked)
    {f : LineBuffer → LineBuffer × Option Answer}
    (hf : f r.buffer = (r.buffer.supplied op).settle) :
    Performed r op (r.change f) (answeredSince 0 r.reads (r.change f).reads) [] := by
  have hchange : r.change f = ⟨(r.buffer.supplied op).settle.1,
      deliver r.reads (r.buffer.supplied op).settle.2⟩ := by
    unfold change
    rw [hf]
  rw [hchange]
  rcases (r.buffer.supplied op).settle_slot with ⟨ha, -⟩ | ⟨a, ha, hs, -⟩
  · have hkept : deliver r.reads (r.buffer.supplied op).settle.2 = r.reads := by
      rw [ha]
      rfl
    rw [hkept, answeredSince_self]
    exact .supplied hop ha
  · rw [LineBuffer.supplied_slot] at hs
    unfold Tracked at ht
    rw [if_pos hs] at ht
    obtain ⟨i, hi, hdeliver⟩ := exists_deliver ht a
    rw [ha, hdeliver, answeredSince_set_answered 0 a hi, Nat.zero_add]
    exact .answered hop ha hi

theorem performed_start : Performed r .start (r.perform .start) (r.given .start)
    (r.received .start) := by
  cases hread : r.buffer.read with
  | error fault =>
    have hstart : r.start = (⟨r.buffer, r.reads ++ [.over]⟩, .fault fault) := by
      simp only [start, hread]
    simp only [perform, given, received, hstart]
    exact .refused hread
  | ok result =>
    obtain ⟨b, a⟩ := result
    cases a with
    | none =>
      have hstart : r.start = (⟨b, r.reads ++ [.waiting]⟩, .waiting) := by
        simp only [start, hread]
      simp only [perform, given, received, hstart]
      exact .begun hread
    | some a =>
      have hstart : r.start = (⟨b, r.reads ++ [.over]⟩, .answer a) := by
        simp only [start, hread]
      simp only [perform, given, received, hstart]
      exact .served hread

theorem performed_poll (i : Nat) : Performed r (.poll i) (r.perform (.poll i))
    (r.given (.poll i)) (r.received (.poll i)) := by
  have hlooked (h : r.poll i = (r, .waiting) ∨ r.poll i = (r, .absent)) :
      Performed r (.poll i) (r.perform (.poll i)) (r.given (.poll i)) (r.received (.poll i)) := by
    rcases h with h | h
    all_goals
      simp only [perform, given, received, h, answeredSince_self]
      exact .looked
  cases hi : r.reads[i]? with
  | none => exact hlooked (.inr (by simp only [poll, hi]))
  | some state =>
    cases state with
    | waiting => exact hlooked (.inl (by simp only [poll, hi]))
    | answered a =>
      have hpoll : r.poll i = (⟨r.buffer, r.reads.set i .over⟩, .answer a) := by
        simp only [poll, hi]
      simp only [perform, given, received, hpoll, answeredSince_set_over]
      exact .taken hi
    | _ => exact hlooked (.inr (by simp only [poll, hi]))

theorem performed_drop (i : Nat) : Performed r (.drop i) (r.perform (.drop i))
    (r.given (.drop i)) (r.received (.drop i)) := by
  cases hi : r.reads[i]? with
  | none =>
    have hdrop : r.drop i = r := by simp only [drop, hi]
    simp only [perform, given, received, hdrop, answeredSince_self]
    exact .ignored (.inl hi)
  | some state =>
    cases state with
    | waiting =>
      have hdrop : r.drop i = ⟨r.buffer.abandon, r.reads.set i .over⟩ := by simp only [drop, hi]
      simp only [perform, given, received, hdrop, answeredSince_set_over]
      exact .abandoned hi
    | answered a =>
      have hdrop : r.drop i = ⟨r.buffer, r.reads.set i .over⟩ := by simp only [drop, hi]
      simp only [perform, given, received, hdrop, answeredSince_set_over]
      exact .lost hi
    | _ =>
      have hdrop : r.drop i = r := by simp only [drop, hi]
      simp only [perform, given, received, hdrop, answeredSince_self]
      exact .ignored (.inr hi)

/-- A call does one of the things that it can do. -/
theorem performed (hb : r.buffer.Sound) (ht : r.Tracked) (op : ReaderOp) :
    Performed r op (r.perform op) (r.given op) (r.received op) := by
  cases op with
  | feed chunk => exact performed_change rfl ht (hb.feed_eq chunk)
  | finish => exact performed_change rfl ht hb.finish_eq
  | fail message => exact performed_change rfl ht (hb.fail_eq message)
  | interrupt => exact performed_change rfl ht (f := LineBuffer.interrupt) rfl
  | start => exact performed_start
  | poll i => exact performed_poll i
  | drop i => exact performed_drop i

end LineReader

theorem LineBuffer.Sound.supplied {b : LineBuffer} (hb : b.Sound) (op : ReaderOp) :
    (b.supplied op).settle.1.Sound := by
  have hself : b.settle.1.Sound := by
    rw [hb.settle_self]
    exact hb
  cases op with
  | feed chunk =>
    rw [← hb.feed_eq]
    exact hb.feed chunk
  | finish =>
    rw [← hb.finish_eq]
    exact hb.finish
  | fail message =>
    rw [← hb.fail_eq]
    exact hb.fail message
  | interrupt => exact hb.interrupt
  | _ => exact hself

theorem count_waiting_set {reads : List ReadState} {i : Nat} {state new : ReadState}
    (hi : reads[i]? = some state) (hnew : new ≠ .waiting) :
    (reads.set i new).count .waiting =
      reads.count .waiting - if state = .waiting then 1 else 0 := by
  obtain ⟨hlt, hget⟩ := List.getElem?_eq_some_iff.1 hi
  simp only [List.count_set hlt, hget, beq_iff_eq, if_neg hnew, Nat.add_zero]

namespace Performed
variable {r r' : LineReader} {op : ReaderOp} {given received : List (Nat × Answer)}

theorem sound (h : Performed r op r' given received) (hb : r.buffer.Sound) : r'.buffer.Sound := by
  cases h with
  | supplied _ _ => exact hb.supplied op
  | answered _ _ _ => exact hb.supplied op
  | begun hread => exact hb.read hread
  | served hread => exact hb.read hread
  | abandoned _ => exact hb.abandon
  | _ => exact hb

theorem tracked (h : Performed r op r' given received) (ht : r.Tracked) : r'.Tracked := by
  unfold LineReader.Tracked at ht ⊢
  have hover : (r.reads ++ [ReadState.over]).count ReadState.waiting =
      r.reads.count ReadState.waiting :=
    List.count_append.trans (Nat.add_zero _)
  cases h with
  | supplied _ ha =>
    rcases (r.buffer.supplied op).settle_slot with ⟨-, hs⟩ | ⟨a, ha', -, -⟩
    · simp only [hs, LineBuffer.supplied_slot]
      exact ht
    · rw [ha] at ha'
      cases ha'
  | answered _ ha hi =>
    rcases (r.buffer.supplied op).settle_slot with ⟨ha', -⟩ | ⟨a, -, hs, hfree⟩
    · rw [ha] at ha'
      cases ha'
    · rw [LineBuffer.supplied_slot] at hs
      rw [if_pos hs] at ht
      rw [count_waiting_set hi (by simp), ht, hfree]
      rfl
  | begun hread =>
    have hstart := LineBuffer.read_starting r.buffer
    rw [hread] at hstart
    cases hstart with
    | waiting hs _ _ _ =>
      rw [if_neg hs] at ht
      rw [List.count_append, ht]
      rfl
  | served hread =>
    have hstart := LineBuffer.read_starting r.buffer
    rw [hread] at hstart
    cases hstart with
    | line hs _ =>
      rw [if_neg hs] at ht
      exact hover.trans ht
    | failed hs _ _ =>
      rw [if_neg hs] at ht
      exact hover.trans ht
  | refused hread => exact hover.trans ht
  | looked => exact ht
  | ignored _ => exact ht
  | taken hi => exact (count_waiting_set hi (by simp)).trans ht
  | lost hi => exact (count_waiting_set hi (by simp)).trans ht
  | abandoned hi =>
    have hpos : 0 < r.reads.count .waiting := List.count_pos_iff.2 (List.mem_of_getElem? hi)
    by_cases hs : r.buffer.slot = .awaited
    · rw [if_pos hs] at ht
      rw [count_waiting_set hi (by simp), ht]
      simp only [LineBuffer.abandon, if_pos hs]
      rfl
    · rw [if_neg hs] at ht
      omega

end Performed

/-- A reader, and who was given what. -/
structure Ledger where
  reader : LineReader := {}
  /-- The answers that were put into reads, with the numbers of the reads, in order. -/
  given : List (Nat × Answer) := []
  received : List (Nat × Answer) := []

def Ledger.record (l : Ledger) (op : ReaderOp) : Ledger :=
  ⟨l.reader.perform op, l.given ++ l.reader.given op, l.received ++ l.reader.received op⟩

/-- The ledger of a history of calls on a new reader. -/
def ledger (history : List ReaderOp) : Ledger :=
  history.foldl Ledger.record {}

def answersTo (i : Nat) (entries : List (Nat × Answer)) : List Answer :=
  entries.filterMap fun entry => if entry.1 = i then some entry.2 else none

def DroppedUnseen (history : List ReaderOp) (i : Nat) (a : Answer) : Prop :=
  ∃ before after, history = before ++ .drop i :: after ∧
    (ledger before).reader.reads[i]? = some (.answered a)

/-- What a read can have gone through: its state, the answers that were put into it and the answers
that its owner has got. -/
inductive Life (history : List ReaderOp) (i : Nat) :
    Option ReadState → List Answer → List Answer → Prop where
  | unborn : Life history i none [] []
  | waiting : Life history i (some .waiting) [] []
  | held (a : Answer) : Life history i (some (.answered a)) [a] []
  | unanswered : Life history i (some .over) [] []
  | received (a : Answer) : Life history i (some .over) [a] [a]
  | lost {a : Answer} (h : DroppedUnseen history i a) : Life history i (some .over) [a] []

theorem ledger_concat (history : List ReaderOp) (op : ReaderOp) :
    ledger (history ++ [op]) = (ledger history).record op :=
  List.foldl_append

theorem ledger_tracked (history : List ReaderOp) :
    (ledger history).reader.buffer.Sound ∧ (ledger history).reader.Tracked := by
  induction history using List.reverseRec with
  | nil => exact ⟨LineBuffer.sound_empty, rfl⟩
  | append_singleton history op ih =>
    have h := LineReader.performed ih.1 ih.2 op
    rw [ledger_concat]
    exact ⟨h.sound ih.1, h.tracked ih.2⟩

theorem ledger_performed (history : List ReaderOp) (op : ReaderOp) :
    Performed (ledger history).reader op ((ledger history).reader.perform op)
      ((ledger history).reader.given op) ((ledger history).reader.received op) :=
  LineReader.performed (ledger_tracked history).1 (ledger_tracked history).2 op

theorem answersTo_append (i : Nat) (front back : List (Nat × Answer)) :
    answersTo i (front ++ back) = answersTo i front ++ answersTo i back :=
  List.filterMap_append

theorem answersTo_self (i : Nat) (a : Answer) : answersTo i [(i, a)] = [a] := by
  simp [answersTo]

theorem answersTo_other {i j : Nat} (h : i ≠ j) (a : Answer) : answersTo i [(j, a)] = [] := by
  simp [answersTo, Ne.symm h]

theorem mem_answersTo {i : Nat} {a : Answer} {entries : List (Nat × Answer)} :
    a ∈ answersTo i entries ↔ (i, a) ∈ entries := by
  simp [answersTo]

namespace Life
variable {history : List ReaderOp} {i : Nat} {state : Option ReadState} {a : Answer}
  {given received : List Answer}

theorem snoc (h : Life history i state given received) (op : ReaderOp) :
    Life (history ++ [op]) i state given received := by
  cases h with
  | lost hd =>
    obtain ⟨before, after, rfl, ha⟩ := hd
    exact .lost ⟨before, after ++ [op], by simp, ha⟩
  | unborn => exact .unborn
  | waiting => exact .waiting
  | held a => exact .held a
  | unanswered => exact .unanswered
  | received a => exact .received a

theorem of_none (h : Life history i none given received) : given = [] ∧ received = [] := by
  cases h
  exact ⟨rfl, rfl⟩

theorem of_waiting (h : Life history i (some .waiting) given received) :
    given = [] ∧ received = [] := by
  cases h
  exact ⟨rfl, rfl⟩

theorem of_answered (h : Life history i (some (.answered a)) given received) :
    given = [a] ∧ received = [] := by
  cases h
  exact ⟨rfl, rfl⟩

theorem given_length (h : Life history i state given received) : given.length ≤ 1 := by
  cases h <;> simp

theorem received_isPrefix (h : Life history i state given received) : received <+: given := by
  cases h <;> simp

theorem fate (h : Life history i state given received) (ha : a ∈ given) :
    a ∈ received ∨ state = some (.answered a) ∨ DroppedUnseen history i a := by
  cases h with
  | held b =>
    rw [List.mem_singleton.1 ha]
    exact .inr (.inl rfl)
  | received b => exact .inl ha
  | lost hd =>
    rw [List.mem_singleton.1 ha]
    exact .inr (.inr hd)
  | _ => cases ha

end Life

theorem getElem?_set_cases {α : Type} {reads : List α} {j : Nat} {old : α}
    (hj : reads[j]? = some old) (new : α) (i : Nat) :
    (i = j ∧ (reads.set j new)[i]? = some new) ∨
      (i ≠ j ∧ (reads.set j new)[i]? = reads[i]?) := by
  by_cases h : i = j
  · subst h
    exact .inl ⟨rfl, List.getElem?_set_self (List.getElem?_eq_some_iff.1 hj).1⟩
  · exact .inr ⟨h, List.getElem?_set_ne (Ne.symm h)⟩

theorem getElem?_concat_cases {α : Type} (reads : List α) (new : α) (i : Nat) :
    (i = reads.length ∧ (reads ++ [new])[i]? = some new) ∨
      (i ≠ reads.length ∧ (reads ++ [new])[i]? = reads[i]?) := by
  rcases Nat.lt_trichotomy i reads.length with h | rfl | h
  · exact .inr ⟨Nat.ne_of_lt h, List.getElem?_append_left h⟩
  · exact .inl ⟨rfl, List.getElem?_concat_length⟩
  · right
    rw [List.getElem?_eq_none (Nat.le_of_lt h)]
    refine ⟨Nat.ne_of_gt h, List.getElem?_eq_none ?_⟩
    rw [List.length_append]
    exact h

/-- What a call does to one read: its states before and behind the call, what is put into it and
what its owner gets. -/
inductive Turn (op : ReaderOp) (i : Nat) : Option ReadState → Option ReadState →
    List Answer → List Answer → Prop where
  | stays (state : Option ReadState) : Turn op i state state [] []
  | begun : Turn op i none (some .waiting) [] []
  | refused : Turn op i none (some .over) [] []
  | served (a : Answer) : Turn op i none (some .over) [a] [a]
  | answered (a : Answer) : Turn op i (some .waiting) (some (.answered a)) [a] []
  | taken (a : Answer) : Turn op i (some (.answered a)) (some .over) [] [a]
  | abandoned : Turn op i (some .waiting) (some .over) [] []
  | lost (a : Answer) (hop : op = .drop i) : Turn op i (some (.answered a)) (some .over) [] []

theorem Performed.turn {r r' : LineReader} {op : ReaderOp} {given received : List (Nat × Answer)}
    (h : Performed r op r' given received) (i : Nat) :
    Turn op i r.reads[i]? r'.reads[i]? (answersTo i given) (answersTo i received) := by
  have hnone : r.reads[r.reads.length]? = none := List.getElem?_eq_none (Nat.le_refl _)
  cases h with
  | supplied _ _ => exact .stays _
  | looked => exact .stays _
  | ignored _ => exact .stays _
  | begun _ =>
    rcases getElem?_concat_cases r.reads .waiting i with ⟨rfl, hi⟩ | ⟨-, hi⟩
    · rw [hi, hnone]
      exact .begun
    · rw [hi]
      exact .stays _
  | refused _ =>
    rcases getElem?_concat_cases r.reads .over i with ⟨rfl, hi⟩ | ⟨-, hi⟩
    · rw [hi, hnone]
      exact .refused
    · rw [hi]
      exact .stays _
  | @served _ a _ =>
    rcases getElem?_concat_cases r.reads .over i with ⟨rfl, hi⟩ | ⟨hne, hi⟩
    · rw [hi, hnone, answersTo_self]
      exact .served a
    · rw [hi, answersTo_other hne]
      exact .stays _
  | @answered _ j a _ _ hj =>
    rcases getElem?_set_cases hj (.answered a) i with ⟨rfl, hi⟩ | ⟨hne, hi⟩
    · rw [hi, hj, answersTo_self]
      exact .answered a
    · rw [hi, answersTo_other hne]
      exact .stays _
  | @taken j a hj =>
    rcases getElem?_set_cases hj .over i with ⟨rfl, hi⟩ | ⟨hne, hi⟩
    · rw [hi, hj, answersTo_self]
      exact .taken a
    · rw [hi, answersTo_other hne]
      exact .stays _
  | @abandoned j hj =>
    rcases getElem?_set_cases hj .over i with ⟨rfl, hi⟩ | ⟨-, hi⟩
    · rw [hi, hj]
      exact .abandoned
    · rw [hi]
      exact .stays _
  | @lost j a hj =>
    rcases getElem?_set_cases hj .over i with ⟨rfl, hi⟩ | ⟨-, hi⟩
    · rw [hi, hj]
      exact .lost a rfl
    · rw [hi]
      exact .stays _

theorem Life.turn {history : List ReaderOp} {op : ReaderOp} {i : Nat}
    {state : Option ReadState} {given received more got : List Answer}
    (h : Life history i (ledger history).reader.reads[i]? given received)
    (hturn : Turn op i (ledger history).reader.reads[i]? state more got) :
    Life (history ++ [op]) i state (given ++ more) (received ++ got) := by
  generalize hs : (ledger history).reader.reads[i]? = before at h hturn
  cases hturn with
  | stays _ =>
    rw [List.append_nil, List.append_nil]
    exact h.snoc op
  | begun =>
    obtain ⟨rfl, rfl⟩ := h.of_none
    exact .waiting
  | refused =>
    obtain ⟨rfl, rfl⟩ := h.of_none
    exact .unanswered
  | served a =>
    obtain ⟨rfl, rfl⟩ := h.of_none
    exact .received a
  | answered a =>
    obtain ⟨rfl, rfl⟩ := h.of_waiting
    exact .held a
  | taken a =>
    obtain ⟨rfl, rfl⟩ := h.of_answered
    exact .received a
  | abandoned =>
    obtain ⟨rfl, rfl⟩ := h.of_waiting
    exact .unanswered
  | lost a hop =>
    obtain ⟨rfl, rfl⟩ := h.of_answered
    subst hop
    exact .lost ⟨history, [], rfl, hs⟩

theorem life (history : List ReaderOp) (i : Nat) :
    Life history i (ledger history).reader.reads[i]? (answersTo i (ledger history).given)
      (answersTo i (ledger history).received) := by
  induction history using List.reverseRec with
  | nil => exact .unborn
  | append_singleton history op ih =>
    have h := ih.turn ((ledger_performed history op).turn i)
    rw [ledger_concat]
    simp only [Ledger.record, answersTo_append]
    exact h

theorem Turn.of_over {op : ReaderOp} {i : Nat} {state : Option ReadState}
    {given received : List Answer} (h : Turn op i (some .over) state given received) :
    state = some .over ∧ given = [] ∧ received = [] := by
  cases h
  exact ⟨rfl, rfl, rfl⟩

theorem Performed.drop {r r' : LineReader} {i : Nat} {given received : List (Nat × Answer)}
    (h : Performed r (.drop i) r' given received) {state : ReadState}
    (hi : r.reads[i]? = some state) : r'.reads[i]? = some .over ∧ given = [] ∧ received = [] := by
  have hset : (r.reads.set i .over)[i]? = some .over :=
    List.getElem?_set_self (List.getElem?_eq_some_iff.1 hi).1
  cases h with
  | supplied hop _ => cases hop
  | answered hop _ _ => cases hop
  | abandoned _ => exact ⟨hset, rfl, rfl⟩
  | lost _ => exact ⟨hset, rfl, rfl⟩
  | ignored hover =>
    rcases hover with hnone | hover
    · rw [hi] at hnone
      cases hnone
    · exact ⟨hover, rfl, rfl⟩

/-- A read that is over stays so: nothing more is put into it or got from it. -/
theorem over_stays {before : List ReaderOp} {i : Nat}
    (h : (ledger before).reader.reads[i]? = some .over) (after : List ReaderOp) :
    (ledger (before ++ after)).reader.reads[i]? = some .over ∧
      answersTo i (ledger (before ++ after)).given = answersTo i (ledger before).given ∧
      answersTo i (ledger (before ++ after)).received = answersTo i (ledger before).received := by
  induction after using List.reverseRec with
  | nil =>
    rw [List.append_nil]
    exact ⟨h, rfl, rfl⟩
  | append_singleton after op ih =>
    obtain ⟨hover, hgiven, hreceived⟩ := ih
    have hturn := (ledger_performed (before ++ after) op).turn i
    rw [hover] at hturn
    obtain ⟨hstays, hno, hnone⟩ := hturn.of_over
    rw [← List.append_assoc, ledger_concat]
    simp only [Ledger.record, answersTo_append, hno, hnone, List.append_nil]
    exact ⟨hstays, hgiven, hreceived⟩

/-- Dropping a read ends it, and no later call changes what it is down for. -/
theorem drop_ends {before : List ReaderOp} {i : Nat} {state : ReadState}
    (h : (ledger before).reader.reads[i]? = some state) (after : List ReaderOp) :
    (ledger (before ++ .drop i :: after)).reader.reads[i]? = some .over ∧
      answersTo i (ledger (before ++ .drop i :: after)).given =
        answersTo i (ledger before).given ∧
      answersTo i (ledger (before ++ .drop i :: after)).received =
        answersTo i (ledger before).received := by
  obtain ⟨hover, hno, hnone⟩ := (ledger_performed before (.drop i)).drop h
  have hdrop : ledger (before ++ [.drop i]) = ⟨(ledger before).reader.perform (.drop i),
      (ledger before).given, (ledger before).received⟩ := by
    rw [ledger_concat, Ledger.record, hno, hnone, List.append_nil, List.append_nil]
  have hend : (ledger (before ++ [.drop i])).reader.reads[i]? = some .over := by
    rw [hdrop]
    exact hover
  have hstays := over_stays hend after
  rw [hdrop, ← List.append_cons] at hstays
  exact hstays

/-- An answer is with the owner of its read or held for it, unless the read was dropped with it. -/
theorem lost_iff (history : List ReaderOp) {i : Nat} {a : Answer}
    (h : (i, a) ∈ (ledger history).given) :
    ((i, a) ∉ (ledger history).received ∧
        (ledger history).reader.reads[i]? ≠ some (.answered a)) ↔ DroppedUnseen history i a := by
  constructor
  · rintro ⟨hgot, hheld⟩
    rcases (life history i).fate (mem_answersTo.2 h) with hr | hs | hd
    · exact absurd (mem_answersTo.1 hr) hgot
    · exact absurd hs hheld
    · exact hd
  · rintro ⟨before, after, rfl, hanswered⟩
    obtain ⟨hover, -, hreceived⟩ := drop_ends hanswered after
    have hunseen := life before i
    rw [hanswered] at hunseen
    refine ⟨fun hgot => ?_, fun hheld => ?_⟩
    · have hmem := mem_answersTo.2 hgot
      rw [hreceived, hunseen.of_answered.2] at hmem
      cases hmem
    · rw [hover] at hheld
      cases hheld

/-- Nothing is ever put into a read that was dropped while it waited. -/
theorem given_of_dropped_waiting {before : List ReaderOp} {i : Nat}
    (h : (ledger before).reader.reads[i]? = some .waiting) (after : List ReaderOp) :
    answersTo i (ledger (before ++ .drop i :: after)).given = [] := by
  have hwaiting := life before i
  rw [h] at hwaiting
  rw [(drop_ends h after).2.1]
  exact hwaiting.of_waiting.1

end PromptLoop
