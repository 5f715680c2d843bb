import PromptLoop.Proofs.Lines.Ledger

set_option autoImplicit false

/-!
# Reads as channels

A read that waits is a channel with two ends. The buffer keeps one of them, at most one at a time,
and the owner of the read holds the other. Whether anybody still waits for an answer shows only when
it is sent: an answer that cannot be sent goes back into the buffer. A channel whose end the buffer
has let go of without an answer is cut off.

`toReader` forgets the channels. It takes every history of calls on such a reader to the history of
the same calls on a line reader (`channels_toReader`), with the same replies. No read is ever cut
off: the end of a channel where a read waits is kept (`Kept`).
-/
namespace PromptLoop

/-- The end that the owner of a read holds, and what was sent to it. -/
structure Channel where
  isOpen : Bool
  answer : Option Answer := none
deriving DecidableEq

inductive Delivery where
  | reply (r : Reply)
  | cutOff
deriving DecidableEq

structure ChannelReader where
  buffer : LineBuffer := {}
  kept : Option Nat := none
  channels : List Channel := []

def LineBuffer.putBack (b : LineBuffer) : Answer → LineBuffer
  | .line l => { b with lines := l :: b.lines }
  | .failed message => { b with failure := some message }
  | .ended => b

theorem LineBuffer.putBack_of_answer? {b rest : LineBuffer} {a : Answer}
    (h : b.answer? = some (a, rest)) : rest.putBack a = b := by
  unfold answer? at h
  split at h
  · rename_i hl
    cases h
    simp [putBack, ← hl]
  · rename_i hl hf
    cases h
    simp [putBack, ← hf]
  · split at h <;> cases h
    rfl

namespace ChannelReader

def isOpen (r : ChannelReader) (i : Nat) : Bool :=
  match r.channels[i]? with
  | some c => c.isOpen
  | none => false

def fulfil (r : ChannelReader) : ChannelReader :=
  match r.kept, r.buffer.answer? with
  | some i, some (a, rest) =>
    if r.isOpen i then ⟨rest, none, r.channels.set i ⟨true, some a⟩⟩
    else ⟨rest.putBack a, none, r.channels⟩
  | _, _ => r

def supply (r : ChannelReader) (op : ReaderOp) : ChannelReader :=
  fulfil { r with buffer := r.buffer.supplied op }

def closed : Channel := ⟨false, none⟩

def start (r : ChannelReader) : ChannelReader × Reply :=
  if r.kept.any r.isOpen then
    ({ r with channels := r.channels ++ [closed] }, .fault .outstanding)
  else match r.buffer.lines, r.buffer.failure with
    | line :: rest, _ =>
      (⟨{ r.buffer with lines := rest }, none, r.channels ++ [closed]⟩, .answer (.line line))
    | [], some message =>
      (⟨{ r.buffer with failure := none }, none, r.channels ++ [closed]⟩,
        .answer (.failed message))
    | [], none =>
      if r.buffer.ended then (⟨r.buffer, none, r.channels ++ [closed]⟩, .fault .afterEnd)
      else (⟨r.buffer, some r.channels.length, r.channels ++ [⟨true, none⟩]⟩, .waiting)

def close (r : ChannelReader) (i : Nat) : ChannelReader :=
  match r.channels[i]? with
  | some c => { r with channels := r.channels.set i { c with isOpen := false } }
  | none => r

def poll (r : ChannelReader) (i : Nat) : ChannelReader × Delivery :=
  match r.channels[i]? with
  | some ⟨true, some a⟩ => (r.close i, .reply (.answer a))
  | some ⟨true, none⟩ =>
    if r.kept = some i then (r, .reply .waiting) else (r.close i, .cutOff)
  | _ => (r, .reply .absent)

def perform (r : ChannelReader) : ReaderOp → ChannelReader
  | .feed chunk => if r.buffer.ended then r else r.supply (.feed chunk)
  | .finish => if r.buffer.ended then r else r.supply .finish
  | .fail message => if r.buffer.ended then r else r.supply (.fail message)
  | .interrupt => r.supply .interrupt
  | .start => r.start.1
  | .poll i => (r.poll i).1
  | .drop i => r.close i

def slot (r : ChannelReader) : Slot :=
  match r.kept with
  | none => .free
  | some i => if r.isOpen i then .awaited else .abandoned

end ChannelReader

def Channel.state (c : Channel) : ReadState :=
  match c with
  | ⟨true, some a⟩ => .answered a
  | ⟨true, none⟩ => .waiting
  | ⟨false, _⟩ => .over

namespace ChannelReader

def toReader (r : ChannelReader) : LineReader :=
  ⟨{ r.buffer with slot := r.slot }, r.channels.map Channel.state⟩

/-- The buffer keeps the end of every channel where a read waits, and has sent nothing into the one
whose end it keeps. -/
structure Kept (r : ChannelReader) : Prop where
  waiting : ∀ i, r.channels[i]? = some ⟨true, none⟩ → r.kept = some i
  unsent : ∀ i, r.kept = some i → ∃ isOpen, r.channels[i]? = some ⟨isOpen, none⟩

variable {r : ChannelReader}

theorem toReader_getElem? (r : ChannelReader) (i : Nat) :
    r.toReader.reads[i]? = (r.channels[i]?).map Channel.state :=
  List.getElem?_map

theorem Kept.eq_waiting (h : r.Kept) {i : Nat} (hk : r.kept = some i) (ho : r.isOpen i = true) :
    r.channels[i]? = some ⟨true, none⟩ := by
  obtain ⟨isOpen, hi⟩ := h.unsent i hk
  unfold ChannelReader.isOpen at ho
  rw [hi] at ho ⊢
  rw [show isOpen = true from ho]

theorem toReader_slot_awaited (r : ChannelReader) :
    r.toReader.buffer.slot = .awaited ↔ r.kept.any r.isOpen = true := by
  change r.slot = .awaited ↔ _
  unfold slot
  cases r.kept with
  | none => simp
  | some i => by_cases ho : r.isOpen i = true <;> simp [ho]

theorem Kept.deliver_eq (h : r.Kept) {i : Nat} (hk : r.kept = some i) (ho : r.isOpen i = true)
    (a : Answer) :
    LineReader.deliver r.toReader.reads (some a) = (r.channels.set i ⟨true, some a⟩).map Channel.state := by
  have hi := h.eq_waiting hk ho
  refine List.ext_getElem? fun j => ?_
  rw [LineReader.deliver, List.getElem?_map, toReader_getElem?, List.getElem?_map]
  by_cases hj : j = i
  · subst hj
    rw [hi, List.getElem?_set_self (List.getElem?_eq_some_iff.1 hi).1]
    rfl
  · rw [List.getElem?_set_ne (Ne.symm hj)]
    cases hc : r.channels[j]? with
    | none => rfl
    | some c =>
      have hne : c.state ≠ .waiting := by
        intro hw
        obtain ⟨_ | _, _ | a⟩ := c
        · cases hw
        · cases hw
        · have hkj := h.waiting j hc
          rw [hk] at hkj
          exact hj (Option.some.inj hkj).symm
        · cases hw
      simp [hne]

theorem answer?_withSlot (b : LineBuffer) (slot : Slot) :
    LineBuffer.answer? { b with slot } =
      b.answer?.map fun (a, rest) => (a, { rest with slot }) := by
  obtain ⟨residue, lines, -, ended, failure⟩ := b
  cases lines with
  | cons line rest => rfl
  | nil =>
    cases failure with
    | some message => rfl
    | none => cases ended <;> rfl

theorem Kept.none_waiting (h : r.Kept) (hk : ¬ r.kept.any r.isOpen = true) (i : Nat) :
    r.channels[i]? ≠ some ⟨true, none⟩ := by
  intro hi
  refine hk ?_
  rw [h.waiting i hi]
  simp only [Option.any_some, isOpen, hi]

theorem Kept.released (h : r.Kept) (hk : ¬ r.kept.any r.isOpen = true) (b : LineBuffer) :
    Kept ⟨b, none, r.channels⟩ ∧
      toReader ⟨b, none, r.channels⟩ = ⟨{ b with slot := .free }, r.toReader.reads⟩ :=
  ⟨⟨fun i hi => absurd hi (h.none_waiting hk i), by simp⟩, rfl⟩

theorem Kept.sent (h : r.Kept) {i : Nat} (hk : r.kept = some i) (ho : r.isOpen i = true)
    (rest : LineBuffer) (a : Answer) :
    Kept ⟨rest, none, r.channels.set i ⟨true, some a⟩⟩ ∧
      toReader ⟨rest, none, r.channels.set i ⟨true, some a⟩⟩ =
        ⟨{ rest with slot := .free }, LineReader.deliver r.toReader.reads (some a)⟩ := by
  refine ⟨⟨fun j hj => ?_, by simp⟩, ?_⟩
  · rcases getElem?_set_cases (h.eq_waiting hk ho) ⟨true, some a⟩ j with ⟨-, hset⟩ | ⟨hji, hset⟩
    · rw [hset] at hj
      cases hj
    · have hkj := h.waiting j (hset.symm.trans hj)
      rw [hk] at hkj
      exact absurd (Option.some.inj hkj).symm hji
  · rw [h.deliver_eq hk ho]
    rfl

theorem Kept.fulfil (h : r.Kept) :
    r.fulfil.Kept ∧ r.fulfil.toReader = ⟨r.toReader.buffer.settle.1,
      LineReader.deliver r.toReader.reads r.toReader.buffer.settle.2⟩ := by
  have hanswer : r.toReader.buffer.answer? =
      r.buffer.answer?.map fun (a, rest) => (a, { rest with slot := r.slot }) :=
    answer?_withSlot r.buffer r.slot
  have hslot : r.toReader.buffer.slot = r.slot := rfl
  unfold ChannelReader.fulfil LineBuffer.settle
  rw [hanswer, hslot]
  cases hk : r.kept with
  | none =>
    simp only [slot, hk]
    exact ⟨h, rfl⟩
  | some i =>
    cases ha : r.buffer.answer? with
    | none =>
      cases r.slot <;> exact ⟨h, rfl⟩
    | some result =>
      obtain ⟨a, rest⟩ := result
      by_cases ho : r.isOpen i = true
      · simp only [slot, hk, if_pos ho, Option.map_some]
        exact h.sent hk ho rest a
      · simp only [slot, hk, if_neg ho, Option.map_some, LineBuffer.putBack_of_answer? ha]
        exact h.released (by simpa [hk] using ho) r.buffer

theorem supplied_withSlot (b : LineBuffer) (slot : Slot) (op : ReaderOp) :
    LineBuffer.supplied { b with slot } op = { b.supplied op with slot } := by
  cases op with
  | feed chunk =>
    simp only [LineBuffer.supplied]
    split <;> rfl
  | finish =>
    simp only [LineBuffer.supplied]
    split <;> rfl
  | fail message =>
    simp only [LineBuffer.supplied]
    split <;> rfl
  | _ => rfl

theorem Kept.supply (h : r.Kept) {op : ReaderOp}
    {f : LineBuffer → LineBuffer × Option Answer}
    (hf : f r.toReader.buffer = (r.toReader.buffer.supplied op).settle) :
    (r.supply op).Kept ∧ (r.supply op).toReader = r.toReader.change f := by
  have hnext : Kept { r with buffer := r.buffer.supplied op } := ⟨h.waiting, h.unsent⟩
  have hbuffer : (toReader { r with buffer := r.buffer.supplied op }).buffer =
      r.toReader.buffer.supplied op := (supplied_withSlot r.buffer r.slot op).symm
  obtain ⟨hkept, heq⟩ := hnext.fulfil
  refine ⟨hkept, ?_⟩
  unfold LineReader.change
  rw [hf, ← hbuffer]
  exact heq

theorem isOpen_append {i : Nat} (hi : i < r.channels.length) (b : LineBuffer)
    (kept : Option Nat) (c : Channel) :
    isOpen ⟨b, kept, r.channels ++ [c]⟩ i = r.isOpen i := by
  simp only [isOpen, List.getElem?_append_left hi]

theorem Kept.refused (h : r.Kept) :
    Kept { r with channels := r.channels ++ [closed] } ∧
      toReader { r with channels := r.channels ++ [closed] } =
        ⟨r.toReader.buffer, r.toReader.reads ++ [.over]⟩ := by
  constructor
  · refine ⟨fun i hi => ?_, fun i hi => ?_⟩
    · rcases getElem?_concat_cases r.channels closed i with ⟨-, hlast⟩ | ⟨-, hfront⟩
      · rw [hlast] at hi
        cases hi
      · exact h.waiting i (hfront.symm.trans hi)
    · obtain ⟨isOpen, hc⟩ := h.unsent i hi
      refine ⟨isOpen, ?_⟩
      rw [List.getElem?_append_left (List.getElem?_eq_some_iff.1 hc).1]
      exact hc
  · have hslot : slot { r with channels := r.channels ++ [closed] } = r.slot := by
      unfold slot
      cases hk : r.kept with
      | none => rfl
      | some i =>
        obtain ⟨isOpen, hc⟩ := h.unsent i hk
        simp only [isOpen_append (List.getElem?_eq_some_iff.1 hc).1]
    unfold toReader
    rw [hslot]
    simp [closed, Channel.state]

theorem Kept.begun (h : r.Kept) (hk : ¬ r.kept.any r.isOpen = true) :
    Kept ⟨r.buffer, some r.channels.length, r.channels ++ [⟨true, none⟩]⟩ ∧
      toReader ⟨r.buffer, some r.channels.length, r.channels ++ [⟨true, none⟩]⟩ =
        ⟨{ r.buffer with slot := .awaited }, r.toReader.reads ++ [.waiting]⟩ := by
  refine ⟨⟨fun i hi => ?_, fun i hi => ?_⟩, ?_⟩
  · rcases getElem?_concat_cases r.channels ⟨true, none⟩ i with ⟨hlen, -⟩ | ⟨-, hfront⟩
    · rw [hlen]
    · exact absurd (hfront.symm.trans hi) (h.none_waiting hk i)
  · obtain rfl := Option.some.inj hi
    exact ⟨true, List.getElem?_concat_length⟩
  · simp [toReader, slot, isOpen, Channel.state]

theorem Kept.start (h : r.Kept) (hb : r.toReader.buffer.Sound) :
    r.start.1.Kept ∧ (r.start.1.toReader, r.start.2) = r.toReader.start := by
  by_cases hk : r.kept.any r.isOpen = true
  · have hread : r.toReader.buffer.read = .error .outstanding := by
      unfold LineBuffer.read
      rw [if_pos ((toReader_slot_awaited r).2 hk)]
    unfold LineReader.start
    simp only [hread, ChannelReader.start, if_pos hk, h.refused.2]
    exact ⟨h.refused.1, trivial⟩
  · have hs : ¬ r.toReader.buffer.slot = .awaited := fun hs => hk ((toReader_slot_awaited r).1 hs)
    -- The end that was kept, if any, is let go of: nobody waits at it.
    have hspare (b : LineBuffer) : Kept ⟨b, none, r.channels ++ [closed]⟩ ∧
        toReader ⟨b, none, r.channels ++ [closed]⟩ =
          ⟨{ b with slot := .free }, r.toReader.reads ++ [.over]⟩ :=
      (h.released hk b).1.refused
    unfold LineReader.start ChannelReader.start LineBuffer.read
    rw [if_neg hk, if_neg hs]
    have hlines : r.toReader.buffer.lines = r.buffer.lines := rfl
    have hfailure : r.toReader.buffer.failure = r.buffer.failure := rfl
    have hended : r.toReader.buffer.ended = r.buffer.ended := rfl
    rw [hlines, hfailure, hended]
    cases hl : r.buffer.lines with
    | cons line rest =>
      obtain ⟨hkept, heq⟩ := hspare { r.buffer with lines := rest }
      simp only [heq]
      exact ⟨hkept, rfl⟩
    | nil =>
      cases hf : r.buffer.failure with
      | some message =>
        obtain ⟨hkept, heq⟩ := hspare { r.buffer with failure := none }
        refine ⟨hkept, Prod.ext (heq.trans ?_) rfl⟩
        simp only [hl]
        rfl
      | none =>
        cases he : r.buffer.ended with
        | true =>
          obtain ⟨hkept, heq⟩ := hspare r.buffer
          have hfree : r.slot = .free := Classical.byContradiction fun hn =>
            absurd ((hb.waiting hn).2.2.symm.trans he) Bool.false_ne_true
          have hsame : r.toReader.buffer = { r.buffer with slot := .free } := by
            rw [← hfree]
            rfl
          simp only [if_true, heq, hsame]
          exact ⟨hkept, trivial⟩
        | false =>
          obtain ⟨hkept, heq⟩ := h.begun hk
          simp only [Bool.false_eq_true, if_false]
          refine ⟨hkept, Prod.ext (heq.trans ?_) rfl⟩
          simp only [hl, hf, he]
          rfl

theorem close_of_none {i : Nat} (hi : r.channels[i]? = none) : r.close i = r := by
  simp only [ChannelReader.close, hi]

theorem close_of_some {i : Nat} {c : Channel} (hi : r.channels[i]? = some c) :
    r.close i = { r with channels := r.channels.set i { c with isOpen := false } } := by
  simp only [ChannelReader.close, hi]

theorem Kept.closed (h : r.Kept) (i : Nat) : (r.close i).Kept := by
  cases hi : r.channels[i]? with
  | none =>
    rw [close_of_none hi]
    exact h
  | some c =>
    rw [close_of_some hi]
    refine ⟨fun j hj => ?_, fun j hj => ?_⟩
    · rcases getElem?_set_cases hi { c with isOpen := false } j with ⟨-, hset⟩ | ⟨-, hset⟩
      · rw [hset] at hj
        cases hj
      · exact h.waiting j (hset.symm.trans hj)
    · obtain ⟨isOpen, hc⟩ := h.unsent j hj
      rcases getElem?_set_cases hi { c with isOpen := false } j with ⟨rfl, hset⟩ | ⟨-, hset⟩
      · rw [hi] at hc
        obtain rfl := Option.some.inj hc
        exact ⟨false, hset⟩
      · exact ⟨isOpen, hset.trans hc⟩

theorem map_state_set (r : ChannelReader) (i : Nat) (c : Channel) :
    (r.channels.set i c).map Channel.state = r.toReader.reads.set i c.state :=
  List.map_set

theorem Kept.slot_abandoned (h : r.Kept) {i : Nat} (hi : r.channels[i]? = some ⟨true, none⟩) :
    r.slot = .awaited ∧
      slot { r with channels := r.channels.set i ⟨false, none⟩ } = .abandoned := by
  have hk := h.waiting i hi
  have hlt := (List.getElem?_eq_some_iff.1 hi).1
  constructor
  · simp [slot, hk, isOpen, hi]
  · simp [slot, hk, isOpen, List.getElem?_set_self hlt]

theorem Kept.slot_lost (h : r.Kept) {i : Nat} {a : Answer}
    (hi : r.channels[i]? = some ⟨true, some a⟩) :
    slot { r with channels := r.channels.set i ⟨false, some a⟩ } = r.slot := by
  unfold slot
  cases hk : r.kept with
  | none => rfl
  | some j =>
    have hij : i ≠ j := by
      rintro rfl
      obtain ⟨isOpen, hc⟩ := h.unsent i hk
      rw [hi] at hc
      cases hc
    have hopen : isOpen { r with channels := r.channels.set i ⟨false, some a⟩ } j = r.isOpen j := by
      simp only [isOpen, List.getElem?_set_ne hij]
    rw [hk] at hopen
    simp only [hopen]

theorem Kept.close (h : r.Kept) (i : Nat) : (r.close i).toReader = r.toReader.drop i := by
  unfold LineReader.drop
  rw [toReader_getElem?]
  cases hi : r.channels[i]? with
  | none =>
    rw [close_of_none hi]
    rfl
  | some c =>
    obtain ⟨hlt, hget⟩ := List.getElem?_eq_some_iff.1 hi
    rw [close_of_some hi]
    obtain ⟨_ | _, answer⟩ := c
    · have hsame : r.channels.set i ⟨false, answer⟩ = r.channels := by
        rw [← hget]
        exact List.set_getElem_self hlt
      simp only [hsame, Option.map_some, Channel.state]
    · cases answer with
      | none =>
        obtain ⟨hbefore, hafter⟩ := h.slot_abandoned hi
        simp only [Option.map_some, Channel.state, LineBuffer.abandon, toReader, hafter, hbefore,
          if_true]
        rw [map_state_set]
        rfl
      | some a =>
        simp only [Option.map_some, Channel.state, toReader, h.slot_lost hi]
        rw [map_state_set]
        rfl

theorem Kept.poll (h : r.Kept) (i : Nat) : (r.poll i).1.Kept ∧
    ((r.poll i).1.toReader, (r.poll i).2) =
      ((r.toReader.poll i).1, .reply (r.toReader.poll i).2) := by
  unfold LineReader.poll ChannelReader.poll
  rw [toReader_getElem?]
  cases hi : r.channels[i]? with
  | none => exact ⟨h, rfl⟩
  | some c =>
    obtain ⟨_ | _, _ | a⟩ := c
    · exact ⟨h, rfl⟩
    · exact ⟨h, rfl⟩
    · simp only [h.waiting i hi, if_true, Option.map_some, Channel.state]
      exact ⟨h, trivial⟩
    · have hdrop : r.toReader.drop i = { r.toReader with reads := r.toReader.reads.set i .over } := by
        simp only [LineReader.drop, toReader_getElem?, hi, Option.map_some, Channel.state]
      simp only [h.close i, hdrop, Option.map_some, Channel.state]
      exact ⟨h.closed i, trivial⟩

/-- Calls on the channels are calls on the reader without them. -/
theorem Kept.perform (h : r.Kept) (hb : r.toReader.buffer.Sound) (op : ReaderOp) :
    (r.perform op).Kept ∧ (r.perform op).toReader = r.toReader.perform op := by
  -- Behind the end, the supplier's calls are ignored on both sides.
  have hignored {f : LineBuffer → LineBuffer × Option Answer}
      (hf : f r.toReader.buffer = (r.toReader.buffer, none)) : r.toReader = r.toReader.change f := by
    unfold LineReader.change
    rw [hf]
    rfl
  cases op with
  | feed chunk =>
    simp only [ChannelReader.perform, LineReader.perform, LineReader.feed]
    split
    · rename_i he
      exact ⟨h, hignored (if_pos he)⟩
    · exact h.supply (hb.feed_eq chunk)
  | finish =>
    simp only [ChannelReader.perform, LineReader.perform, LineReader.finish]
    split
    · rename_i he
      exact ⟨h, hignored (if_pos he)⟩
    · exact h.supply hb.finish_eq
  | fail message =>
    simp only [ChannelReader.perform, LineReader.perform, LineReader.fail]
    split
    · rename_i he
      exact ⟨h, hignored (if_pos he)⟩
    · exact h.supply (hb.fail_eq message)
  | interrupt => exact h.supply (f := LineBuffer.interrupt) rfl
  | start =>
    obtain ⟨hkept, heq⟩ := h.start hb
    exact ⟨hkept, congrArg Prod.fst heq⟩
  | poll i =>
    obtain ⟨hkept, heq⟩ := h.poll i
    exact ⟨hkept, congrArg Prod.fst heq⟩
  | drop i => exact ⟨h.closed i, h.close i⟩

end ChannelReader

def channels (history : List ReaderOp) : ChannelReader :=
  history.foldl ChannelReader.perform {}

theorem channels_toReader (history : List ReaderOp) :
    (channels history).Kept ∧ (channels history).toReader = (ledger history).reader := by
  induction history using List.reverseRec with
  | nil => exact ⟨⟨by simp [channels], by simp [channels]⟩, rfl⟩
  | append_singleton history op ih =>
    obtain ⟨hkept, heq⟩ := ih
    have hb := (ledger_tracked history).1
    rw [← heq] at hb
    have hstep := hkept.perform hb op
    rw [heq] at hstep
    rw [ledger_concat, channels, List.foldl_append]
    exact hstep

/-- The owner of a read learns the same with channels, and never that its channel is cut off. -/
theorem channels_poll (history : List ReaderOp) (i : Nat) :
    ((channels history).poll i).2 = .reply ((ledger history).reader.poll i).2 := by
  obtain ⟨hkept, heq⟩ := channels_toReader history
  have hpoll := congrArg Prod.snd (hkept.poll i).2
  rw [heq] at hpoll
  exact hpoll

-- The second read takes the place of the first one, and the end that it leaves is let go of.
example : (channels [.start, .drop 0, .start, .feed [97, 10]]).channels =
    [⟨false, none⟩, ⟨true, some (.line "a\n")⟩] := by
  decide

theorem channels_start (history : List ReaderOp) :
    (channels history).start.2 = (ledger history).reader.start.2 := by
  obtain ⟨hkept, heq⟩ := channels_toReader history
  have hb := (ledger_tracked history).1
  rw [← heq] at hb
  have hstart := congrArg Prod.snd (hkept.start hb).2
  rw [heq] at hstart
  exact hstart

end PromptLoop
