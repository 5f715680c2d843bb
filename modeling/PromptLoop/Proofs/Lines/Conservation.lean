import PromptLoop.Proofs.Lines.Ledger

set_option autoImplicit false

namespace PromptLoop

def Answer.isFailure : Answer → Bool
  | .failed _ => true
  | _ => false

def LineBuffer.items (b : LineBuffer) : List Answer :=
  b.lines.map .line ++ b.failure.toList.map .failed

/-- What was put into reads. The end of the input is no item: every read behind it gets it. -/
def Ledger.items (l : Ledger) : List Answer :=
  (l.given.map Prod.snd).filter (· ≠ .ended)

structure Stock where
  items : List Answer := []
  fragment : List UInt8 := []
  closed : Bool := false

def Stock.after (s : Stock) (handed : Nat) : ReaderOp → Stock
  | .feed chunk =>
    if s.closed then s
    else
      let bytes := s.fragment ++ chunk
      { s with
        items := s.items ++ (endedPieces bytes).map fun line => .line (Utf8.toText line)
        fragment := openPiece bytes }
  | .finish =>
    if s.closed then s
    else
      let last := if s.fragment = [] then [] else [.line (Utf8.toText (s.fragment ++ [separator]))]
      ⟨s.items ++ last, [], true⟩
  | .fail message => if s.closed then s else ⟨s.items ++ [.failed message], [], true⟩
  | .interrupt =>
    { s with
      items := s.items.take handed ++
        .line interruptMarker :: (s.items.drop handed).filter Answer.isFailure
      fragment := [] }
  | _ => s

def stock (history : List ReaderOp) : Stock :=
  (history.foldl (fun (l, s) op => (l.record op, s.after l.items.length op))
    (({}, {}) : Ledger × Stock)).2

theorem stock_concat (history : List ReaderOp) (op : ReaderOp) :
    stock (history ++ [op]) = (stock history).after (ledger history).items.length op := by
  have hledger : (history.foldl (fun (l, s) op => (l.record op, s.after l.items.length op))
      (({}, {}) : Ledger × Stock)).1 = ledger history := by
    induction history using List.reverseRec with
    | nil => rfl
    | append_singleton history op ih =>
      rw [List.foldl_append, ledger_concat, ← ih]
      rfl
  unfold stock
  rw [List.foldl_append, ← hledger]
  rfl

namespace LineBuffer
variable {b : LineBuffer}

theorem settle_items (b : LineBuffer) :
    b.settle.2.toList.filter (· ≠ .ended) ++ b.settle.1.items = b.items := by
  have h := settle_settling b
  generalize b.settle = r at h
  cases h with
  | kept _ => rfl
  | abandoned _ => rfl
  | line _ hl => simp [items, hl]
  | failed _ hl hf => simp [items, hl, hf]
  | ended _ _ _ _ => simp [items]

theorem read_items {rest : LineBuffer} {a : Option Answer} (h : b.read = .ok (rest, a)) :
    a.toList.filter (· ≠ .ended) ++ rest.items = b.items ∧ rest.residue = b.residue := by
  have hs := read_starting b
  rw [h] at hs
  cases hs with
  | line _ hl => simp [items, hl]
  | failed _ hl hf => simp [items, hl, hf]
  | waiting _ _ _ _ => simp [items]

theorem failures_items (b : LineBuffer) :
    b.items.filter Answer.isFailure = b.failure.toList.map .failed := by
  have hlines : (b.lines.map Answer.line).filter Answer.isFailure = [] := by
    simp [Answer.isFailure]
  unfold items
  rw [List.filter_append, hlines]
  cases b.failure <;> rfl

theorem Sound.supplied_stock (hb : b.Sound) {s : Stock} {taken : List Answer}
    (hitems : taken ++ b.items = s.items) (hfragment : s.fragment = b.residue.reverse)
    (hclosed : s.closed = b.ended) (op : ReaderOp) :
    taken ++ (b.supplied op).items = (s.after taken.length op).items ∧
      (s.after taken.length op).fragment = (b.supplied op).residue.reverse ∧
      (s.after taken.length op).closed = (b.supplied op).ended := by
  -- A failure is held only behind the end, so new lines never come behind it.
  have hopen (he : ¬ b.ended = true) : b.failure = none ∧ b.items = b.lines.map .line := by
    have hf : b.failure = none := by
      by_cases hf : b.failure = none
      · exact hf
      · exact absurd (hb.failure_ended hf) he
    exact ⟨hf, by simp [items, hf]⟩
  cases op with
  | feed chunk =>
    simp only [Stock.after, LineBuffer.supplied, hclosed]
    split
    · exact ⟨hitems, hfragment, hclosed⟩
    · rename_i he
      have hcut := Cut.foldl_push_eq chunk ⟨[], b.residue⟩ hb.residue_clean
      simp only [hcut, hfragment, List.append_nil, List.reverse_reverse]
      refine ⟨?_, trivial, trivial⟩
      obtain ⟨hf, hlines⟩ := hopen he
      rw [← hitems, hlines]
      simp [items, hf]
  | finish =>
    simp only [Stock.after, LineBuffer.supplied, hclosed]
    split
    · exact ⟨hitems, hfragment, hclosed⟩
    · rename_i he
      refine ⟨?_, rfl, rfl⟩
      obtain ⟨hf, hlines⟩ := hopen he
      rw [← hitems, hlines, hfragment]
      cases b.residue <;> simp [items, hf]
  | fail message =>
    simp only [Stock.after, LineBuffer.supplied, hclosed]
    split
    · exact ⟨hitems, hfragment, hclosed⟩
    · rename_i he
      refine ⟨?_, rfl, rfl⟩
      obtain ⟨-, hlines⟩ := hopen he
      rw [← hitems, hlines, List.append_assoc]
      rfl
  | interrupt =>
    refine ⟨?_, rfl, hclosed⟩
    simp only [Stock.after, ← hitems, List.take_left, List.drop_left, failures_items]
    rfl
  | _ => exact ⟨hitems, hfragment, hclosed⟩

end LineBuffer

/-- Every item that a call finds or adds is put into a read or stays in the buffer. -/
theorem Performed.items {r r' : LineReader} {op : ReaderOp} {given received : List (Nat × Answer)}
    (h : Performed r op r' given received) :
    (given.map Prod.snd).filter (· ≠ .ended) ++ r'.buffer.items = (r.buffer.supplied op).items ∧
      r'.buffer.residue = (r.buffer.supplied op).residue ∧
      r'.buffer.ended = (r.buffer.supplied op).ended := by
  cases h with
  | supplied _ ha =>
    have hitems := (r.buffer.supplied op).settle_items
    rw [ha] at hitems
    exact ⟨hitems, LineBuffer.settle_residue _, LineBuffer.settle_ended _⟩
  | answered _ ha _ =>
    have hitems := (r.buffer.supplied op).settle_items
    rw [ha] at hitems
    exact ⟨hitems, LineBuffer.settle_residue _, LineBuffer.settle_ended _⟩
  | begun hread =>
    obtain ⟨hitems, hresidue⟩ := LineBuffer.read_items hread
    exact ⟨hitems, hresidue, LineBuffer.read_ended hread⟩
  | served hread =>
    obtain ⟨hitems, hresidue⟩ := LineBuffer.read_items hread
    exact ⟨hitems, hresidue, LineBuffer.read_ended hread⟩
  | abandoned _ =>
    have hsame : r.buffer.abandon.items = r.buffer.items ∧
        r.buffer.abandon.residue = r.buffer.residue ∧ r.buffer.abandon.ended = r.buffer.ended := by
      unfold LineBuffer.abandon
      split
      · exact ⟨rfl, rfl, rfl⟩
      · exact ⟨rfl, rfl, rfl⟩
    exact hsame
  | refused _ => exact ⟨rfl, rfl, rfl⟩
  | looked => exact ⟨rfl, rfl, rfl⟩
  | taken _ => exact ⟨rfl, rfl, rfl⟩
  | lost _ => exact ⟨rfl, rfl, rfl⟩
  | ignored _ => exact ⟨rfl, rfl, rfl⟩

theorem ledger_stock (history : List ReaderOp) :
    (ledger history).items ++ (ledger history).reader.buffer.items = (stock history).items ∧
      (stock history).fragment = (ledger history).reader.buffer.residue.reverse ∧
      (stock history).closed = (ledger history).reader.buffer.ended := by
  induction history using List.reverseRec with
  | nil => exact ⟨rfl, rfl, rfl⟩
  | append_singleton history op ih =>
    obtain ⟨hitems, hfragment, hclosed⟩ := ih
    obtain ⟨hstock, hpiece, hend⟩ :=
      (ledger_tracked history).1.supplied_stock hitems hfragment hclosed op
    obtain ⟨hput, hresidue, hended⟩ := (ledger_performed history op).items
    rw [stock_concat, ledger_concat, hpiece, hend, ← hstock, ← hput]
    refine ⟨?_, congrArg List.reverse hresidue.symm, hended.symm⟩
    simp only [Ledger.items, Ledger.record, List.map_append, List.filter_append, List.append_assoc]

def ReaderOp.ends : ReaderOp → Bool
  | .finish | .fail _ => true
  | _ => false

def failure? : List ReaderOp → Option String
  | [] => none
  | .finish :: _ => none
  | .fail message :: _ => some message
  | _ :: rest => failure? rest

theorem failure?_concat (history : List ReaderOp) (op : ReaderOp) :
    failure? (history ++ [op]) =
      if history.any ReaderOp.ends then failure? history else failure? [op] := by
  induction history with
  | nil => rfl
  | cons first rest ih =>
    cases first with
    | finish => rfl
    | fail message => rfl
    | _ => exact ih

theorem failure?_eq_none {history : List ReaderOp} (h : history.any ReaderOp.ends = false) :
    failure? history = none := by
  induction history with
  | nil => rfl
  | cons first rest ih =>
    rw [List.any_cons, Bool.or_eq_false_iff] at h
    cases first with
    | finish => cases h.1
    | fail message => cases h.1
    | _ => exact ih h.2

theorem Stock.after_failure (s : Stock) (handed : Nat) (op : ReaderOp) :
    (s.after handed op).closed = (s.closed || op.ends) ∧
      (s.after handed op).items.filter Answer.isFailure = s.items.filter Answer.isFailure ++
        if s.closed then [] else (failure? [op]).toList.map .failed := by
  have hinterrupt : (s.after handed .interrupt).items.filter Answer.isFailure =
      s.items.filter Answer.isFailure := by
    simp only [Stock.after]
    rw [List.filter_append, List.filter_cons_of_neg (by decide), List.filter_filter]
    simp only [Bool.and_self]
    rw [← List.filter_append, List.take_append_drop]
  cases op with
  | interrupt =>
    rw [hinterrupt]
    cases hc : s.closed <;> simp [Stock.after, hc, failure?, ReaderOp.ends]
  | _ => cases hc : s.closed <;>
      simp [Stock.after, hc, failure?, Answer.isFailure, ReaderOp.ends]

theorem stock_failure (history : List ReaderOp) :
    (stock history).closed = history.any ReaderOp.ends ∧
      (stock history).items.filter Answer.isFailure =
        (failure? history).toList.map .failed := by
  induction history using List.reverseRec with
  | nil => exact ⟨rfl, rfl⟩
  | append_singleton history op ih =>
    obtain ⟨hclosed, hfailures⟩ := ih
    obtain ⟨hafter, hadded⟩ := (stock history).after_failure (ledger history).items.length op
    rw [stock_concat, failure?_concat, hafter, hadded, hclosed, hfailures, List.any_append]
    refine ⟨by simp, ?_⟩
    cases hany : history.any ReaderOp.ends with
    | true => exact List.append_nil _
    | false =>
      rw [failure?_eq_none hany]
      rfl

/-- What becomes of the lines, the failure and the reads of a history. -/
structure Accounts (history : List ReaderOp) : Prop where
  /-- What was put into reads, the queued lines and the failure that is held are the items that were
  produced and not discarded, in their order. -/
  items : (ledger history).items ++ ((ledger history).reader.buffer.lines.map .line ++
    (ledger history).reader.buffer.failure.toList.map .failed) = (stock history).items
  /-- The failure of the input was put into one read or is held. -/
  failure : (ledger history).items.filter Answer.isFailure ++
    (ledger history).reader.buffer.failure.toList.map .failed =
      (failure? history).toList.map .failed
  once : ∀ i, (answersTo i (ledger history).given).length ≤ 1 ∧
    answersTo i (ledger history).received <+: answersTo i (ledger history).given
  /-- An answer is neither got nor held exactly if its read was dropped with it. -/
  lost : ∀ i a, (i, a) ∈ (ledger history).given →
    ((i, a) ∉ (ledger history).received ∧
      (ledger history).reader.reads[i]? ≠ some (.answered a) ↔ DroppedUnseen history i a)
  /-- Nothing is put into a read that was dropped while it waited. -/
  dropped : ∀ before i after, history = before ++ .drop i :: after →
    (ledger before).reader.reads[i]? = some .waiting → answersTo i (ledger history).given = []

theorem reader_accounts (history : List ReaderOp) : Accounts history where
  items := (ledger_stock history).1
  failure := by
    have h := (stock_failure history).2
    rw [← (ledger_stock history).1, List.filter_append, LineBuffer.failures_items] at h
    exact h
  once i := ⟨(life history i).given_length, (life history i).received_isPrefix⟩
  lost i a h := lost_iff history h
  dropped before i after h hw := by
    rw [h]
    exact given_of_dropped_waiting hw after

-- The first line answers the read that waits. The interrupt finds the second one and a fragment.
example : (stock [.start, .feed [97, 10, 98, 10, 99], .interrupt, .fail "broken"]).items =
    [.line "a\n", .line interruptMarker, .failed "broken"] := by
  decide

end PromptLoop
