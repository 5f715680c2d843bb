import Mathlib.Data.List.Count
import PromptLoop.Proofs.Lines.Conservation

set_option autoImplicit false

namespace PromptLoop

namespace Utf8

def Progress.Beyond : Progress → Prop
  | .start => True
  | .inside value _ low _ => 0x80 ≤ low ∧ 11 ≤ value * 64 + (low - 0x80)

theorem eq_of_ofNat_eq_newline {n : Nat} (h : Char.ofNat n = '\n') : n = 10 := by
  by_cases hv : n.isValidChar
  · have hn : Char.ofNat n = Char.ofNatAux n hv := dif_pos hv
    exact congrArg Char.toNat (hn.symm.trans h)
  · have hn : Char.ofNat n = '\x00' := dif_neg hv
    exact absurd (hn.symm.trans h) (by decide)

theorem lead_beyond (b : Nat) : (lead b).1.Beyond := by
  unfold lead
  split_ifs <;> simp only [Progress.Beyond] <;> omega

theorem eq_of_newline_mem_lead {b : Nat} (h : '\n' ∈ (lead b).2) : b = 10 := by
  unfold lead at h
  split_ifs at h
  · exact eq_of_ofNat_eq_newline (List.mem_singleton.1 h).symm
  all_goals simp [replacement] at h

theorem step_beyond {p : Progress} (h : p.Beyond) (b : Nat) : (step p b).1.Beyond := by
  cases p with
  | start => exact lead_beyond b
  | inside value remaining low high =>
    obtain ⟨hlow, hvalue⟩ := h
    simp only [step]
    split_ifs with hb hr
    · trivial
    · simp only [Progress.Beyond]
      omega
    · exact lead_beyond b

theorem eq_of_newline_mem_step {p : Progress} (h : p.Beyond) {b : Nat}
    (hm : '\n' ∈ (step p b).2) : b = 10 := by
  cases p with
  | start => exact eq_of_newline_mem_lead hm
  | inside value remaining low high =>
    obtain ⟨hlow, hvalue⟩ := h
    simp only [step] at hm
    split_ifs at hm with hb hr
    · have hn := eq_of_ofNat_eq_newline (List.mem_singleton.1 hm).symm
      omega
    · cases hm
    · rcases List.mem_cons.1 hm with he | hm
      · cases he
      · exact eq_of_newline_mem_lead hm

/-- A separator ends the character that the decoder is inside of. -/
theorem step_separator {p : Progress} (h : p.Beyond) :
    step p separator.toNat = (.start, flush p ++ ['\n']) := by
  cases p with
  | start => rfl
  | inside value remaining low high =>
    have hlow : ¬ (low ≤ separator.toNat ∧ separator.toNat ≤ high) := by
      intro hb
      have hten : separator.toNat = 10 := rfl
      have := h.1
      omega
    simp only [step, if_neg hlow]
    rfl

theorem foldl_push_beyond (bytes : List UInt8) {d : Decoder} (h : d.progress.Beyond) :
    (bytes.foldl Decoder.push d).progress.Beyond := by
  induction bytes generalizing d with
  | nil => exact h
  | cons b rest ih => exact ih (step_beyond h b.toNat)

theorem decode_separator (bytes : List UInt8) :
    decode (bytes ++ [separator]) = decode bytes ++ ['\n'] := by
  have hstep := step_separator (foldl_push_beyond bytes (d := {}) trivial)
  rw [decode_append]
  simp [decode, Decoder.push, Decoder.finish, hstep, flush]

theorem foldl_push_newline (bytes : List UInt8) {d : Decoder} (hd : d.progress.Beyond)
    (hb : separator ∉ bytes) (hn : '\n' ∉ d.reversed) :
    '\n' ∉ (bytes.foldl Decoder.push d).reversed := by
  induction bytes generalizing d with
  | nil => exact hn
  | cons b rest ih =>
    refine ih (step_beyond hd b.toNat) (fun h => hb (List.mem_cons_of_mem b h)) ?_
    intro hm
    rcases List.mem_append.1 hm with hm | hm
    · have hten : b.toNat = separator.toNat := eq_of_newline_mem_step hd (List.mem_reverse.1 hm)
      obtain rfl := UInt8.toNat_inj.1 hten
      exact hb List.mem_cons_self
    · exact hn hm

theorem newline_not_mem_decode {bytes : List UInt8} (h : separator ∉ bytes) :
    '\n' ∉ decode bytes := by
  intro hm
  rcases List.mem_append.1 hm with hm | hm
  · exact foldl_push_newline bytes (d := {}) trivial h (by simp) (List.mem_reverse.1 hm)
  · cases hp : (bytes.foldl Decoder.push {}).progress with
    | start => simp [hp, flush] at hm
    | inside value remaining low high => simp [hp, flush, replacement] at hm

end Utf8

def IsLine (text : String) : Prop :=
  ∃ body : List Char, text = String.ofList (body ++ ['\n']) ∧ '\n' ∉ body

theorem isLine_toText {line : List UInt8} (hl : separator ∉ line) :
    IsLine (Utf8.toText (line ++ [separator])) :=
  ⟨Utf8.decode line, congrArg String.ofList (Utf8.decode_separator line),
    Utf8.newline_not_mem_decode hl⟩

theorem IsLine.ne_marker {text : String} (h : IsLine text) : text ≠ interruptMarker := by
  rintro rfl
  obtain ⟨body, heq, -⟩ := h
  have hnil : [] = body ++ ['\n'] := String.ofList_injective heq
  simp at hnil

theorem Cut.foldl_push_isLine (bytes : List UInt8) (c : Cut) (hr : separator ∉ c.residue)
    (hl : ∀ line ∈ c.lines, IsLine (Utf8.toText line)) :
    ∀ line ∈ (bytes.foldl push c).lines, IsLine (Utf8.toText line) := by
  induction bytes generalizing c with
  | nil => exact hl
  | cons b rest ih =>
    refine ih (c.push b) (push_residue c b hr) ?_
    unfold push
    split
    · rename_i hb
      intro line hm
      rcases List.mem_cons.1 hm with rfl | hm
      · rw [hb, List.reverse_cons]
        exact isLine_toText (by simpa using hr)
      · exact hl line hm
    · exact hl

structure Queued (lines : List String) : Prop where
  head : ∀ l ∈ lines.head?, l = interruptMarker ∨ IsLine l
  tail : ∀ l ∈ lines.tail, IsLine l

namespace Queued
variable {lines : List String}

theorem nil : Queued [] :=
  ⟨by simp, by simp⟩

theorem marker : Queued [interruptMarker] :=
  ⟨by simp, by simp⟩

theorem append (h : Queued lines) {more : List String} (hm : ∀ l ∈ more, IsLine l) :
    Queued (lines ++ more) := by
  cases lines with
  | nil =>
    exact ⟨fun l hl => .inr (hm l (List.mem_of_mem_head? hl)),
      fun l hl => hm l (List.mem_of_mem_tail hl)⟩
  | cons first rest =>
    refine ⟨h.head, fun l hl => ?_⟩
    rcases List.mem_append.1 hl with hl | hl
    · exact h.tail l hl
    · exact hm l hl

theorem rest {first : String} (h : Queued (first :: lines)) : Queued lines :=
  ⟨fun l hl => .inr (h.tail l (List.mem_of_mem_head? hl)),
    fun l hl => h.tail l (List.mem_of_mem_tail hl)⟩

theorem line_or_marker (h : Queued lines) {l : String} (hl : l ∈ lines) :
    l = interruptMarker ∨ IsLine l := by
  cases lines with
  | nil => cases hl
  | cons first rest =>
    rcases List.mem_cons.1 hl with rfl | hl
    · exact h.head l rfl
    · exact .inr (h.tail l hl)

theorem marker_not_mem_tail (h : Queued lines) : interruptMarker ∉ lines.tail :=
  fun hm => (h.tail interruptMarker hm).ne_marker rfl

end Queued

namespace LineBuffer
variable {b : LineBuffer}

theorem Sound.supplied_queued (hb : b.Sound) (h : Queued b.lines) (op : ReaderOp) :
    Queued (b.supplied op).lines := by
  cases op with
  | feed chunk =>
    simp only [LineBuffer.supplied]
    split
    · exact h
    · refine h.append fun l hl => ?_
      obtain ⟨line, hline, rfl⟩ := List.mem_map.1 hl
      exact Cut.foldl_push_isLine chunk ⟨[], b.residue⟩ hb.residue_clean (by simp) line
        (List.mem_reverse.1 hline)
  | finish =>
    simp only [LineBuffer.supplied]
    split
    · exact h
    · refine h.append fun l hl => ?_
      split at hl
      · cases hl
      · rw [List.mem_singleton.1 hl, List.reverse_cons]
        exact isLine_toText (by simpa using hb.residue_clean)
  | fail message =>
    simp only [LineBuffer.supplied]
    split <;> exact h
  | interrupt => exact .marker
  | _ => exact h

theorem settle_queued (h : Queued b.lines) : Queued b.settle.1.lines := by
  have hs := settle_settling b
  generalize b.settle = r at hs
  cases hs with
  | line _ hl =>
    rw [hl] at h
    exact h.rest
  | _ => exact h

theorem read_queued {rest : LineBuffer} {a : Option Answer} (h : Queued b.lines)
    (hread : b.read = .ok (rest, a)) : Queued rest.lines := by
  have hs := read_starting b
  rw [hread] at hs
  cases hs with
  | line _ hl =>
    rw [hl] at h
    exact h.rest
  | _ => exact h

end LineBuffer

theorem Performed.queued {r r' : LineReader} {op : ReaderOp} {given received : List (Nat × Answer)}
    (h : Performed r op r' given received) (hb : r.buffer.Sound) (hq : Queued r.buffer.lines) :
    Queued r'.buffer.lines := by
  cases h with
  | supplied _ _ => exact LineBuffer.settle_queued (hb.supplied_queued hq op)
  | answered _ _ _ => exact LineBuffer.settle_queued (hb.supplied_queued hq op)
  | begun hread => exact LineBuffer.read_queued hq hread
  | served hread => exact LineBuffer.read_queued hq hread
  | abandoned _ =>
    unfold LineBuffer.abandon
    split <;> exact hq
  | _ => exact hq

theorem ledger_queued (history : List ReaderOp) : Queued (ledger history).reader.buffer.lines := by
  induction history using List.reverseRec with
  | nil => exact .nil
  | append_singleton history op ih =>
    rw [ledger_concat]
    exact (ledger_performed history op).queued (ledger_tracked history).1 ih

theorem Stock.after_markers (s : Stock) (handed : Nat) (op : ReaderOp) :
    (s.after handed op).items.count (.line interruptMarker) ≤
      s.items.count (.line interruptMarker) + [op].count .interrupt := by
  cases op with
  | feed chunk =>
    simp only [Stock.after]
    split
    · exact Nat.le_add_right _ _
    · have hnone : ((endedPieces (s.fragment ++ chunk)).map fun line =>
          Answer.line (Utf8.toText line)).count (.line interruptMarker) = 0 := by
        refine List.count_eq_zero.2 fun hm => ?_
        obtain ⟨line, hl, heq⟩ := List.mem_map.1 hm
        have hlast : line.getLast? = some separator := by simpa using (List.mem_filter.1 hl).2
        refine Utf8.toText_ne ?_ (Answer.line.inj heq)
        rintro rfl
        cases hlast
      rw [List.count_append, hnone]
      exact Nat.le_add_right _ _
  | finish =>
    simp only [Stock.after]
    split
    · exact Nat.le_add_right _ _
    · split
      · simp
      · have hne : Answer.line (Utf8.toText (s.fragment ++ [separator])) ≠
            .line interruptMarker := fun h => Utf8.toText_ne (by simp) (Answer.line.inj h)
        rw [List.count_append, List.count_singleton, if_neg (by simpa using hne)]
        exact Nat.le_add_right _ _
  | fail message =>
    simp only [Stock.after]
    split
    · exact Nat.le_add_right _ _
    · rw [List.count_append]
      exact Nat.le_add_right _ _
  | interrupt =>
    have hnone : ((s.items.drop handed).filter Answer.isFailure).count (.line interruptMarker) = 0 := by
      refine List.count_eq_zero.2 fun hm => ?_
      cases (List.mem_filter.1 hm).2
    have htaken : (s.items.take handed).count (.line interruptMarker) ≤
        s.items.count (.line interruptMarker) := (List.take_sublist handed s.items).count_le _
    simp only [Stock.after, List.count_append, List.count_cons_self, hnone]
    exact Nat.add_le_add_right htaken 1
  | _ => exact Nat.le_add_right _ _

theorem stock_markers (history : List ReaderOp) :
    (stock history).items.count (.line interruptMarker) ≤ history.count .interrupt := by
  induction history using List.reverseRec with
  | nil => exact Nat.le_refl 0
  | append_singleton history op ih =>
    have hafter := (stock history).after_markers (ledger history).items.length op
    rw [stock_concat, List.count_append]
    omega

/-- What holds of the buffer of a reader behind any history of calls. -/
structure Representation (history : List ReaderOp) (b : LineBuffer) : Prop where
  residue_clean : separator ∉ b.residue
  residue_ended : b.ended = true → b.residue = []
  failure_ended : b.failure ≠ none → b.ended = true
  /-- A read in the slot finds nothing that could answer it. -/
  waiting : b.slot ≠ .free → b.lines = [] ∧ b.failure = none ∧ b.ended = false
  lines : ∀ l ∈ b.lines, l = interruptMarker ∨ IsLine l
  /-- A marker stands at the head of the queue, so there is one at most. -/
  marker : interruptMarker ∉ b.lines.tail
  /-- Every marker, handed out or queued, comes from an interrupt of its own. -/
  markers : ((ledger history).given.map Prod.snd).count (.line interruptMarker) +
    b.lines.count interruptMarker ≤ history.count .interrupt

theorem buffer_representation (history : List ReaderOp) :
    Representation history (ledger history).reader.buffer := by
  have hs := (ledger_tracked history).1
  have hq := ledger_queued history
  refine ⟨hs.residue_clean, hs.residue_ended, hs.failure_ended, hs.waiting,
    fun l hl => hq.line_or_marker hl, hq.marker_not_mem_tail, ?_⟩
  have hle := stock_markers history
  rw [← (ledger_stock history).1, List.count_append, LineBuffer.items, List.count_append,
    Ledger.items, List.count_filter (by decide)] at hle
  have hqueue : ((ledger history).reader.buffer.lines.map Answer.line).count
      (.line interruptMarker) = (ledger history).reader.buffer.lines.count interruptMarker :=
    List.count_map_of_injective _ _ (fun _ _ h => Answer.line.inj h) _
  omega

end PromptLoop
