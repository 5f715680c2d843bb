import Mathlib.Tactic.SplitIfs
import PromptLoop.Lines.Buffer

set_option autoImplicit false

namespace PromptLoop

theorem Utf8.step_ne (progress : Utf8.Progress) (b : Nat) :
    (Utf8.step progress b).2 ≠ [] ∨ Utf8.flush (Utf8.step progress b).1 ≠ [] := by
  have hlead : (Utf8.lead b).2 ≠ [] ∨ Utf8.flush (Utf8.lead b).1 ≠ [] := by
    unfold Utf8.lead
    split_ifs <;> simp [Utf8.flush]
  cases progress with
  | start => exact hlead
  | inside value remaining low high =>
    by_cases hb : low ≤ b ∧ b ≤ high
    · by_cases hr : remaining ≤ 1 <;> simp [Utf8.step, hb, hr, Utf8.flush]
    · simp [Utf8.step, hb]

theorem Utf8.toText_ne {bytes : List UInt8} (h : bytes ≠ []) :
    Utf8.toText bytes ≠ interruptMarker := by
  intro he
  have hd : Utf8.decode bytes = [] := String.ofList_injective he
  rw [← List.dropLast_concat_getLast h, Utf8.decode_append] at hd
  generalize bytes.dropLast.foldl Utf8.Decoder.push {} = d at hd
  rcases Utf8.step_ne d.progress (bytes.getLast h).toNat with hs | hs
  · simp [Utf8.Decoder.push, Utf8.Decoder.finish, hs] at hd
  · simp [Utf8.Decoder.push, Utf8.Decoder.finish, hs] at hd

/-- Bytes cut behind every separator. Only the last piece may lack one. -/
def pieces : List UInt8 → List (List UInt8)
  | [] => []
  | b :: rest =>
    if b = separator then [b] :: pieces rest
    else match pieces rest with
      | [] => [[b]]
      | piece :: more => (b :: piece) :: more

def terminated (piece : List UInt8) : List UInt8 :=
  if piece.getLast? = some separator then piece else piece ++ [separator]

/-- The lines that an input makes when it ends. -/
def logicalLines (bytes : List UInt8) : List String :=
  (pieces bytes).map fun piece => Utf8.toText (terminated piece)

theorem pieces_line (line rest : List UInt8) (hl : separator ∉ line) :
    pieces (line ++ separator :: rest) = (line ++ [separator]) :: pieces rest := by
  induction line with
  | nil => simp [pieces]
  | cons b line ih =>
    have hb : b ≠ separator := fun h => hl (by simp [h])
    have ht : separator ∉ line := fun h => hl (by simp [h])
    simp [pieces, hb, ih ht]

theorem pieces_fragment (b : UInt8) (line : List UInt8) (hl : separator ∉ b :: line) :
    pieces (b :: line) = [b :: line] := by
  induction line generalizing b with
  | nil =>
    have hb : b ≠ separator := fun h => hl (by simp [h])
    simp [pieces, hb]
  | cons c line ih =>
    have hb : b ≠ separator := fun h => hl (by simp [h])
    have ht : separator ∉ c :: line := fun h => hl (by simp [h])
    rw [pieces, ih c ht]
    simp [hb]

theorem logicalLines_line (line rest : List UInt8) (hl : separator ∉ line) :
    logicalLines (line ++ separator :: rest) =
      Utf8.toText (line ++ [separator]) :: logicalLines rest := by
  simp [logicalLines, pieces_line line rest hl, terminated]

theorem logicalLines_fragment (line : List UInt8) (hl : separator ∉ line) :
    logicalLines line = if line.isEmpty then [] else [Utf8.toText (line ++ [separator])] := by
  cases line with
  | nil => rfl
  | cons b line =>
    have hg : (b :: line).getLast? ≠ some separator := fun h => hl (List.mem_of_getLast? h)
    simp [logicalLines, pieces_fragment b line hl, terminated, hg]

namespace Cut

theorem push_residue (c : Cut) (b : UInt8) (h : separator ∉ c.residue) :
    separator ∉ (c.push b).residue := by
  unfold push
  split
  · simp
  · rename_i hb
    intro hm
    rcases List.mem_cons.1 hm with he | hm
    · exact hb he.symm
    · exact h hm

theorem foldl_push_residue (bytes : List UInt8) (c : Cut) (h : separator ∉ c.residue) :
    separator ∉ (bytes.foldl push c).residue := by
  induction bytes generalizing c with
  | nil => exact h
  | cons b rest ih => exact ih (c.push b) (push_residue c b h)

theorem foldl_push_lines (bytes : List UInt8) (c : Cut) (h : [] ∉ c.lines) :
    [] ∉ (bytes.foldl push c).lines := by
  induction bytes generalizing c with
  | nil => exact h
  | cons b rest ih =>
    apply ih
    unfold push
    split
    · simpa using h
    · exact h

/-- The marker of an interrupt never comes out of the bytes of the input. -/
theorem marker_not_mem_lines (bytes residue : List UInt8) :
    interruptMarker ∉ (bytes.foldl push ⟨[], residue⟩).lines.reverse.map Utf8.toText := by
  intro hm
  obtain ⟨line, hl, ht⟩ := List.mem_map.1 hm
  have hn : line ≠ [] := by
    rintro rfl
    exact foldl_push_lines bytes ⟨[], residue⟩ (by simp) (List.mem_reverse.1 hl)
  exact Utf8.toText_ne hn ht

end Cut

/-- The lines cut off so far, followed by those that the residue makes with later bytes. -/
theorem logicalLines_cut (bytes later : List UInt8) (c : Cut) (h : separator ∉ c.residue) :
    c.lines.reverse.map Utf8.toText ++ logicalLines (c.residue.reverse ++ (bytes ++ later)) =
      (bytes.foldl Cut.push c).lines.reverse.map Utf8.toText ++
        logicalLines ((bytes.foldl Cut.push c).residue.reverse ++ later) := by
  induction bytes generalizing c with
  | nil => rfl
  | cons b rest ih =>
    rw [List.foldl_cons, ← ih (c.push b) (Cut.push_residue c b h)]
    by_cases hb : b = separator
    · have hc : separator ∉ c.residue.reverse := by simpa using h
      have hp := logicalLines_line c.residue.reverse (rest ++ later) hc
      simp [Cut.push, hb, hp]
    · simp [Cut.push, hb]

def endedPieces (bytes : List UInt8) : List (List UInt8) :=
  (pieces bytes).filter fun piece => piece.getLast? = some separator

def openPiece (bytes : List UInt8) : List UInt8 :=
  ((pieces bytes).filter fun piece => piece.getLast? ≠ some separator).flatten

theorem endedPieces_line (line rest : List UInt8) (hl : separator ∉ line) :
    endedPieces (line ++ separator :: rest) = (line ++ [separator]) :: endedPieces rest := by
  simp [endedPieces, pieces_line line rest hl]

theorem openPiece_line (line rest : List UInt8) (hl : separator ∉ line) :
    openPiece (line ++ separator :: rest) = openPiece rest := by
  simp [openPiece, pieces_line line rest hl]

theorem pieces_unended (line : List UInt8) (hl : separator ∉ line) :
    endedPieces line = [] ∧ openPiece line = line := by
  cases line with
  | nil => exact ⟨rfl, rfl⟩
  | cons b line =>
    have hg : (b :: line).getLast? ≠ some separator := fun h => hl (List.mem_of_getLast? h)
    simp [endedPieces, openPiece, pieces_fragment b line hl, hg]

/-- Cutting byte by byte cuts off the ended pieces and leaves the open one. -/
theorem Cut.foldl_push_eq (bytes : List UInt8) (c : Cut) (h : separator ∉ c.residue) :
    bytes.foldl push c = ⟨(endedPieces (c.residue.reverse ++ bytes)).reverse ++ c.lines,
      (openPiece (c.residue.reverse ++ bytes)).reverse⟩ := by
  induction bytes generalizing c with
  | nil =>
    obtain ⟨he, ho⟩ := pieces_unended c.residue.reverse (by simpa using h)
    simp [he, ho]
  | cons b rest ih =>
    rw [List.foldl_cons, ih (c.push b) (push_residue c b h)]
    by_cases hb : b = separator
    · subst hb
      have hc : separator ∉ c.residue.reverse := by simpa using h
      rw [endedPieces_line _ rest hc, openPiece_line _ rest hc]
      simp [push]
    · simp [push, hb]

end PromptLoop
