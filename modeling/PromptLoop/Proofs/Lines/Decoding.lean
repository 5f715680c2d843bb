import PromptLoop.Proofs.Lines.Representation
import PromptLoop.Proofs.Lines.Schedule
import PromptLoop.Proofs.Unicode.Replacement

set_option autoImplicit false

namespace PromptLoop

/-- Nothing in front of a separator matters behind it. -/
theorem Utf8.decode_line_append (front back : List UInt8) :
    decode (front ++ separator :: back) = decode (front ++ [separator]) ++ decode back := by
  have hbeyond := foldl_push_beyond front (d := {}) trivial
  generalize hd : front.foldl Decoder.push {} = d at hbeyond
  have hpush : d.push separator = ⟨.start, (flush d.progress ++ ['\n']).reverse ++ d.reversed⟩ := by
    rw [Decoder.push, step_separator hbeyond]
  rw [decode_append, decode_append, hd, List.foldl_cons, List.foldl_cons, hpush, finish_foldl_push]
  simp [Decoder.finish, flush, decode_eq_decodeFrom]

/-- The line break that the end of an input adds to its text. -/
def addedBreak (bytes : List UInt8) : List Char :=
  if bytes = [] ∨ bytes.getLast? = some separator then [] else ['\n']

theorem addedBreak_line (front back : List UInt8) :
    addedBreak (front ++ separator :: back) = addedBreak back := by
  cases back with
  | nil => simp [addedBreak]
  | cons b rest => simp [addedBreak, List.getLast?_cons]

theorem logicalLines_decode (bytes : List UInt8) :
    (logicalLines bytes).flatMap String.toList = Utf8.decode bytes ++ addedBreak bytes := by
  induction hn : bytes.length using Nat.strongRecOn generalizing bytes with
  | ind n ih =>
    by_cases hm : separator ∈ bytes
    · obtain ⟨line, rest, rfl, hl⟩ := List.eq_append_cons_of_mem hm
      have hlt : rest.length < n := by
        rw [← hn, List.length_append, List.length_cons]
        omega
      rw [logicalLines_line line rest hl, List.flatMap_cons, ih _ hlt rest rfl, addedBreak_line,
        Utf8.decode_line_append, Utf8.toText, String.toList_ofList, List.append_assoc]
    · rw [logicalLines_fragment bytes hm]
      cases bytes with
      | nil => rfl
      | cons b rest =>
        have hlast : (b :: rest).getLast? ≠ some separator := fun h => hm (List.mem_of_getLast? h)
        have hbreak : addedBreak (b :: rest) = ['\n'] := by simp [addedBreak, hlast]
        rw [hbreak, ← Utf8.decode_separator]
        simp [Utf8.toText]

/-- All lines together are the text of the whole input, of which every ill-formed part is replaced
once, with a line break if the last line lacks one. -/
theorem joined_lines_decode_input (chunks : List (List UInt8)) (before after : List ReaderCall)
    (hb : before.filter ReaderCall.isSupply = chunks.map .feed)
    (ha : after.filter ReaderCall.isSupply = []) :
    let bytes := chunks.flatten
    let text := String.ofList (Utf8.decode bytes ++ addedBreak bytes)
    let late := ReadingTask.run (before ++ .finish :: after)
    (∀ chars, Utf8.Replaced bytes chars ↔ chars = Utf8.decode bytes) ∧
    String.join (late.delivered ++ late.reader.buffer.lines) = text ∧
    (late.reader.buffer.isDone = true → String.join late.delivered = text) := by
  intro bytes text late
  obtain ⟨-, hlate, hended⟩ := ReadingTask.progress_run hb ha
  obtain ⟨hlines, -, hdone⟩ := hlate.at_end hended
  have hjoin : String.join (logicalLines bytes) = text := by
    apply String.toList_injective
    rw [String.toList_join, logicalLines_decode, String.toList_ofList]
  exact ⟨Utf8.replaced_iff bytes, hlines ▸ hjoin, fun h => hdone.1 h ▸ hjoin⟩

/-- Characters that break off in front of a separator and at the end of the input. -/
theorem broken_characters_joined :
    [ReaderCall.feed [0xE2, 0x82], .resume, .feed [10, 0xF0, 0x9F], .feed [0x98]].filter
        ReaderCall.isSupply = [[0xE2, 0x82], [10, 0xF0, 0x9F], [0x98]].map .feed ∧
    [ReaderCall.resume, .resume].filter ReaderCall.isSupply = [] ∧
    String.join (ReadingTask.run ([.feed [0xE2, 0x82], .resume, .feed [10, 0xF0, 0x9F],
      .feed [0x98]] ++ .finish :: [.resume, .resume])).delivered = "\uFFFD\n\uFFFD\n" :=
  ⟨by decide, by decide,
    ((joined_lines_decode_input [[0xE2, 0x82], [10, 0xF0, 0x9F], [0x98]]
      [.feed [0xE2, 0x82], .resume, .feed [10, 0xF0, 0x9F], .feed [0x98]] [.resume, .resume]
      (by decide) (by decide)).2.2 (by decide)).trans (by decide)⟩

end PromptLoop
