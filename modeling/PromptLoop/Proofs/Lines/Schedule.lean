import PromptLoop.Lines.Reader
import PromptLoop.Proofs.Lines.Handover

set_option autoImplicit false

namespace PromptLoop

/-- A call on a reader by its supplier, or a turn of the task that reads from it. -/
inductive ReaderCall where
  | feed (chunk : List UInt8)
  | finish
  | resume
deriving DecidableEq

def ReaderCall.isSupply : ReaderCall → Bool
  | .resume => false
  | _ => true

def ReaderCall.bytes : ReaderCall → List UInt8
  | .feed chunk => chunk
  | _ => []

def ReadState.answer? : ReadState → Option Answer
  | .answered a => some a
  | _ => none

/-- A task that starts a read only when it has got the answer to the one before. -/
structure ReadingTask where
  reader : LineReader := {}
  awaited : Option Nat := none
  answers : List Answer := []

namespace ReadingTask

def resume (t : ReadingTask) : ReadingTask :=
  match t.awaited with
  | none =>
    match t.reader.start with
    | (reader, .answer a) => ⟨reader, none, t.answers ++ [a]⟩
    | (reader, .waiting) => ⟨reader, some t.reader.reads.length, t.answers⟩
    | (reader, _) => ⟨reader, none, t.answers⟩
  | some i =>
    match t.reader.poll i with
    | (reader, .answer a) => ⟨reader, none, t.answers ++ [a]⟩
    | (reader, _) => ⟨reader, some i, t.answers⟩

def call (t : ReadingTask) : ReaderCall → ReadingTask
  | .feed chunk => { t with reader := t.reader.feed chunk }
  | .finish => { t with reader := t.reader.finish }
  | .resume => t.resume

def run (calls : List ReaderCall) : ReadingTask :=
  calls.foldl call {}

/-- The answers that reads were given, the one that the task has not looked at yet included. -/
def answered (t : ReadingTask) : List Answer :=
  t.answers ++ t.reader.reads.filterMap ReadState.answer?

/-- The lines that reads were answered with. -/
def delivered (t : ReadingTask) : List String :=
  t.answered.filterMap Answer.line?

/-- All reads but the awaited one are over, and the slot of the buffer agrees with that one. -/
inductive Orderly : ReadingTask → Prop where
  | idle {buffer : LineBuffer} {answers : List Answer} (k : Nat) (hs : buffer.slot = .free) :
      Orderly ⟨⟨buffer, List.replicate k .over⟩, none, answers⟩
  | waiting {buffer : LineBuffer} {answers : List Answer} (k : Nat) (hs : buffer.slot = .awaited) :
      Orderly ⟨⟨buffer, List.replicate k .over ++ [.waiting]⟩, some k, answers⟩
  | held {buffer : LineBuffer} {answers : List Answer} (k : Nat) (a : Answer)
      (hs : buffer.slot = .free) :
      Orderly ⟨⟨buffer, List.replicate k .over ++ [.answered a]⟩, some k, answers⟩

theorem filterMap_over (k : Nat) :
    (List.replicate k ReadState.over).filterMap ReadState.answer? = [] := by
  simp [List.filterMap_eq_nil_iff, ReadState.answer?]

/-- What a change of the buffer releases reaches the read that the task waits for. -/
theorem Orderly.change {t : ReadingTask} (ht : t.Orderly)
    (f : LineBuffer → LineBuffer × Option Answer)
    (hf : t.reader.buffer.Releases (f t.reader.buffer)) :
    Orderly { t with reader := t.reader.change f } ∧
      answered { t with reader := t.reader.change f } =
        t.answered ++ (f t.reader.buffer).2.toList := by
  cases ht with
  | @idle buffer answers k hs =>
    cases hr : f buffer with
    | mk rest a =>
      cases a with
      | none =>
        have hn : rest.slot = .free := by simpa [LineBuffer.Releases, hr, hs] using hf
        simp only [LineReader.change, hr, LineReader.deliver]
        exact ⟨.idle k hn, by simp [answered]⟩
      | some a => simp [LineBuffer.Releases, hr, hs] at hf
  | @waiting buffer answers k hs =>
    cases hr : f buffer with
    | mk rest a =>
      cases a with
      | none =>
        have hn : rest.slot = .awaited := by simpa [LineBuffer.Releases, hr, hs] using hf
        simp only [LineReader.change, hr, LineReader.deliver]
        exact ⟨.waiting k hn, by simp [answered]⟩
      | some a =>
        have hn : rest.slot = .free := by simpa [LineBuffer.Releases, hr, hs] using hf
        simp only [LineReader.change, hr, LineReader.deliver, List.map_append, List.map_replicate]
        exact ⟨.held k a hn, by simp [answered, filterMap_over, ReadState.answer?]⟩
  | @held buffer answers k held hs =>
    cases hr : f buffer with
    | mk rest a =>
      cases a with
      | none =>
        have hn : rest.slot = .free := by simpa [LineBuffer.Releases, hr, hs] using hf
        simp only [LineReader.change, hr, LineReader.deliver]
        exact ⟨.held k held hn, by simp [answered]⟩
      | some a => simp [LineBuffer.Releases, hr, hs] at hf

/-- A turn of the task changes nothing that was answered, or it starts one read. -/
theorem Orderly.resume {t : ReadingTask} (ht : t.Orderly) :
    t.resume.Orderly ∧
      ((t.resume.reader.buffer = t.reader.buffer ∧ t.resume.answered = t.answered) ∨
        ∃ a, t.reader.buffer.read = .ok (t.resume.reader.buffer, a) ∧
          t.resume.answered = t.answered ++ a.toList) := by
  cases ht with
  | @idle buffer answers k hs =>
    have hover : List.replicate k ReadState.over ++ [.over] = List.replicate (k + 1) .over :=
      List.replicate_succ'.symm
    have hstart := LineBuffer.read_starting buffer
    cases hr : buffer.read with
    | error fault =>
      have hturn : ReadingTask.resume ⟨⟨buffer, List.replicate k .over⟩, none, answers⟩ =
          ⟨⟨buffer, List.replicate (k + 1) .over⟩, none, answers⟩ := by
        simp [ReadingTask.resume, LineReader.start, hr, hover]
      rw [hturn]
      exact ⟨.idle (k + 1) hs, .inl ⟨rfl, by simp [answered, filterMap_over]⟩⟩
    | ok r =>
      obtain ⟨rest, a⟩ := r
      rw [hr] at hstart
      cases a with
      | some a =>
        have hn : rest.slot = .free := by cases hstart <;> rfl
        have hturn : ReadingTask.resume ⟨⟨buffer, List.replicate k .over⟩, none, answers⟩ =
            ⟨⟨rest, List.replicate (k + 1) .over⟩, none, answers ++ [a]⟩ := by
          simp [ReadingTask.resume, LineReader.start, hr, hover]
        rw [hturn]
        exact ⟨.idle (k + 1) hn, .inr ⟨some a, rfl, by simp [answered, filterMap_over]⟩⟩
      | none =>
        have hn : rest.slot = .awaited := by cases hstart; rfl
        have hturn : ReadingTask.resume ⟨⟨buffer, List.replicate k .over⟩, none, answers⟩ =
            ⟨⟨rest, List.replicate k .over ++ [.waiting]⟩, some k, answers⟩ := by
          simp [ReadingTask.resume, LineReader.start, hr]
        rw [hturn]
        exact ⟨.waiting k hn,
          .inr ⟨none, rfl, by simp [answered, filterMap_over, ReadState.answer?]⟩⟩
  | @waiting buffer answers k hs =>
    have hturn :
        ReadingTask.resume ⟨⟨buffer, List.replicate k .over ++ [.waiting]⟩, some k, answers⟩ =
          ⟨⟨buffer, List.replicate k .over ++ [.waiting]⟩, some k, answers⟩ := by
      simp [ReadingTask.resume, LineReader.poll]
    rw [hturn]
    exact ⟨.waiting k hs, .inl ⟨rfl, rfl⟩⟩
  | @held buffer answers k a hs =>
    have hturn :
        ReadingTask.resume ⟨⟨buffer, List.replicate k .over ++ [.answered a]⟩, some k, answers⟩ =
          ⟨⟨buffer, List.replicate (k + 1) .over⟩, none, answers ++ [a]⟩ := by
      simp [ReadingTask.resume, LineReader.poll, List.replicate_succ']
    rw [hturn]
    exact ⟨.idle (k + 1) hs, .inl ⟨rfl, by simp [answered, filterMap_over, ReadState.answer?]⟩⟩

/-- How far a task has come with an input of the given lines, of which `later` are the bytes that
still arrive. -/
structure Progress (t : ReadingTask) (later : List UInt8) (lines : List String) : Prop where
  orderly : t.Orderly
  sound : t.reader.buffer.Sound
  no_failure : t.reader.buffer.failure = none
  lines_eq : t.delivered ++ t.reader.buffer.remaining later = lines
  answered_eq : t.answered = t.delivered.map .line ∨
    (t.answered = t.delivered.map .line ++ [.ended] ∧ t.reader.buffer.isDone = true)

theorem progress_start (bytes : List UInt8) :
    Progress {} bytes (logicalLines bytes) where
  orderly := .idle 0 rfl
  sound := LineBuffer.sound_empty
  no_failure := rfl
  lines_eq := LineBuffer.remaining_empty bytes
  answered_eq := .inl rfl

/-- Whatever the buffer releases in one operation goes to the task or stays in the buffer. -/
theorem Progress.absorb {t u : ReadingTask} {later later' : List UInt8} {lines : List String}
    {a : Option Answer} (ht : t.Progress later lines) (ho : u.Orderly)
    (hu : u.answered = t.answered ++ a.toList) (hs : u.reader.buffer.Sound)
    (hp : LineBuffer.Plain (u.reader.buffer, a))
    (hr : handed a ++ u.reader.buffer.remaining later' = t.reader.buffer.remaining later)
    (hd : t.reader.buffer.isDone = true → a = none ∧ u.reader.buffer.isDone = true) :
    u.Progress later' lines := by
  have hdel : u.delivered = t.delivered ++ handed a := by
    cases a <;> simp [delivered, hu, handed]
    rename_i a
    cases a <;> simp [Answer.line?]
  refine ⟨ho, hs, hp.1, ?_, ?_⟩
  · rw [hdel, List.append_assoc, hr, ht.lines_eq]
  · -- Behind the answer that tells of the end nothing more is released.
    rcases ht.answered_eq with h | ⟨h, hdone⟩
    · cases a with
      | none => exact .inl (by simp [hu, hdel, h, handed])
      | some a =>
        rcases hp.2 a rfl with ⟨line, rfl⟩ | ⟨rfl, hdone⟩
        · exact .inl (by simp [hu, hdel, h, handed, Answer.line?])
        · exact .inr ⟨by simp [hu, hdel, h, handed, Answer.line?], hdone⟩
    · obtain ⟨rfl, hdone'⟩ := hd hdone
      exact .inr ⟨by simp [hu, hdel, h, handed], hdone'⟩

theorem Progress.resume {t : ReadingTask} {later : List UInt8} {lines : List String}
    (ht : t.Progress later lines) : t.resume.Progress later lines := by
  obtain ⟨ho, ⟨hb, ha⟩ | ⟨a, hr, ha⟩⟩ := ht.orderly.resume
  · refine ht.absorb (a := none) ho (by simpa using ha) (hb ▸ ht.sound)
      ⟨hb ▸ ht.no_failure, by simp⟩ (by simp [hb, handed]) ?_
    intro hd
    exact ⟨rfl, hb ▸ hd⟩
  · refine ht.absorb ho ha (ht.sound.read hr) (LineBuffer.read_plain ht.no_failure hr)
      (LineBuffer.read_remaining hr later) ?_
    intro hd
    exact absurd hr (LineBuffer.read_of_isDone hd)

theorem Progress.feed {t : ReadingTask} {chunk later : List UInt8} {lines : List String}
    (ht : t.Progress (chunk ++ later) lines) : (t.call (.feed chunk)).Progress later lines := by
  obtain ⟨ho, ha⟩ := ht.orderly.change _ (LineBuffer.feed_releases t.reader.buffer chunk)
  refine ht.absorb ho ha (ht.sound.feed chunk) (LineBuffer.feed_plain ht.no_failure chunk)
    (LineBuffer.feed_remaining ht.sound chunk later) ?_
  intro hd
  have hf := LineBuffer.feed_of_isDone hd chunk
  exact ⟨by rw [hf], by simpa [LineReader.change, call, LineReader.feed, hf] using hd⟩

theorem Progress.finish {t : ReadingTask} {lines : List String} (ht : t.Progress [] lines) :
    (t.call .finish).Progress [] lines := by
  obtain ⟨ho, ha⟩ := ht.orderly.change _ (LineBuffer.finish_releases t.reader.buffer)
  refine ht.absorb ho ha ht.sound.finish (LineBuffer.finish_plain ht.no_failure)
    (LineBuffer.finish_remaining ht.sound []) ?_
  intro hd
  have hf := LineBuffer.finish_of_isDone hd
  exact ⟨by rw [hf], by simpa [LineReader.change, call, LineReader.finish, hf] using hd⟩

theorem call_ended {t : ReadingTask} (ht : t.Orderly) {c : ReaderCall} (hc : c ≠ .finish) :
    (t.call c).reader.buffer.ended = t.reader.buffer.ended := by
  cases c with
  | feed chunk => exact LineBuffer.feed_ended t.reader.buffer chunk
  | finish => exact absurd rfl hc
  | resume =>
    obtain ⟨-, ⟨hb, -⟩ | ⟨a, hr, -⟩⟩ := ht.resume
    · exact congrArg LineBuffer.ended hb
    · exact LineBuffer.read_ended hr

theorem Progress.foldl {calls : List ReaderCall} (hc : .finish ∉ calls) {t : ReadingTask}
    {later : List UInt8} {lines : List String}
    (ht : t.Progress (calls.flatMap ReaderCall.bytes ++ later) lines) :
    (calls.foldl call t).Progress later lines ∧
      (calls.foldl call t).reader.buffer.ended = t.reader.buffer.ended := by
  induction calls generalizing t with
  | nil => exact ⟨ht, rfl⟩
  | cons c rest ih =>
    have hn : c ≠ .finish := fun h => hc (by simp [h])
    have hr : .finish ∉ rest := fun h => hc (by simp [h])
    have hnext : (t.call c).Progress (rest.flatMap ReaderCall.bytes ++ later) lines := by
      rw [List.flatMap_cons, List.append_assoc] at ht
      cases c with
      | feed chunk => exact ht.feed
      | finish => exact absurd rfl hn
      | resume => exact ht.resume
    obtain ⟨hp, he⟩ := ih hr hnext
    exact ⟨hp, he.trans (call_ended ht.orderly hn)⟩

theorem Progress.before_end {t : ReadingTask} {later : List UInt8} {lines : List String}
    (ht : t.Progress later lines) (he : t.reader.buffer.ended = false) :
    t.reader.buffer.isDone = false ∧ t.answered = t.delivered.map .line ∧
      t.delivered ++ t.reader.buffer.lines <+: lines := by
  have hd : t.reader.buffer.isDone = false := by simp [LineBuffer.isDone, he]
  refine ⟨hd, ?_, ?_⟩
  · rcases ht.answered_eq with h | ⟨-, hdone⟩
    · exact h
    · simp [hd] at hdone
  · rw [← ht.lines_eq, LineBuffer.remaining, ← List.append_assoc]
    exact List.prefix_append _ _

theorem Progress.at_end {t : ReadingTask} {later : List UInt8} {lines : List String}
    (ht : t.Progress later lines) (he : t.reader.buffer.ended = true) :
    t.delivered ++ t.reader.buffer.lines = lines ∧
      (t.answered = t.delivered.map .line ∨ t.answered = lines.map .line ++ [.ended]) ∧
      (t.reader.buffer.isDone = true ↔ t.delivered = lines) := by
  have hl : t.delivered ++ t.reader.buffer.lines = lines := by
    simpa [LineBuffer.remaining, he] using ht.lines_eq
  have hd : t.reader.buffer.isDone = true ↔ t.delivered = lines := by
    rw [LineBuffer.isDone_iff, ← hl, List.self_eq_append_right]
    simp [he, ht.no_failure]
  refine ⟨hl, ?_, hd⟩
  rcases ht.answered_eq with h | ⟨h, hdone⟩
  · exact .inl h
  · exact .inr (by rw [h, hd.1 hdone])

end ReadingTask

theorem flatMap_bytes_filter (calls : List ReaderCall) :
    (calls.filter ReaderCall.isSupply).flatMap ReaderCall.bytes =
      calls.flatMap ReaderCall.bytes := by
  induction calls with
  | nil => rfl
  | cons c rest ih => cases c <;> simp [List.filter_cons, ReaderCall.isSupply, ReaderCall.bytes, ih]

theorem flatMap_bytes_feed (chunks : List (List UInt8)) :
    (chunks.map ReaderCall.feed).flatMap ReaderCall.bytes = chunks.flatten := by
  induction chunks with
  | nil => rfl
  | cons chunk rest ih => simp [ReaderCall.bytes, ih]

theorem not_mem_of_filter_isSupply {calls supplies : List ReaderCall}
    (h : calls.filter ReaderCall.isSupply = supplies) (hs : .finish ∉ supplies) :
    .finish ∉ calls := by
  intro hm
  exact hs (h ▸ List.mem_filter.2 ⟨hm, rfl⟩)

/-- How far the task has come when the input ends, and at any time after that. -/
theorem ReadingTask.progress_run {chunks : List (List UInt8)} {before after : List ReaderCall}
    (hb : before.filter ReaderCall.isSupply = chunks.map .feed)
    (ha : after.filter ReaderCall.isSupply = []) :
    ((run before).Progress [] (logicalLines chunks.flatten) ∧
      (run before).reader.buffer.ended = false) ∧
    (run (before ++ .finish :: after)).Progress [] (logicalLines chunks.flatten) ∧
      (run (before ++ .finish :: after)).reader.buffer.ended = true := by
  have hbytes : before.flatMap ReaderCall.bytes = chunks.flatten := by
    rw [← flatMap_bytes_filter, hb, flatMap_bytes_feed]
  have habytes : after.flatMap ReaderCall.bytes = [] := by
    rw [← flatMap_bytes_filter, ha, List.flatMap_nil]
  have hbn : .finish ∉ before := not_mem_of_filter_isSupply hb (by simp)
  have han : .finish ∉ after := not_mem_of_filter_isSupply ha (by simp)
  have hstart : ({} : ReadingTask).Progress (before.flatMap ReaderCall.bytes ++ [])
      (logicalLines chunks.flatten) := by
    rw [hbytes, List.append_nil]
    exact progress_start chunks.flatten
  obtain ⟨hearly, hopen⟩ := hstart.foldl hbn
  have hfinish : ((run before).call .finish).Progress (after.flatMap ReaderCall.bytes ++ [])
      (logicalLines chunks.flatten) := by
    rw [habytes]
    exact hearly.finish
  obtain ⟨hlate, hended⟩ := hfinish.foldl han
  have hrun : after.foldl call ((run before).call .finish) = run (before ++ .finish :: after) := by
    simp [run]
  rw [hrun] at hlate hended
  exact ⟨⟨hearly, hopen⟩, hlate, hended.trans (LineBuffer.finish_ended _)⟩

/-- Chunks are fed in order and then the input ends, while a task takes its turns at any time. Up
to the end the buffer is not done and the task is not told of an end. From the end on, the lines
that reads were answered with and those still in the buffer are the lines of the whole input; a
read is answered with the end only behind all of them, and the buffer is done as soon as all of
them are handed out. -/
theorem lines_independent_of_schedule (chunks : List (List UInt8)) (before after : List ReaderCall)
    (hb : before.filter ReaderCall.isSupply = chunks.map .feed)
    (ha : after.filter ReaderCall.isSupply = []) :
    let lines := logicalLines chunks.flatten
    let early := ReadingTask.run before
    let late := ReadingTask.run (before ++ .finish :: after)
    (early.reader.buffer.isDone = false ∧ early.answered = early.delivered.map .line ∧
      early.delivered ++ early.reader.buffer.lines <+: lines) ∧
    late.delivered ++ late.reader.buffer.lines = lines ∧
    (late.answered = late.delivered.map .line ∨ late.answered = lines.map .line ++ [.ended]) ∧
    (late.reader.buffer.isDone = true ↔ late.delivered = lines) := by
  intro lines early late
  obtain ⟨⟨hearly, hopen⟩, hlate, hended⟩ := ReadingTask.progress_run hb ha
  exact ⟨hearly.before_end hopen, hlate.at_end hended⟩

/-- A character that is cut in two, and a last line without a separator. -/
theorem lines_of_split_character :
    [ReaderCall.resume, .feed [0xC3], .feed [0xA9, 10, 98], .resume].filter ReaderCall.isSupply =
      [[0xC3], [0xA9, 10, 98]].map .feed ∧
    [ReaderCall.resume, .resume].filter ReaderCall.isSupply = [] ∧
    (ReadingTask.run ([.resume, .feed [0xC3], .feed [0xA9, 10, 98], .resume] ++
      .finish :: [.resume, .resume])).delivered = ["é\n", "b\n"] :=
  ⟨by decide, by decide,
    ((lines_independent_of_schedule [[0xC3], [0xA9, 10, 98]]
      [.resume, .feed [0xC3], .feed [0xA9, 10, 98], .resume] [.resume, .resume]
      (by decide) (by decide)).2.2.2.1 (by decide)).trans (by decide)⟩

end PromptLoop
