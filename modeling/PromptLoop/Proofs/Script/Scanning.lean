import Mathlib.Tactic.SplitIfs
import PromptLoop.Script.Token.Scan

set_option autoImplicit false

/-!
# What a scanner has read

Complete tokens stay: later text only adds to them (`prefix_of_scan_append`), and a number among
them is the value of some digits (`written_of_scan`). A line break behind text that could be the
end leaves the scanner between two tokens (`push_newline_of_finish`). Otherwise it is escaped in a
string that is still open, or has spoiled a code point (`push_newline`). What follows in an open
string can only add that string (`string_of_scan_append`), and nothing helps where a code point is
spoiled (`scan_append_ne_ok`).
-/
namespace PromptLoop.Script

section Fold
variable {α β ε : Type} {f : β → α → Except ε β} {b b' : β}

theorem exists_of_bind {x : Except ε α} {k : α → Except ε β} (h : x.bind k = .ok b) :
    ∃ a, x = .ok a ∧ k a = .ok b := by
  cases x with
  | error e => cases h
  | ok a => exact ⟨a, rfl, h⟩

theorem exists_of_foldlM_cons {a : α} {rest : List α} (h : (a :: rest).foldlM f b = .ok b') :
    ∃ next, f b a = .ok next ∧ rest.foldlM f next = .ok b' := by
  rw [List.foldlM_cons] at h
  exact exists_of_bind h

theorem exists_of_foldlM_append {front back : List α}
    (h : (front ++ back).foldlM f b = .ok b') :
    ∃ next, front.foldlM f b = .ok next ∧ back.foldlM f next = .ok b' := by
  rw [List.foldlM_append] at h
  exact exists_of_bind h

theorem foldlM_singleton (a : α) : [a].foldlM f b = f b a := by
  rw [List.foldlM_cons]
  cases f b a <;> rfl

theorem foldlM_cons_of_ok {a : α} {next : β} (h : f b a = .ok next) (rest : List α) :
    (a :: rest).foldlM f b = rest.foldlM f next := by
  rw [List.foldlM_cons, h]
  rfl

theorem foldlM_append_of_ok {front : List α} {next : β} (h : front.foldlM f b = .ok next)
    (back : List α) : (front ++ back).foldlM f b = back.foldlM f next := by
  rw [List.foldlM_append, h]
  rfl

theorem exists_of_foldlM_error {l : List α} {e : ε} (h : l.foldlM f b = .error e) :
    ∃ front a back next, l = front ++ a :: back ∧ front.foldlM f b = .ok next ∧
      f next a = .error e := by
  induction l generalizing b with
  | nil => cases h
  | cons a rest ih =>
    rw [List.foldlM_cons] at h
    cases hstep : f b a with
    | error e' =>
      rw [hstep] at h
      cases h
      exact ⟨[], a, rest, b, rfl, rfl, hstep⟩
    | ok b₁ =>
      rw [hstep] at h
      obtain ⟨front, a', back, next, rfl, hfront, hfail⟩ := ih h
      refine ⟨a :: front, a', back, next, rfl, ?_, hfail⟩
      rw [List.foldlM_cons, hstep]
      exact hfront

end Fold

def Piece.InString : Piece → Prop
  | .string .. | .escape .. | .codePoint .. => True
  | _ => False

def Piece.Spoiled : Piece → Prop
  | .codePoint _ _ digits => '\n' ∈ digits
  | _ => False

theorem Piece.Spoiled.inString {piece : Piece} (h : piece.Spoiled) : piece.InString := by
  cases piece with
  | codePoint quote chars digits => trivial
  | _ => exact h.elim

theorem number?_eq_none {ds : List Char} (h : '\n' ∈ ds) (n : Nat) :
    ds.foldlM (fun n c => (Hex.value? c).map (n * 16 + ·)) n = none := by
  induction ds generalizing n with
  | nil => cases h
  | cons d rest ih =>
    rw [List.foldlM_cons]
    rcases List.mem_cons.1 h with rfl | hrest
    · rfl
    · cases Hex.value? d with
      | none => rfl
      | some v => exact ih hrest _

theorem codePoint?_eq_none {ds : List Char} (h : '\n' ∈ ds) : codePoint? ds = none := by
  unfold codePoint? Hex.number?
  split
  · rw [number?_eq_none (List.mem_of_ne_of_mem (by decide) h)]
  · rw [number?_eq_none h]

def Token.Written : Token → Prop
  | .number x => ∃ (digits : Nat) (exponent : Int), x = Binary64.ofDecimal? digits exponent
  | _ => True

theorem literal?_written {text : List Char} {t : Token} (h : literal? text = some t) :
    t.Written := by
  unfold literal? at h
  dsimp only at h
  generalize Numeral.digits text = parts at h
  obtain ⟨whole, rest⟩ := parts
  dsimp only at h
  split at h <;> cases h <;> exact ⟨_, _, rfl⟩

namespace Scanner
variable {s s' : Scanner} {c : Char} {tokens : List Token}

def Grows (s s' : Scanner) : Prop :=
  ∃ new, (∀ t ∈ new, t.Written) ∧ s'.reversed = new ++ s.reversed

theorem Grows.suffix (h : s.Grows s') : s.reversed <:+ s'.reversed := by
  obtain ⟨new, -, heq⟩ := h
  exact ⟨new, heq.symm⟩

theorem Grows.trans {s'' : Scanner} (h : s.Grows s') (h' : s'.Grows s'') : s.Grows s'' := by
  obtain ⟨new, hnew, heq⟩ := h
  obtain ⟨newer, hnewer, heq'⟩ := h'
  refine ⟨newer ++ new, ?_, by rw [heq', heq, List.append_assoc]⟩
  intro t ht
  rcases List.mem_append.1 ht with ht | ht
  · exact hnewer t ht
  · exact hnew t ht

theorem grows_self (s : Scanner) (piece : Piece) : s.Grows { s with piece } :=
  ⟨[], by simp, rfl⟩

theorem grows_emit {t : Token} (ht : t.Written) : s.Grows (s.emit t) :=
  ⟨[t], by simpa using ht, rfl⟩

theorem kept_grows {piece : Piece}
    (h : Except.ok { s with piece := piece } = (.ok s' : Except Malformed Scanner)) :
    s.Grows s' := by
  cases h
  exact grows_self s piece

theorem emit_grows {t : Token} (h : Except.ok (s.emit t) = (.ok s' : Except Malformed Scanner))
    (ht : t.Written) : s.Grows s' := by
  cases h
  exact grows_emit ht

theorem start_grows (h : s.start c = .ok s') : s.Grows s' := by
  unfold start at h
  split_ifs at h
  case neg =>
    split at h
    · exact emit_grows h trivial
    · cases h
  all_goals exact kept_grows h

theorem emit_start_grows {t : Token} (h : (s.emit t).start c = .ok s') (ht : t.Written) :
    s.Grows s' :=
  (grows_emit ht).trans (start_grows h)

theorem endNumeral_grows {reversed : List Char} (h : s.endNumeral reversed = .ok s') :
    s.Grows s' := by
  unfold endNumeral at h
  split at h
  · exact emit_grows h (literal?_written ‹_›)
  · cases h

theorem endSymbol_grows {first : Char} (h : s.endSymbol first = .ok s') : s.Grows s' := by
  unfold endSymbol at h
  split at h
  · exact emit_grows h trivial
  · cases h

theorem bind_start_grows {x : Except Malformed Scanner}
    (hx : ∀ s₁, x = .ok s₁ → s.Grows s₁) (h : x.bind (·.start c) = .ok s') : s.Grows s' := by
  obtain ⟨s₁, hs₁, hstart⟩ := exists_of_bind h
  exact (hx s₁ hs₁).trans (start_grows hstart)

theorem push_grows (h : s.push c = .ok s') : s.Grows s' := by
  unfold push at h
  split at h
  · exact start_grows h
  · split at h
    · exact kept_grows h
    · exact emit_start_grows h trivial
  · split at h
    · exact kept_grows h
    · split at h
      · cases h
      · exact bind_start_grows (fun _ => endNumeral_grows) h
  · split_ifs at h
    · exact emit_grows h trivial
    · exact kept_grows h
    · exact kept_grows h
  · split at h
    · exact kept_grows h
    · exact kept_grows h
  · split at h
    · exact kept_grows h
    · split at h
      · exact kept_grows h
      · cases h
  · split at h
    · exact kept_grows h
    · exact emit_start_grows h trivial
  · split at h
    · exact kept_grows h
    · exact kept_grows h
  · split at h
    · exact emit_grows h trivial
    · exact bind_start_grows (fun _ => endSymbol_grows) h

theorem foldlM_push_grows (text : List Char) (h : text.foldlM push s = .ok s') : s.Grows s' := by
  induction text generalizing s with
  | nil =>
    cases h
    exact grows_self s' s'.piece
  | cons c rest ih =>
    obtain ⟨next, hpush, hrest⟩ := exists_of_foldlM_cons h
    exact (push_grows hpush).trans (ih hrest)

theorem map_reversed_grows {x : Except Malformed Scanner} (hx : ∀ s₁, x = .ok s₁ → s.Grows s₁)
    (h : x.map (·.reversed.reverse) = .ok tokens) : s.Grows ⟨tokens.reverse, .none⟩ := by
  cases x with
  | error cause => cases h
  | ok s₁ =>
    cases h
    rw [List.reverse_reverse]
    exact hx s₁ rfl

theorem finish_grows (h : s.finish = .ok tokens) : s.Grows ⟨tokens.reverse, .none⟩ := by
  have hemit {t : Token}
      (h : Except.ok (s.emit t).reversed.reverse = (.ok tokens : Except Malformed (List Token)))
      (ht : t.Written) : s.Grows ⟨tokens.reverse, .none⟩ :=
    map_reversed_grows (x := .ok (s.emit t)) (fun _ h => emit_grows h ht) h
  unfold finish at h
  split at h
  · cases h
    rw [List.reverse_reverse]
    exact grows_self s .none
  · cases h
    rw [List.reverse_reverse]
    exact grows_self s .none
  · exact hemit h trivial
  · exact map_reversed_grows (fun _ => endNumeral_grows) h
  · cases h
  · cases h
  · cases h
  · exact hemit h trivial
  · exact map_reversed_grows (fun _ => endSymbol_grows) h

theorem tokens_of_finish (h : s.finish = .ok tokens) : s.reversed.reverse <+: tokens := by
  simpa using List.reverse_prefix.2 (finish_grows h).suffix

theorem not_isWordPart_newline : isWordPart '\n' = false := by
  decide +kernel

theorem start_newline (s : Scanner) : s.start '\n' = .ok { s with piece := .none } :=
  if_pos (by decide +kernel)

theorem next?_newline (part : NumeralPart) : part.next? '\n' = none := by
  cases part <;> decide

theorem pair?_newline (first : Char) : pair? first '\n' = none := by
  unfold pair?
  rw [if_neg (by decide), if_neg (fun h => absurd h.2 (by decide)),
    if_neg (fun h => absurd h.2 (by decide))]

/-- A character with which no word, no number and no symbol goes on. -/
structure Separates (c : Char) : Prop where
  word : isWordPart c = false
  numeral : ∀ part : NumeralPart, part.next? c = none
  slash : c ≠ '/'
  pair : ∀ first, pair? first c = none

theorem separates_newline : Separates '\n' :=
  ⟨not_isWordPart_newline, next?_newline, by decide, pair?_newline⟩

/-- Behind text that could be the end, such a character stands between two tokens. -/
theorem push_of_finish (hc : Separates c) (h : s.finish = .ok tokens)
    (hcomment : s.piece ≠ .comment) : s.push c = start ⟨tokens.reverse, .none⟩ c := by
  have hemit (reversed : List Token) (hr : reversed.reverse = tokens) (piece : Piece) :
      start ⟨reversed, piece⟩ c = start ⟨tokens.reverse, .none⟩ c := by
    rw [← hr, List.reverse_reverse]
    rfl
  have hbind (x : Except Malformed Scanner) (hx : x.map (·.reversed.reverse) = .ok tokens) :
      x.bind (·.start c) = start ⟨tokens.reverse, .none⟩ c := by
    cases x with
    | error cause => cases hx
    | ok s₁ => exact hemit s₁.reversed (Except.ok.inj hx) s₁.piece
  obtain ⟨reversed, piece⟩ := s
  unfold push
  unfold finish at h
  cases piece with
  | none => exact hemit reversed (Except.ok.inj h) .none
  | comment => exact absurd rfl hcomment
  | word chars =>
    simp only [hc.word, Bool.false_eq_true, if_false]
    exact hemit _ (Except.ok.inj h) .none
  | numeral part chars =>
    have hstray : ¬ (Unicode.isAlphabetic c ∨ c = '_') := by
      have hword := hc.word
      simp only [isWordPart, Bool.or_eq_false_iff, beq_eq_false_iff_ne] at hword
      simp [hword]
    simp only [hc.numeral, if_neg hstray]
    exact hbind _ h
  | slash =>
    rw [if_neg hc.slash]
    exact hemit _ (Except.ok.inj h) .none
  | symbol first =>
    simp only [hc.pair]
    exact hbind _ h
  | _ => cases h

/-- Behind text that could be the end, a line break only ends the last token. -/
theorem push_newline_of_finish (h : s.finish = .ok tokens) :
    s.push '\n' = .ok ⟨tokens.reverse, .none⟩ := by
  by_cases hcomment : s.piece = .comment
  · obtain ⟨reversed, piece⟩ := s
    cases hcomment
    rw [← Except.ok.inj h, List.reverse_reverse]
    rfl
  · rw [push_of_finish separates_newline h hcomment]
    exact start_newline _

/-- Any other line break leaves a string open, in which it was escaped, or a code point that can
have no value. -/
theorem push_newline (h : s.push '\n' = .ok s') :
    s'.piece = .none ∨ (∃ quote chars, s'.piece = .string quote chars) ∨ s'.piece.Spoiled := by
  have hstart {s : Scanner} (hs : s.start '\n' = .ok s') : s'.piece = .none := by
    rw [start_newline] at hs
    cases hs
    rfl
  have hbind {x : Except Malformed Scanner} (hx : x.bind (·.start '\n') = .ok s') :
      s'.piece = .none := by
    obtain ⟨s₁, -, hs₁⟩ := exists_of_bind hx
    exact hstart hs₁
  obtain ⟨reversed, piece⟩ := s
  unfold push at h
  cases piece with
  | none => exact .inl (hstart h)
  | word chars =>
    simp only [not_isWordPart_newline, Bool.false_eq_true, if_false] at h
    exact .inl (hstart h)
  | numeral part chars =>
    simp only [next?_newline] at h
    split at h
    · cases h
    · exact .inl (hbind h)
  | string quote chars =>
    simp only at h
    split_ifs at h
    cases h
    exact .inl rfl
  | escape quote chars =>
    rw [if_neg (by decide)] at h
    cases h
    exact .inr (.inl ⟨quote, _, rfl⟩)
  | codePoint quote chars digits =>
    simp only at h
    split at h
    · cases h
      exact .inr (.inr (List.mem_cons_self))
    · rw [codePoint?_eq_none (List.mem_reverse.2 List.mem_cons_self)] at h
      cases h
  | slash =>
    rw [if_neg (by decide)] at h
    exact .inl (hstart h)
  | comment =>
    cases h
    exact .inl rfl
  | symbol first =>
    simp only [pair?_newline] at h
    exact .inl (hbind h)

theorem push_spoiled (hs : s.piece.Spoiled) (h : s.push c = .ok s') : s'.piece.Spoiled := by
  obtain ⟨reversed, piece⟩ := s
  cases piece with
  | codePoint quote chars digits =>
    have hmem : '\n' ∈ c :: digits := List.mem_cons_of_mem c hs
    unfold push at h
    simp only [codePoint?_eq_none (List.mem_reverse.2 hmem)] at h
    split at h
    · cases h
      exact hmem
    · cases h
  | _ => exact hs.elim

theorem push_inString (hs : s.piece.InString) (h : s.push c = .ok s') :
    (s'.piece.InString ∧ s'.reversed = s.reversed) ∨
      ∃ y, s'.reversed = .string y :: s.reversed := by
  obtain ⟨reversed, piece⟩ := s
  unfold push at h
  cases piece with
  | string quote chars =>
    simp only at h
    split_ifs at h
    · cases h
      exact .inr ⟨_, rfl⟩
    · cases h
      exact .inl ⟨trivial, rfl⟩
    · cases h
      exact .inl ⟨trivial, rfl⟩
  | escape quote chars =>
    simp only at h
    split_ifs at h
    · cases h
      exact .inl ⟨trivial, rfl⟩
    · cases h
      exact .inl ⟨trivial, rfl⟩
  | codePoint quote chars digits =>
    simp only at h
    split at h
    · cases h
      exact .inl ⟨trivial, rfl⟩
    · split at h
      · cases h
        exact .inl ⟨trivial, rfl⟩
      · cases h
  | _ => exact hs.elim

theorem foldlM_push_spoiled (text : List Char) (hs : s.piece.Spoiled)
    (h : text.foldlM push s = .ok s') : s'.piece.Spoiled := by
  induction text generalizing s with
  | nil =>
    cases h
    exact hs
  | cons c rest ih =>
    obtain ⟨next, hpush, hrest⟩ := exists_of_foldlM_cons h
    exact ih (push_spoiled hs hpush) hrest

theorem foldlM_push_inString (text : List Char) (hs : s.piece.InString)
    (h : text.foldlM push s = .ok s') :
    s'.piece.InString ∨ ∃ y, .string y :: s.reversed <:+ s'.reversed := by
  induction text generalizing s with
  | nil =>
    cases h
    exact .inl hs
  | cons c rest ih =>
    obtain ⟨next, hpush, hrest⟩ := exists_of_foldlM_cons h
    rcases push_inString hs hpush with ⟨hnext, hsame⟩ | ⟨y, hy⟩
    · rw [← hsame]
      exact ih hnext hrest
    · right
      refine ⟨y, ?_⟩
      rw [← hy]
      exact (foldlM_push_grows rest hrest).suffix

theorem finish_inString (hs : s.piece.InString) : s.finish ≠ .ok tokens := by
  obtain ⟨reversed, piece⟩ := s
  cases piece with
  | string quote chars => exact fun h => by cases h
  | escape quote chars => exact fun h => by cases h
  | codePoint quote chars digits => exact fun h => by cases h
  | _ => exact hs.elim

def singles : List Char :=
  ['(', ')', '[', ']', '\x7b', '\x7d', ',', ':', ';', '.', '+', '-', '*', '%']

theorem mem_singles {symbol : Symbol} (h : single? c = some symbol) : c ∈ singles := by
  by_cases hmem : c ∈ singles
  · exact hmem
  · simp only [singles, List.mem_cons, List.not_mem_nil, or_false, not_or] at hmem
    simp only [single?, hmem, if_false, reduceCtorEq] at h

theorem start_single {symbol : Symbol} (h : single? c = some symbol) (s : Scanner) :
    s.start c = .ok (s.emit (.symbol symbol)) := by
  have hall : singles.all (fun c => !(Unicode.isWhiteSpace c || c.isDigit || isWordStart c ||
      isPairStart c || c == '"' || c == '\'' || c == '/')) = true := by
    decide +kernel
  have hplain := List.all_eq_true.1 hall c (mem_singles h)
  simp only [Bool.not_eq_true', Bool.or_eq_false_iff, beq_eq_false_iff_ne] at hplain
  obtain ⟨⟨⟨⟨⟨⟨hspace, hdigit⟩, hword⟩, hpair⟩, hdouble⟩, hsingle⟩, hslash⟩ := hplain
  simp only [start, hspace, hdigit, hword, hpair, hdouble, hsingle, hslash, h, or_self,
    Bool.false_eq_true, if_false]

end Scanner

section Scan
variable {front back : List Char} {s : Scanner} {tokens : List Token}

theorem foldlM_of_scan_append (hfront : front.foldlM Scanner.push {} = .ok s)
    (h : Token.scan (front ++ back) = .ok tokens) :
    ∃ s', back.foldlM Scanner.push s = .ok s' ∧ s'.finish = .ok tokens := by
  rw [Token.scan_append, hfront] at h
  exact exists_of_bind h

theorem scan_append_of_foldlM {s' : Scanner} (hfront : front.foldlM Scanner.push {} = .ok s)
    (hback : back.foldlM Scanner.push s = .ok s') :
    Token.scan (front ++ back) = s'.finish := by
  rw [Token.scan_append, hfront]
  exact congrArg (Except.bind · Scanner.finish) hback

theorem prefix_of_scan_append (hfront : front.foldlM Scanner.push {} = .ok s)
    (h : Token.scan (front ++ back) = .ok tokens) : s.reversed.reverse <+: tokens := by
  obtain ⟨s', hback, hfinish⟩ := foldlM_of_scan_append hfront h
  exact (List.reverse_prefix.2 (Scanner.foldlM_push_grows back hback).suffix).trans
    (Scanner.tokens_of_finish hfinish)

theorem written_of_scan {text : List Char} (h : Token.scan text = .ok tokens) :
    ∀ t ∈ tokens, t.Written := by
  obtain ⟨s, hfold, hfinish⟩ := exists_of_bind h
  obtain ⟨new, hnew, heq⟩ :=
    (Scanner.foldlM_push_grows text hfold).trans (Scanner.finish_grows hfinish)
  intro t ht
  refine hnew t ?_
  have hmem := List.mem_reverse.2 ht
  dsimp only at heq
  rwa [heq, List.append_nil] at hmem

theorem string_of_scan_append (hfront : front.foldlM Scanner.push {} = .ok s)
    (hs : s.piece.InString) (h : Token.scan (front ++ back) = .ok tokens) :
    ∃ y, s.reversed.reverse ++ [.string y] <+: tokens := by
  obtain ⟨s', hback, hfinish⟩ := foldlM_of_scan_append hfront h
  rcases Scanner.foldlM_push_inString back hs hback with hopen | ⟨y, hy⟩
  · exact absurd hfinish (Scanner.finish_inString hopen)
  · refine ⟨y, ?_⟩
    rw [← List.reverse_cons]
    exact (List.reverse_prefix.2 hy).trans (Scanner.tokens_of_finish hfinish)

theorem scan_append_ne_ok (hfront : front.foldlM Scanner.push {} = .ok s)
    (hs : s.piece.Spoiled) : Token.scan (front ++ back) ≠ .ok tokens := by
  intro h
  obtain ⟨s', hback, hfinish⟩ := foldlM_of_scan_append hfront h
  exact Scanner.finish_inString (Scanner.foldlM_push_spoiled back hs hback).inString hfinish

/-- One line break more, and all tokens of a text are complete. -/
theorem foldlM_newline_of_scan (h : Token.scan front = .ok tokens) :
    (front ++ ['\n']).foldlM Scanner.push {} = .ok ⟨tokens.reverse, .none⟩ := by
  obtain ⟨s, hfront, hfinish⟩ := exists_of_bind h
  rw [List.foldlM_append, hfront]
  exact (foldlM_singleton _).trans (Scanner.push_newline_of_finish hfinish)

theorem scan_append_single {c : Char} {symbol : Symbol} (h : Token.scan front = .ok tokens)
    (hc : single? c = some symbol) :
    Token.scan (front ++ ['\n', c]) = .ok (tokens ++ [.symbol symbol]) := by
  have hpush : [c].foldlM Scanner.push ⟨tokens.reverse, .none⟩ =
      .ok ⟨.symbol symbol :: tokens.reverse, .none⟩ :=
    (foldlM_singleton c).trans (Scanner.start_single hc _)
  rw [List.append_cons]
  refine (scan_append_of_foldlM (foldlM_newline_of_scan h) hpush).trans ?_
  simp only [Scanner.finish, List.reverse_cons, List.reverse_reverse]

end Scan

end PromptLoop.Script
