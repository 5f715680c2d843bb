import PromptLoop.Proofs.Script.Scanning

set_option autoImplicit false

namespace PromptLoop.Script

namespace Scanner
variable {s : Scanner} {c : Char} {earlier : List Token}

def behind (s : Scanner) (earlier : List Token) : Scanner :=
  ⟨s.reversed ++ earlier, s.piece⟩

theorem start_behind (s : Scanner) (earlier : List Token) (c : Char) :
    (s.behind earlier).start c = (s.start c).map (·.behind earlier) := by
  unfold start
  split_ifs
  case neg => split <;> rfl
  all_goals rfl

theorem endNumeral_behind (s : Scanner) (earlier : List Token) (reversed : List Char) :
    (s.behind earlier).endNumeral reversed = (s.endNumeral reversed).map (·.behind earlier) := by
  unfold endNumeral
  split <;> rfl

theorem endSymbol_behind (s : Scanner) (earlier : List Token) (first : Char) :
    (s.behind earlier).endSymbol first = (s.endSymbol first).map (·.behind earlier) := by
  unfold endSymbol
  split <;> rfl

theorem bind_start_behind (x : Except Malformed Scanner) (earlier : List Token) (c : Char) :
    (x.map (·.behind earlier)).bind (·.start c) =
      (x.bind (·.start c)).map (·.behind earlier) := by
  cases x with
  | error cause => rfl
  | ok s => exact start_behind s earlier c

theorem push_behind (s : Scanner) (earlier : List Token) (c : Char) :
    (s.behind earlier).push c = (s.push c).map (·.behind earlier) := by
  obtain ⟨reversed, piece⟩ := s
  cases piece with
  | none => exact start_behind _ earlier c
  | word chars =>
    simp only [push, behind]
    split
    · rfl
    · exact start_behind (emit ⟨reversed, .word chars⟩ _) earlier c
  | numeral part chars =>
    simp only [push, behind]
    split
    · rfl
    · split
      · rfl
      · have hend := endNumeral_behind ⟨reversed, .numeral part chars⟩ earlier chars
        exact (congrArg (Except.bind · _) hend).trans (bind_start_behind _ earlier c)
  | string quote chars =>
    simp only [push, behind]
    split_ifs <;> rfl
  | escape quote chars =>
    simp only [push, behind]
    split_ifs <;> rfl
  | codePoint quote chars digits =>
    simp only [push, behind]
    split
    · rfl
    · split <;> rfl
  | slash =>
    simp only [push, behind]
    split
    · rfl
    · exact start_behind (emit ⟨reversed, .slash⟩ _) earlier c
  | comment =>
    simp only [push, behind]
    split <;> rfl
  | symbol first =>
    simp only [push, behind]
    split
    · rfl
    · have hend := endSymbol_behind ⟨reversed, .symbol first⟩ earlier first
      exact (congrArg (Except.bind · _) hend).trans (bind_start_behind _ earlier c)

theorem foldlM_push_behind (text : List Char) (s : Scanner) (earlier : List Token) :
    text.foldlM push (s.behind earlier) = (text.foldlM push s).map (·.behind earlier) := by
  induction text generalizing s with
  | nil => rfl
  | cons c rest ih =>
    rw [List.foldlM_cons, List.foldlM_cons, push_behind]
    cases s.push c with
    | error cause => rfl
    | ok next => exact ih next

theorem finish_behind (s : Scanner) (earlier : List Token) :
    (s.behind earlier).finish = s.finish.map (earlier.reverse ++ ·) := by
  have hreverse (reversed : List Token) :
      (reversed ++ earlier).reverse = earlier.reverse ++ reversed.reverse := List.reverse_append
  have hend (x : Except Malformed Scanner) :
      (x.map (·.behind earlier)).map (·.reversed.reverse) =
        (x.map (·.reversed.reverse)).map (earlier.reverse ++ ·) := by
    cases x with
    | error cause => rfl
    | ok s => exact congrArg Except.ok (hreverse s.reversed)
  obtain ⟨reversed, piece⟩ := s
  cases piece with
  | none => exact congrArg Except.ok (hreverse reversed)
  | comment => exact congrArg Except.ok (hreverse reversed)
  | word chars => exact congrArg Except.ok (hreverse (_ :: reversed))
  | slash => exact congrArg Except.ok (hreverse (_ :: reversed))
  | numeral part chars =>
    have hbehind := endNumeral_behind ⟨reversed, .numeral part chars⟩ earlier chars
    exact (congrArg (Except.map _) hbehind).trans (hend _)
  | symbol first =>
    have hbehind := endSymbol_behind ⟨reversed, .symbol first⟩ earlier first
    exact (congrArg (Except.map _) hbehind).trans (hend _)
  | _ => rfl

end Scanner

theorem scan_between (tokens : List Token) (back : List Char) :
    (back.foldlM Scanner.push ⟨tokens.reverse, .none⟩).bind Scanner.finish =
      (Token.scan back).map (tokens ++ ·) := by
  change (back.foldlM Scanner.push (Scanner.behind {} tokens.reverse)).bind _ = _
  unfold Token.scan
  rw [Scanner.foldlM_push_behind]
  cases back.foldlM Scanner.push {} with
  | error cause => rfl
  | ok next =>
    refine (Scanner.finish_behind next _).trans ?_
    rw [List.reverse_reverse]
    rfl

/-- A text that leaves the scanner between two tokens can be scanned apart from what follows. -/
theorem scan_append_of_between {front : List Char} {tokens : List Token}
    (h : front.foldlM Scanner.push {} = .ok ⟨tokens.reverse, .none⟩) (back : List Char) :
    Token.scan (front ++ back) = (Token.scan back).map (tokens ++ ·) := by
  rw [Token.scan_append, h]
  exact scan_between tokens back

theorem foldlM_of_scan_line {body : List Char} {tokens : List Token}
    (h : Token.scan (body ++ ['\n']) = .ok tokens) :
    (body ++ ['\n']).foldlM Scanner.push {} = .ok ⟨tokens.reverse, .none⟩ := by
  obtain ⟨⟨reversed, piece⟩, hfold, hfinish⟩ := exists_of_bind h
  obtain ⟨s, -, hlast⟩ := exists_of_foldlM_append hfold
  rw [foldlM_singleton] at hlast
  rw [hfold]
  -- What is left of the last line is a string at most, and a text that ends in one has no tokens.
  rcases Scanner.push_newline hlast with hnone | ⟨quote, chars, hstring⟩ | hspoiled
  · cases hnone
    cases hfinish
    rw [List.reverse_reverse]
  · cases hstring
    cases hfinish
  · exact absurd hfinish (Scanner.finish_inString hspoiled.inString)

theorem scan_append_line {body back : List Char} {tokens : List Token}
    (h : Token.scan (body ++ ['\n']) = .ok tokens) :
    Token.scan (body ++ ['\n'] ++ back) = (Token.scan back).map (tokens ++ ·) :=
  scan_append_of_between (foldlM_of_scan_line h) back

/-- Lines that can be scanned keep their tokens whatever is typed behind them. Nothing in them is
still open, and only the text behind them decides whether the whole can be scanned. -/
theorem lines_scanned_for_good {front : List Char} {tokens : List Token}
    (hline : front.getLast? = some '\n') (h : Token.scan front = .ok tokens) :
    front.foldlM Scanner.push {} = .ok ⟨tokens.reverse, .none⟩ ∧
      ∀ back, Token.scan (front ++ back) = (Token.scan back).map (tokens ++ ·) := by
  obtain ⟨body, rfl⟩ := List.getLast?_eq_some_iff.1 hline
  have hbetween := foldlM_of_scan_line h
  exact ⟨hbetween, scan_append_of_between hbetween⟩

theorem line_with_comment_scanned :
    ['a', '/', '/', '"', '\n'].getLast? = some '\n' ∧
      Token.scan ['a', '/', '/', '"', '\n'] = .ok [.word "a"] ∧
      Token.scan (['a', '/', '/', '"', '\n'] ++ ['"', '"']) = .ok [.word "a", .string ""] ∧
      Token.scan (['a', '/', '/', '"', '\n'] ++ ['"']) = .error .strayCharacter := by
  have hscan : Token.scan ['a', '/', '/', '"', '\n'] = .ok [.word "a"] := rfl
  obtain ⟨-, hmore⟩ := lines_scanned_for_good rfl hscan
  exact ⟨rfl, hscan, (hmore ['"', '"']).trans rfl, (hmore ['"']).trans rfl⟩

end PromptLoop.Script
