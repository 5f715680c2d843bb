import Mathlib.Data.List.Forall2
import Mathlib.Data.List.Induction
import PromptLoop.Proofs.Script.LineBreaks

set_option autoImplicit false

namespace PromptLoop

inductive Hex.Writes : List Char → Nat → Prop where
  | nil : Writes [] 0
  | digit {ds : List Char} {n v : Nat} {d : Char} (h : Writes ds n) (hd : value? d = some v) :
      Writes (ds ++ [d]) (n * 16 + v)

namespace Script

/-- The spellings of a character between quotation marks. -/
inductive StringItem (quote : Char) : List Char → Char → Prop where
  | plain {c : Char} (hq : c ≠ quote) (hn : c ≠ '\n') (hb : c ≠ '\\') : StringItem quote [c] c
  | lineFeed : StringItem quote ['\\', 'n'] '\n'
  | tab : StringItem quote ['\\', 't'] '\t'
  | carriageReturn : StringItem quote ['\\', 'r'] '\r'
  | null : StringItem quote ['\\', '0'] '\x00'
  | codePoint {ds : List Char} {c : Char} (hl : ds.length = 4) (hw : Hex.Writes ds c.toNat) :
      StringItem quote ('\\' :: 'u' :: ds) c
  | other {c : Char} (hc : c ∉ ['n', 't', 'r', '0', 'u']) : StringItem quote ['\\', c] c

/-- The spellings that the scanner knows. -/
inductive ScannedItem (quote : Char) : List Char → Char → Prop where
  | grammar {part : List Char} {c : Char} (h : StringItem quote part c) : ScannedItem quote part c
  | signed {ds : List Char} {c : Char} (hl : ds.length = 3) (hw : Hex.Writes ds c.toNat) :
      ScannedItem quote ('\\' :: 'u' :: '+' :: ds) c

/-- The text behind an opening quotation mark consists of the parts, each spelling its character as
`item` tells, the closing mark, and what stands behind it. -/
structure StringLiteral (item : List Char → Char → Prop) (quote : Char) (text : List Char)
    (parts : List (List Char)) (content back : List Char) : Prop where
  items : List.Forall₂ item parts content
  text_eq : text = parts.flatten ++ quote :: back

end Script

theorem Hex.number?_concat (ds : List Char) (d : Char) :
    number? (ds ++ [d]) = (number? ds).bind fun n => (value? d).map (n * 16 + ·) := by
  unfold number?
  rw [List.foldlM_append]
  cases ds.foldlM (fun n c => (value? c).map (n * 16 + ·)) 0 with
  | none => rfl
  | some n => simp

theorem Hex.number?_eq_some_iff {ds : List Char} {n : Nat} :
    number? ds = some n ↔ Writes ds n := by
  constructor
  · intro h
    induction ds using List.reverseRec generalizing n with
    | nil =>
      cases h
      exact .nil
    | append_singleton ds d ih =>
      rw [number?_concat] at h
      obtain ⟨m, hm, hn⟩ := Option.bind_eq_some_iff.1 h
      obtain ⟨v, hv, rfl⟩ := Option.map_eq_some_iff.1 hn
      exact .digit (ih hm) hv
  · intro h
    induction h with
    | nil => rfl
    | digit _ hd ih => rw [number?_concat, ih, hd]; rfl

theorem Hex.not_writes_sign (rest : List Char) (n : Nat) : ¬ Writes ('+' :: rest) n := by
  intro h
  have hnone : number? ('+' :: rest) = none := rfl
  rw [number?_eq_some_iff.2 h] at hnone
  cases hnone

namespace Script

theorem character?_eq_some_iff {n? : Option Nat} {c : Char} :
    (match n? with
      | some n => if n.isValidChar then some (Char.ofNat n) else none
      | none => none) = some c ↔ n? = some c.toNat := by
  constructor
  · intro h
    split at h
    · rename_i n
      split at h
      · rename_i hvalid
        cases h
        rw [Char.ofNat, dif_pos hvalid]
        rfl
      · cases h
    · cases h
  · rintro rfl
    have hvalid : c.toNat.isValidChar := c.valid
    simp [hvalid]

theorem codePoint?_eq_some_iff {ds : List Char} {c : Char} :
    codePoint? ds = some c ↔
      Hex.Writes ds c.toNat ∨ ∃ rest, ds = '+' :: rest ∧ Hex.Writes rest c.toNat := by
  unfold codePoint?
  split
  · rename_i rest
    refine (character?_eq_some_iff.trans Hex.number?_eq_some_iff).trans ?_
    constructor
    · exact fun h => .inr ⟨rest, rfl, h⟩
    · rintro (h | ⟨rest', heq, h⟩)
      · exact absurd h (Hex.not_writes_sign rest _)
      · cases heq
        exact h
  · rename_i hplain
    refine (character?_eq_some_iff.trans Hex.number?_eq_some_iff).trans ?_
    constructor
    · exact .inl
    · rintro (h | ⟨rest, rfl, -⟩)
      · exact h
      · exact absurd rfl (hplain rest)

namespace Scanner
variable {quote c : Char} {part : List Char}

theorem push_backslash (hq : quote ≠ '\\') (reversed : List Token) (chars : List Char) :
    push ⟨reversed, .string quote chars⟩ '\\' = .ok ⟨reversed, .escape quote chars⟩ := by
  simp only [push, hq.symm, if_false, if_true, Char.reduceEq]

theorem foldlM_escaped_char (hq : quote ≠ '\\') (hc : c ≠ 'u') (reversed : List Token)
    (chars : List Char) : ['\\', c].foldlM push ⟨reversed, .string quote chars⟩ =
      .ok ⟨reversed, .string quote (escaped c :: chars)⟩ := by
  rw [foldlM_cons_of_ok (push_backslash hq reversed chars), foldlM_singleton]
  exact if_neg hc

theorem foldlM_codePoint (hq : quote ≠ '\\') {ds : List Char} (hl : ds.length = 4)
    (reversed : List Token) (chars : List Char) :
    ('\\' :: 'u' :: ds).foldlM push ⟨reversed, .string quote chars⟩ =
      match codePoint? ds with
      | some c => .ok ⟨reversed, .string quote (c :: chars)⟩
      | none => .error .escape := by
  match ds, hl with
  | [d₁, d₂, d₃, d₄], _ =>
    have hfront : ['u', d₁, d₂, d₃].foldlM push ⟨reversed, .escape quote chars⟩ =
        .ok ⟨reversed, .codePoint quote chars [d₃, d₂, d₁]⟩ := rfl
    rw [foldlM_cons_of_ok (push_backslash hq reversed chars)]
    change (['u', d₁, d₂, d₃] ++ [d₄]).foldlM push _ = _
    rw [foldlM_append_of_ok hfront]
    exact foldlM_singleton d₄

theorem foldlM_item (hq : quote ≠ '\\') (h : ScannedItem quote part c) (reversed : List Token)
    (chars : List Char) : part.foldlM push ⟨reversed, .string quote chars⟩ =
      .ok ⟨reversed, .string quote (c :: chars)⟩ := by
  have hpoint {ds : List Char} (hl : ds.length = 4) (hds : codePoint? ds = some c) :
      ('\\' :: 'u' :: ds).foldlM push ⟨reversed, .string quote chars⟩ =
        .ok ⟨reversed, .string quote (c :: chars)⟩ := by
    rw [foldlM_codePoint hq hl, hds]
  cases h with
  | signed hl hw =>
    exact hpoint (congrArg Nat.succ hl) (codePoint?_eq_some_iff.2 (.inr ⟨_, rfl, hw⟩))
  | grammar h =>
    cases h with
    | plain hquote hnewline hback =>
      rw [foldlM_singleton]
      simp only [push, hquote, hnewline, hback, if_false]
    | codePoint hl hw => exact hpoint hl (codePoint?_eq_some_iff.2 (.inl hw))
    | other hc =>
      simp only [List.mem_cons, List.not_mem_nil, or_false, not_or] at hc
      obtain ⟨hn, ht, hr, hz, hu⟩ := hc
      have hself : escaped c = c := by
        simp only [escaped, hn, ht, hr, hz, if_false]
      simpa only [hself] using foldlM_escaped_char hq hu reversed chars
    | lineFeed => exact foldlM_escaped_char hq (c := 'n') (by decide) reversed chars
    | tab => exact foldlM_escaped_char hq (c := 't') (by decide) reversed chars
    | carriageReturn => exact foldlM_escaped_char hq (c := 'r') (by decide) reversed chars
    | null => exact foldlM_escaped_char hq (c := '0') (by decide) reversed chars

theorem foldlM_items (hq : quote ≠ '\\') {parts : List (List Char)} {content : List Char}
    (h : List.Forall₂ (ScannedItem quote) parts content) (reversed : List Token)
    (chars : List Char) : parts.flatten.foldlM push ⟨reversed, .string quote chars⟩ =
      .ok ⟨reversed, .string quote (content.reverse ++ chars)⟩ := by
  induction h generalizing chars with
  | nil => rfl
  | @cons part c parts content hitem _ ih =>
    rw [List.flatten_cons, foldlM_append_of_ok (foldlM_item hq hitem reversed chars), ih,
      List.reverse_cons, List.append_assoc]
    rfl

end Scanner

section Literals
variable {quote c : Char} {part text back : List Char} {parts : List (List Char)}
  {content : List Char}

theorem foldlM_literal (hq : quote ≠ '\\')
    (h : StringLiteral (ScannedItem quote) quote text parts content back) (reversed : List Token) :
    text.foldlM Scanner.push ⟨reversed, .string quote []⟩ =
      back.foldlM Scanner.push ⟨.string (String.ofList content) :: reversed, .none⟩ := by
  have hclose : Scanner.push ⟨reversed, .string quote content.reverse⟩ quote =
      .ok ⟨.string (String.ofList content) :: reversed, .none⟩ := by
    simp [Scanner.push, Scanner.emit]
  have hitems := Scanner.foldlM_items hq h.items reversed []
  rw [List.append_nil] at hitems
  rw [h.text_eq, foldlM_append_of_ok hitems, foldlM_cons_of_ok hclose]

theorem stringItem_escaped (quote : Char) {c : Char} (hc : c ≠ 'u') :
    StringItem quote ['\\', c] (escaped c) := by
  unfold escaped
  split_ifs with hn ht hr hz
  · exact hn ▸ .lineFeed
  · exact ht ▸ .tab
  · exact hr ▸ .carriageReturn
  · exact hz ▸ .null
  · exact .other (by simp [hn, ht, hr, hz, hc])

def Stops (quote : Char) (text : List Char) : Prop :=
  ∀ reversed chars, ∃ cause,
    (text.foldlM Scanner.push ⟨reversed, .string quote chars⟩).bind Scanner.finish = .error cause

theorem stops_of_error {front : List Char} {cause : Malformed}
    (h : ∀ reversed chars,
      front.foldlM Scanner.push ⟨reversed, .string quote chars⟩ = .error cause) :
    Stops quote (front ++ back) := by
  intro reversed chars
  rw [List.foldlM_append, h reversed chars]
  exact ⟨cause, rfl⟩

theorem stops_newline (hq : quote ≠ '\n') (rest : List Char) : Stops quote ('\n' :: rest) := by
  have hfail (reversed : List Token) (chars : List Char) :
      ['\n'].foldlM Scanner.push ⟨reversed, .string quote chars⟩ = .error .strayCharacter := by
    rw [foldlM_singleton]
    simp only [Scanner.push, hq.symm, if_false, if_true]
  exact stops_of_error hfail

theorem codePoint_or_stops (hq : quote ≠ '\\') (text : List Char) :
    (∃ part c rest, '\\' :: 'u' :: text = part ++ rest ∧ ScannedItem quote part c) ∨
      Stops quote ('\\' :: 'u' :: text) := by
  match text with
  | d₁ :: d₂ :: d₃ :: d₄ :: rest =>
    have hl : [d₁, d₂, d₃, d₄].length = 4 := rfl
    have hread := Scanner.foldlM_codePoint hq hl
    cases hpoint : codePoint? [d₁, d₂, d₃, d₄] with
    | some c =>
      left
      refine ⟨['\\', 'u', d₁, d₂, d₃, d₄], c, rest, rfl, ?_⟩
      rcases codePoint?_eq_some_iff.1 hpoint with hw | ⟨ds, heq, hw⟩
      · exact .grammar (.codePoint rfl hw)
      · cases heq
        exact .signed rfl hw
    | none =>
      rw [hpoint] at hread
      exact .inr (stops_of_error hread)
  -- Fewer than four characters are left.
  | [] | [_] | [_, _] | [_, _, _] =>
    right
    intro reversed chars
    rw [foldlM_cons_of_ok (Scanner.push_backslash hq reversed chars)]
    exact ⟨.escape, rfl⟩

theorem escape_or_stops (hq : quote ≠ '\\') (text : List Char) :
    (∃ part c rest, '\\' :: text = part ++ rest ∧ ScannedItem quote part c) ∨
      Stops quote ('\\' :: text) := by
  cases text with
  | nil =>
    right
    intro reversed chars
    rw [foldlM_singleton, Scanner.push_backslash hq]
    exact ⟨.strayCharacter, rfl⟩
  | cons e rest =>
    by_cases hu : e = 'u'
    · exact hu ▸ codePoint_or_stops hq rest
    · exact .inl ⟨['\\', e], _, rest, rfl, .grammar (stringItem_escaped quote hu)⟩

theorem item_or_stops (hq : quote ≠ '\\') (hn : quote ≠ '\n') (text : List Char) :
    (∃ back, text = quote :: back) ∨
      (∃ part c rest, text = part ++ rest ∧ ScannedItem quote part c) ∨ Stops quote text := by
  match text with
  | [] => exact .inr (.inr fun _ _ => ⟨.strayCharacter, rfl⟩)
  | c :: rest =>
    by_cases hquote : c = quote
    · exact .inl ⟨rest, hquote ▸ rfl⟩
    right
    by_cases hnewline : c = '\n'
    · exact .inr (hnewline ▸ stops_newline hn rest)
    by_cases hback : c = '\\'
    · exact hback ▸ escape_or_stops hq rest
    · exact .inl ⟨[c], c, rest, rfl, .grammar (.plain hquote hnewline hback)⟩

theorem ScannedItem.ne_nil (h : ScannedItem quote part c) : part ≠ [] := by
  cases h with
  | signed hl hw => exact List.cons_ne_nil _ _
  | grammar h => cases h <;> exact List.cons_ne_nil _ _

/-- Behind a quotation mark there is a literal, or no text that can be scanned. -/
theorem literal_or_stops (hq : quote ≠ '\\') (hn : quote ≠ '\n') (text : List Char) :
    (∃ parts content back, StringLiteral (ScannedItem quote) quote text parts content back) ∨
      Stops quote text := by
  induction hlength : text.length using Nat.strongRecOn generalizing text with
  | ind n ih =>
    rcases item_or_stops hq hn text with ⟨back, rfl⟩ | ⟨part, c, rest, rfl, hitem⟩ | hstops
    · exact .inl ⟨[], [], back, .nil, rfl⟩
    · have hpart : 0 < part.length := List.length_pos_iff.2 hitem.ne_nil
      have hshorter : rest.length < n := by
        rw [← hlength, List.length_append]
        omega
      rcases ih rest.length hshorter rest rfl with ⟨parts, content, back, hrest⟩ | hrest
      · left
        refine ⟨part :: parts, c :: content, back, .cons hitem hrest.items, ?_⟩
        rw [hrest.text_eq, List.flatten_cons, List.append_assoc]
      · right
        intro reversed chars
        rw [foldlM_append_of_ok (Scanner.foldlM_item hq hitem reversed chars)]
        exact hrest reversed (c :: chars)
    · exact .inr hstops

def itemWidth : List Char → Nat
  | '\\' :: 'u' :: _ => 6
  | '\\' :: _ => 2
  | _ => 1

theorem ScannedItem.length_eq (h : ScannedItem quote part c) (rest : List Char) :
    part.length = itemWidth (part ++ rest) := by
  cases h with
  | signed hl hw => simp [itemWidth, hl]
  | grammar h =>
    cases h with
    | plain hquote hnewline hback => simp [itemWidth, hback]
    | codePoint hl hw => simp [itemWidth, hl]
    | other hc =>
      simp only [List.mem_cons, List.not_mem_nil, or_false, not_or] at hc
      simp [itemWidth, hc]
    | _ => rfl

theorem ScannedItem.part_unique {part' rest rest' : List Char} {c' : Char}
    (h : ScannedItem quote part c) (h' : ScannedItem quote part' c')
    (heq : part ++ rest = part' ++ rest') : part = part' := by
  have hlength : part.length = part'.length := by
    rw [h.length_eq rest, h'.length_eq rest', heq]
  exact (List.append_inj heq hlength).1

theorem ScannedItem.char_unique {c' : Char} (hq : quote ≠ '\\') (h : ScannedItem quote part c)
    (h' : ScannedItem quote part c') : c = c' := by
  have hread := Scanner.foldlM_item hq h [] []
  rw [Scanner.foldlM_item hq h' [] []] at hread
  cases hread
  rfl

theorem ScannedItem.append_ne (hq : quote ≠ '\\') (h : ScannedItem quote part c)
    (rest back : List Char) : part ++ rest ≠ quote :: back := by
  intro heq
  cases h with
  | signed hl hw => exact hq.symm (List.cons.inj heq).1
  | grammar h =>
    cases h with
    | plain hquote hnewline hback => exact hquote (List.cons.inj heq).1
    | _ => exact hq.symm (List.cons.inj heq).1

theorem items_unique (hq : quote ≠ '\\') {parts' : List (List Char)} {content' back' : List Char}
    (h : List.Forall₂ (ScannedItem quote) parts content)
    (h' : List.Forall₂ (ScannedItem quote) parts' content')
    (heq : parts.flatten ++ quote :: back = parts'.flatten ++ quote :: back') :
    parts = parts' ∧ content = content' ∧ back = back' := by
  induction h generalizing parts' content' with
  | nil =>
    cases h' with
    | nil => exact ⟨rfl, rfl, (List.cons.inj heq).2⟩
    | cons hitem' _ =>
      rw [List.flatten_cons, List.append_assoc] at heq
      exact absurd heq.symm (hitem'.append_ne hq _ _)
  | cons hitem hitems ih =>
    rw [List.flatten_cons, List.append_assoc] at heq
    cases h' with
    | nil => exact absurd heq (hitem.append_ne hq _ _)
    | cons hitem' hitems' =>
      rw [List.flatten_cons, List.append_assoc] at heq
      cases hitem.part_unique hitem' heq
      cases hitem.char_unique hq hitem'
      obtain ⟨rfl, rfl, hback⟩ := ih hitems' (List.append_cancel_left heq)
      exact ⟨rfl, rfl, hback⟩

theorem StringLiteral.unique (hq : quote ≠ '\\') {parts' : List (List Char)}
    {content' back' : List Char}
    (h : StringLiteral (ScannedItem quote) quote text parts content back)
    (h' : StringLiteral (ScannedItem quote) quote text parts' content' back') :
    parts = parts' ∧ content = content' ∧ back = back' :=
  items_unique hq h.items h'.items (h.text_eq.symm.trans h'.text_eq)

theorem StringItem.not_signed (h : StringItem quote part c) : ¬ ['\\', 'u', '+'] <+: part := by
  rintro ⟨rest, heq⟩
  cases h with
  | codePoint hl hw =>
    cases heq
    exact Hex.not_writes_sign rest _ hw
  | _ => cases heq

theorem ScannedItem.grammar_iff (h : ScannedItem quote part c) :
    StringItem quote part c ↔ ¬ ['\\', 'u', '+'] <+: part := by
  refine ⟨StringItem.not_signed, fun hplain => ?_⟩
  cases h with
  | grammar h => exact h
  | signed hl hw => exact absurd ⟨_, rfl⟩ hplain

theorem items_grammar_iff (h : List.Forall₂ (ScannedItem quote) parts content) :
    List.Forall₂ (StringItem quote) parts content ↔
      ∀ part ∈ parts, ¬ ['\\', 'u', '+'] <+: part := by
  induction h with
  | nil => simp
  | cons hitem _ ih =>
    rw [List.forall₂_cons, hitem.grammar_iff, ih, List.forall_mem_cons]

/-- Without a sign in a code point, a literal is one of the grammar. -/
theorem StringLiteral.grammar_iff (hq : quote ≠ '\\')
    (h : StringLiteral (ScannedItem quote) quote text parts content back) :
    (∃ parts content back, StringLiteral (StringItem quote) quote text parts content back) ↔
      ∀ part ∈ parts, ¬ ['\\', 'u', '+'] <+: part := by
  rw [← items_grammar_iff h.items]
  constructor
  · rintro ⟨parts', content', back', h'⟩
    have hscanned : List.Forall₂ (ScannedItem quote) parts' content' :=
      h'.items.imp fun _ _ => .grammar
    obtain ⟨rfl, rfl, -⟩ := h.unique hq ⟨hscanned, h'.text_eq⟩
    exact h'.items
  · exact fun hitems => ⟨parts, content, back, hitems, h.text_eq⟩

/-- Behind the text, whose tokens are these, another token may begin. -/
def ReadyAfter (front : List Char) (earlier : List Token) : Prop :=
  ∃ s, front.foldlM Scanner.push {} = .ok s ∧ s.finish = .ok earlier ∧ s.piece ≠ .comment

theorem separates_quote (h : quote = '"' ∨ quote = '\'') : Scanner.Separates quote := by
  have hword : isWordPart '"' = false ∧ isWordPart '\'' = false := by decide +kernel
  have hnumeral (part : NumeralPart) : part.next? '"' = none ∧ part.next? '\'' = none := by
    cases part <;> decide
  have hpair (first : Char) : pair? first '"' = none ∧ pair? first '\'' = none := by
    simp [pair?]
  rcases h with rfl | rfl
  · exact ⟨hword.1, fun part => (hnumeral part).1, by decide, fun first => (hpair first).1⟩
  · exact ⟨hword.2, fun part => (hnumeral part).2, by decide, fun first => (hpair first).2⟩

theorem start_quote (h : quote = '"' ∨ quote = '\'') (s : Scanner) :
    s.start quote = .ok { s with piece := .string quote [] } := by
  have hspace : Unicode.isWhiteSpace '"' = false ∧ Unicode.isWhiteSpace '\'' = false := by
    decide +kernel
  rcases h with rfl | rfl
  · simp [Scanner.start, hspace.1]
  · simp [Scanner.start, hspace.2]

theorem ReadyAfter.opened {front : List Char} {earlier : List Token}
    (h : ReadyAfter front earlier) (hquote : quote = '"' ∨ quote = '\'') :
    (front ++ [quote]).foldlM Scanner.push {} = .ok ⟨earlier.reverse, .string quote []⟩ := by
  obtain ⟨s, hfold, hfinish, hcomment⟩ := h
  rw [foldlM_append_of_ok hfold, foldlM_singleton,
    Scanner.push_of_finish (separates_quote hquote) hfinish hcomment]
  exact start_quote hquote _

end Literals

section Scan
variable {front text back : List Char} {earlier : List Token} {quote : Char}
  {parts : List (List Char)} {content : List Char}

theorem quote_ne (h : quote = '"' ∨ quote = '\'') : quote ≠ '\\' ∧ quote ≠ '\n' := by
  rcases h with rfl | rfl <;> decide

theorem scan_behind_quote (hfront : ReadyAfter front earlier)
    (hquote : quote = '"' ∨ quote = '\'') (text : List Char) :
    Token.scan (front ++ quote :: text) =
      (text.foldlM Scanner.push ⟨earlier.reverse, .string quote []⟩).bind Scanner.finish := by
  rw [List.append_cons, Token.scan_append, hfront.opened hquote]
  rfl

/-- A literal is scanned as the string that it spells, and what is behind it on its own. -/
theorem scan_literal (hfront : ReadyAfter front earlier) (hquote : quote = '"' ∨ quote = '\'')
    (h : StringLiteral (ScannedItem quote) quote text parts content back) :
    Token.scan (front ++ quote :: text) =
      (Token.scan back).map (earlier ++ .string (String.ofList content) :: ·) := by
  have hbetween := scan_between (earlier ++ [.string (String.ofList content)]) back
  simp only [List.reverse_append, List.reverse_cons, List.reverse_nil, List.nil_append,
    List.cons_append, List.append_assoc] at hbetween
  rw [scan_behind_quote hfront hquote, foldlM_literal (quote_ne hquote).1 h, hbetween]

/-- Where a token may begin, a quotation mark begins a string just if a literal is behind it, and
then the token is what the literal spells; no other text can be scanned. The literals are those of
the grammar, but for a code point that is written with a sign. -/
theorem string_literals_scanned (hfront : ReadyAfter front earlier)
    (hquote : quote = '"' ∨ quote = '\'') (text : List Char) :
    (∀ tokens, Token.scan (front ++ quote :: text) = .ok tokens ↔
      ∃ parts content back later,
        StringLiteral (ScannedItem quote) quote text parts content back ∧
          Token.scan back = .ok later ∧
          tokens = earlier ++ .string (String.ofList content) :: later) ∧
    ((∃ parts content back, StringLiteral (ScannedItem quote) quote text parts content back) ∨
      ∃ cause, Token.scan (front ++ quote :: text) = .error cause) ∧
    ∀ parts content back, StringLiteral (ScannedItem quote) quote text parts content back →
      ((∃ parts content back, StringLiteral (StringItem quote) quote text parts content back) ↔
        ∀ part ∈ parts, ¬ ['\\', 'u', '+'] <+: part) := by
  obtain ⟨hq, hn⟩ := quote_ne hquote
  have hall : (∃ parts content back,
      StringLiteral (ScannedItem quote) quote text parts content back) ∨
        ∃ cause, Token.scan (front ++ quote :: text) = .error cause := by
    refine (literal_or_stops hq hn text).imp_right fun hstops => ?_
    rw [scan_behind_quote hfront hquote]
    exact hstops earlier.reverse []
  refine ⟨fun tokens => ⟨fun hscan => ?_, ?_⟩, hall, fun _ _ _ h => h.grammar_iff hq⟩
  · rcases hall with ⟨parts, content, back, hliteral⟩ | ⟨cause, hfail⟩
    · rw [scan_literal hfront hquote hliteral] at hscan
      cases hback : Token.scan back with
      | error cause =>
        rw [hback] at hscan
        cases hscan
      | ok later =>
        rw [hback] at hscan
        cases hscan
        exact ⟨parts, content, back, later, hliteral, hback, rfl⟩
    · rw [hfail] at hscan
      cases hscan
  · rintro ⟨parts, content, back, later, hliteral, hback, rfl⟩
    rw [scan_literal hfront hquote hliteral, hback]
    rfl

theorem escaped_quote_scanned :
    ReadyAfter ['x', '='] [.word "x", .symbol .assign] ∧ ('\'' = '"' ∨ '\'' = '\'') ∧
      Token.scan ['x', '=', '\'', '\\', '\'', '\\', 'u', '0', '0', '4', 'A', '\'', ';'] =
        .ok [.word "x", .symbol .assign, .string "'J", .symbol .semicolon] := by
  have hfront : ReadyAfter ['x', '='] [.word "x", .symbol .assign] :=
    ⟨⟨[.word "x"], .symbol '='⟩, rfl, rfl, by decide⟩
  have hquote : '\'' = '"' ∨ '\'' = '\'' := .inr rfl
  have hwrites : Hex.Writes ['0', '0', '4', 'A'] 'J'.toNat := Hex.number?_eq_some_iff.1 rfl
  have hitems : List.Forall₂ (ScannedItem '\'')
      [['\\', '\''], ['\\', 'u', '0', '0', '4', 'A']] ['\'', 'J'] :=
    .cons (.grammar (.other (by decide))) (.cons (.grammar (.codePoint rfl hwrites)) .nil)
  have hscan := (string_literals_scanned hfront hquote
    ['\\', '\'', '\\', 'u', '0', '0', '4', 'A', '\'', ';']).1
  exact ⟨hfront, hquote, (hscan _).2 ⟨_, _, [';'], _, ⟨hitems, rfl⟩, rfl, rfl⟩⟩

/-- A sign in the place of the first digit is not in the grammar, but the scanner takes it. -/
theorem signed_code_point_scanned :
    Token.scan ['"', '\\', 'u', '+', '0', '4', '1', '"'] = .ok [.string "A"] ∧
      ¬ ∃ parts content back,
        StringLiteral (StringItem '"') '"' ['\\', 'u', '+', '0', '4', '1', '"'] parts content
          back := by
  refine ⟨rfl, fun hgrammar => ?_⟩
  have hwrites : Hex.Writes ['0', '4', '1'] 'A'.toNat := Hex.number?_eq_some_iff.1 rfl
  have hliteral : StringLiteral (ScannedItem '"') '"' ['\\', 'u', '+', '0', '4', '1', '"']
      [['\\', 'u', '+', '0', '4', '1']] ['A'] [] :=
    ⟨.cons (.signed rfl hwrites) .nil, rfl⟩
  have hunsigned := (hliteral.grammar_iff (by decide)).1 hgrammar
  exact hunsigned _ List.mem_cons_self ⟨['0', '4', '1'], rfl⟩

end Scan
end Script
end PromptLoop
