import Mathlib.Data.List.TakeWhile
import PromptLoop.Proofs.Number.Exact
import PromptLoop.Proofs.Script.Scanning
import PromptLoop.Value.Display

set_option autoImplicit false

namespace PromptLoop

open Script

/-- The scanner takes the names of two control characters for letters. -/
def reread (c : Char) : Char :=
  if c = '\x08' then 'b' else if c = '\x0c' then 'f' else c

def rereadText (s : String) : String :=
  String.ofList (s.toList.map reread)

def LegibleText (s : String) : Prop :=
  '\x08' ∉ s.toList ∧ '\x0c' ∉ s.toList

instance (s : String) : Decidable (LegibleText s) :=
  inferInstanceAs (Decidable (_ ∧ _))

theorem rereadText_legible (s : String) : LegibleText (rereadText s) := by
  have hread (c : Char) : reread c ≠ '\x08' ∧ reread c ≠ '\x0c' := by
    unfold reread
    split_ifs with hb hf
    · decide
    · decide
    · exact ⟨hb, hf⟩
  unfold LegibleText rereadText
  rw [String.toList_ofList]
  refine ⟨fun h => ?_, fun h => ?_⟩ <;> obtain ⟨c, -, hc⟩ := List.mem_map.1 h
  · exact (hread c).1 hc
  · exact (hread c).2 hc

theorem rereadText_of_legible {s : String} (h : LegibleText s) : rereadText s = s := by
  have hsame : s.toList.map reread = s.toList := by
    refine (List.map_congr_left fun c hc => ?_).trans (List.map_id _)
    have hb : c ≠ '\x08' := fun heq => h.1 (heq ▸ hc)
    have hf : c ≠ '\x0c' := fun heq => h.2 (heq ▸ hc)
    simp only [reread, hb, hf, if_false, id_eq]
  rw [rereadText, hsame, String.ofList_toList]

namespace Number

def isNegative : Number → Bool
  | .integer n => n < 0
  | .real x => x.negative

def magnitude? : Number → Option Binary64
  | .integer n => Binary64.ofDecimal? n.natAbs 0
  | .real x => some (if x.negative then x.neg else x)

def tokens (n : Number) : List Token :=
  if n.isNegative then [.symbol .minus, .number n.magnitude?] else [.number n.magnitude?]

end Number

def keyToken (key : String) : Token :=
  if isWord key.toList then .word key else .string (rereadText key)

namespace Value

mutual

def tokens : Value → List Token
  | .null => [.word "null"]
  | .bool b => [.word (if b then "true" else "false")]
  | .number n => n.tokens
  | .string s => [.string (rereadText s)]
  | .array [] => [.symbol .openBracket, .symbol .closeBracket]
  | .array (item :: rest) =>
    .symbol .openBracket :: (tokens item ++ moreTokens rest ++ [.symbol .closeBracket])
  | .object [] => [.symbol .openBrace, .symbol .closeBrace]
  | .object (entry :: rest) =>
    .symbol .openBrace :: (entryTokens entry ++ moreEntryTokens rest ++ [.symbol .closeBrace])
termination_by structural v => v

def moreTokens : List Value → List Token
  | [] => []
  | item :: rest => .symbol .comma :: (tokens item ++ moreTokens rest)
termination_by structural items => items

def moreEntryTokens : List (String × Value) → List Token
  | [] => []
  | entry :: rest => .symbol .comma :: (entryTokens entry ++ moreEntryTokens rest)
termination_by structural entries => entries

def entryTokens : String × Value → List Token
  | (key, value) => keyToken key :: .symbol .colon :: tokens value
termination_by structural entry => entry

end

mutual

def Plain : Value → Prop
  | .null => True
  | .bool _ => True
  | .number (.integer n) => n.natAbs ≤ Number.maxExact
  | .number (.real _) => False
  | .string _ => True
  | .array items => PlainItems items
  | .object entries => (Bindings.names entries).Nodup ∧ PlainEntries entries
termination_by structural v => v

def PlainItems : List Value → Prop
  | [] => True
  | item :: rest => Plain item ∧ PlainItems rest
termination_by structural items => items

def PlainEntries : List (String × Value) → Prop
  | [] => True
  | entry :: rest => PlainEntry entry ∧ PlainEntries rest
termination_by structural entries => entries

def PlainEntry : String × Value → Prop
  | (_, value) => Plain value
termination_by structural entry => entry

end

end Value

namespace Script

/-- The scanner has these tokens if the text ends here, or if a comma, a blank or a colon comes. -/
structure Scanner.Completes (s : Scanner) (reversed : List Token) : Prop where
  finish : s.finish = .ok reversed.reverse
  push : ∀ c ∈ [',', ' ', ':'], s.push c = Scanner.start ⟨reversed, .none⟩ c

namespace Scanner
variable {s : Scanner} {reversed : List Token} {c : Char}

theorem completes_none (reversed : List Token) : Completes ⟨reversed, .none⟩ reversed :=
  ⟨rfl, fun _ _ => rfl⟩

theorem Completes.blank (h : s.Completes reversed) : s.push ' ' = .ok ⟨reversed, .none⟩ :=
  (h.push ' ' (by simp)).trans (if_pos (by decide +kernel))

theorem Completes.symbol (h : s.Completes reversed) {symbol : Symbol} (hc : c ∈ [',', ':'])
    (hs : single? c = some symbol) : s.push c = .ok ⟨.symbol symbol :: reversed, .none⟩ := by
  have hmem : c ∈ [',', ' ', ':'] := by
    simp only [List.mem_cons, List.not_mem_nil, or_false] at hc ⊢
    exact hc.imp_right .inr
  exact (h.push c hmem).trans (start_single hs _)

theorem not_isWordStart {c : Char} {low high : Nat}
    (h : (List.range (high + 1 - low)).all (fun k => !isWordStart (Char.ofNat (low + k))) = true)
    (hl : low ≤ c.toNat) (hh : c.toNat ≤ high) : isWordStart c = false := by
  have hmem : c.toNat - low ∈ List.range (high + 1 - low) := List.mem_range.2 (by omega)
  have hc := List.all_eq_true.1 h _ hmem
  rwa [Nat.add_sub_cancel' hl, Char.ofNat_toNat, Bool.not_eq_true'] at hc

theorem start_word (h : isWordStart c = true) (s : Scanner) :
    s.start c = .ok { s with piece := .word [c] } := by
  have hspace : Unicode.isWhiteSpace c = false := by
    refine Bool.eq_false_iff.2 fun hw => ?_
    obtain ⟨r, hr, hl, hh⟩ := Unicode.exists_range_of_inRanges hw
    have hall : ∀ r ∈ Unicode.whiteSpaceRanges, (List.range (r.2 + 1 - r.1)).all
        (fun k => !isWordStart (Char.ofNat (r.1 + k))) = true := by
      decide +kernel
    rw [not_isWordStart (hall r hr) hl hh] at h
    cases h
  have hdigit : c.isDigit = false := by
    refine Bool.eq_false_iff.2 fun hd => ?_
    have hbounds : 48 ≤ c.toNat ∧ c.toNat ≤ 57 := by
      simpa [Char.isDigit, UInt32.le_iff_toNat_le] using hd
    rw [not_isWordStart (by decide +kernel) hbounds.1 hbounds.2] at h
    cases h
  have hquote : ¬ (c = '"' ∨ c = '\'') := by
    rintro (rfl | rfl) <;> exact absurd h (by decide +kernel)
  simp only [start, hspace, hdigit, hquote, h, Bool.false_eq_true, if_false, if_true]

theorem foldlM_wordPart (rest chars : List Char) (reversed : List Token)
    (h : rest.all isWordPart = true) :
    rest.foldlM push ⟨reversed, .word chars⟩ = .ok ⟨reversed, .word (rest.reverse ++ chars)⟩ := by
  induction rest generalizing chars with
  | nil => rfl
  | cons c rest ih =>
    rw [List.all_cons, Bool.and_eq_true] at h
    have hpush : push ⟨reversed, .word chars⟩ c = .ok ⟨reversed, .word (c :: chars)⟩ := if_pos h.1
    rw [List.foldlM_cons, hpush, List.reverse_cons, List.append_assoc]
    exact ih (c :: chars) h.2

theorem completes_word (reversed : List Token) (chars : List Char) :
    Completes ⟨reversed, .word chars⟩ (.word (String.ofList chars.reverse) :: reversed) := by
  refine ⟨rfl, fun c hc => if_neg ?_⟩
  have hall : [',', ' ', ':'].all (fun c => !isWordPart c) = true := by decide +kernel
  simpa using List.all_eq_true.1 hall c hc

theorem foldlM_word {w : List Char} (h : isWord w = true) (reversed : List Token) :
    ∃ s, w.foldlM push ⟨reversed, .none⟩ = .ok s ∧
      s.Completes (.word (String.ofList w) :: reversed) := by
  cases w with
  | nil => cases h
  | cons c rest =>
    rw [isWord, Bool.and_eq_true] at h
    have hstart : push ⟨reversed, .none⟩ c = .ok ⟨reversed, .word [c]⟩ := start_word h.1 _
    have hcompletes := completes_word reversed (rest.reverse ++ [c])
    rw [← List.reverse_cons, List.reverse_reverse] at hcompletes
    refine ⟨_, ?_, hcompletes⟩
    rw [List.foldlM_cons, hstart, List.reverse_cons]
    exact foldlM_wordPart rest [c] reversed h.2

theorem literal?_digits {ds : List Char} (h : ∀ c ∈ ds, c.isDigit = true) :
    literal? ds = some (.number (Binary64.ofDecimal? (Numeral.natural ds) 0)) := by
  have hdigits : Numeral.digits ds = (ds, []) := by
    unfold Numeral.digits
    rw [List.takeWhile_eq_self_iff.2 h, List.dropWhile_eq_nil_iff.2 h]
  simp [literal?, hdigits]

theorem start_digit (h : c.isDigit = true) (s : Scanner) :
    s.start c = .ok { s with piece := .numeral .whole [c] } := by
  have hbounds : 48 ≤ c.toNat ∧ c.toNat ≤ 57 := by
    simpa [Char.isDigit, UInt32.le_iff_toNat_le] using h
  have hall : ∀ k < 10, Unicode.isWhiteSpace (Char.ofNat (48 + k)) = false := by decide +kernel
  have hspace := hall (c.toNat - 48) (by omega)
  rw [Nat.add_sub_cancel' hbounds.1, Char.ofNat_toNat] at hspace
  simp only [start, hspace, h, Bool.false_eq_true, if_false, if_true]

theorem foldlM_digits (rest chars : List Char) (reversed : List Token)
    (h : ∀ c ∈ rest, c.isDigit = true) :
    rest.foldlM push ⟨reversed, .numeral .whole chars⟩ =
      .ok ⟨reversed, .numeral .whole (rest.reverse ++ chars)⟩ := by
  induction rest generalizing chars with
  | nil => rfl
  | cons c rest ih =>
    obtain ⟨hc, hrest⟩ := List.forall_mem_cons.1 h
    have hnext : NumeralPart.whole.next? c = some .whole := if_pos hc
    have hpush : push ⟨reversed, .numeral .whole chars⟩ c =
        .ok ⟨reversed, .numeral .whole (c :: chars)⟩ := by
      simp only [push, hnext]
    rw [List.foldlM_cons, hpush, List.reverse_cons, List.append_assoc]
    exact ih (c :: chars) hrest

theorem completes_numeral {chars : List Char} {t : Token} (h : literal? chars.reverse = some t)
    (reversed : List Token) : Completes ⟨reversed, .numeral .whole chars⟩ (t :: reversed) := by
  have hend (s : Scanner) : s.endNumeral chars = .ok (s.emit t) := by
    simp only [endNumeral, h]
  refine ⟨?_, fun c hc => ?_⟩
  · simp only [finish, hend]
    rfl
  · have hall : [',', ' ', ':'].all (fun c => NumeralPart.whole.next? c == none &&
        !(Unicode.isAlphabetic c || c == '_')) = true := by decide +kernel
    have hplain := List.all_eq_true.1 hall c hc
    simp only [Bool.and_eq_true, beq_iff_eq, Bool.not_eq_true', Bool.or_eq_false_iff,
      beq_eq_false_iff_ne] at hplain
    obtain ⟨hnext, hletter, hline⟩ := hplain
    simp only [push, hnext, hletter, hline, hend, or_self, Bool.false_eq_true, if_false]
    rfl

theorem foldlM_natural (n : Nat) (reversed : List Token) :
    ∃ s, (Binary64.naturalDigits n).foldlM push ⟨reversed, .none⟩ = .ok s ∧
      s.Completes (.number (Binary64.ofDecimal? n 0) :: reversed) := by
  have hdigits : ∀ c ∈ Nat.toDigits 10 n, c.isDigit = true := fun c hc =>
    Nat.isDigit_of_mem_toDigits (by decide) (by decide) hc
  have hliteral := literal?_digits hdigits
  rw [Numeral.natural_toDigits] at hliteral
  unfold Binary64.naturalDigits
  cases hds : Nat.toDigits 10 n with
  | nil => exact absurd hds Nat.toDigits_ne_nil
  | cons c rest =>
    rw [hds] at hdigits hliteral
    obtain ⟨hc, hrest⟩ := List.forall_mem_cons.1 hdigits
    have hstart : push ⟨reversed, .none⟩ c = .ok ⟨reversed, .numeral .whole [c]⟩ :=
      start_digit hc _
    refine ⟨⟨reversed, .numeral .whole (rest.reverse ++ [c])⟩, ?_, completes_numeral ?_ reversed⟩
    · rw [List.foldlM_cons, hstart]
      exact foldlM_digits rest [c] reversed hrest
    · rwa [← List.reverse_cons, List.reverse_reverse]

theorem foldlM_integer (n : Int) (reversed : List Token) :
    ∃ s, (Number.integerText n).foldlM push ⟨reversed, .none⟩ = .ok s ∧
      s.Completes ((Number.integer n).tokens.reverse ++ reversed) := by
  unfold Number.integerText Number.tokens Number.isNegative Number.magnitude?
  by_cases hn : n < 0
  · have hminus : push ⟨reversed, .none⟩ '-' = .ok ⟨.symbol .minus :: reversed, .none⟩ :=
      start_single rfl _
    obtain ⟨s, hs, hcompletes⟩ := foldlM_natural n.natAbs (.symbol .minus :: reversed)
    refine ⟨s, ?_, ?_⟩
    · rw [if_pos hn, List.foldlM_cons, hminus]
      exact hs
    · simpa [hn] using hcompletes
  · obtain ⟨s, hs, hcompletes⟩ := foldlM_natural n.natAbs reversed
    refine ⟨s, ?_, ?_⟩
    · rwa [if_neg hn]
    · simpa [hn] using hcompletes

theorem codePoint?_control : ∀ n < 32,
    codePoint? ['0', '0', Hex.digit (n / 16), Hex.digit (n % 16)] = some (Char.ofNat n) := by
  decide +kernel

/-- What is written of a character is scanned as that character, if the scanner knows its name. -/
theorem foldlM_escape (c : Char) (chars : List Char) (reversed : List Token) :
    (Quoted.escape c).foldlM push ⟨reversed, .string '"' chars⟩ =
      .ok ⟨reversed, .string '"' (reread c :: chars)⟩ := by
  unfold Quoted.escape
  split_ifs with hquote hslash hn hr ht hb hf hcontrol
  · subst hquote
    rfl
  · subst hslash
    rfl
  · subst hn
    rfl
  · subst hr
    rfl
  · subst ht
    rfl
  · subst hb
    rfl
  · subst hf
    rfl
  · have hpoint := codePoint?_control c.toNat hcontrol
    rw [Char.ofNat_toNat] at hpoint
    have hreread : reread c = c := by
      simp only [reread, hb, hf, if_false]
    have hfront : ['\\', 'u', '0', '0', Hex.digit (c.toNat / 16)].foldlM push
        ⟨reversed, .string '"' chars⟩ =
          .ok ⟨reversed, .codePoint '"' chars [Hex.digit (c.toNat / 16), '0', '0']⟩ := rfl
    have hlast : push ⟨reversed, .codePoint '"' chars [Hex.digit (c.toNat / 16), '0', '0']⟩
        (Hex.digit (c.toNat % 16)) = .ok ⟨reversed, .string '"' (c :: chars)⟩ := by
      simp only [push, List.length_cons, List.length_nil, Nat.lt_irrefl, if_false,
        List.reverse_cons, List.reverse_nil, List.nil_append, List.cons_append, hpoint]
    change (['\\', 'u', '0', '0', Hex.digit (c.toNat / 16)] ++
      [Hex.digit (c.toNat % 16)]).foldlM push _ = _
    rw [List.foldlM_append, hfront, hreread]
    exact (foldlM_singleton _).trans hlast
  · have hreread : reread c = c := by
      simp only [reread, hb, hf, if_false]
    rw [foldlM_singleton, hreread]
    simp only [push, hquote, hn, hslash, if_false]

theorem foldlM_escaped (text chars : List Char) (reversed : List Token) :
    (text.flatMap Quoted.escape).foldlM push ⟨reversed, .string '"' chars⟩ =
      .ok ⟨reversed, .string '"' ((text.map reread).reverse ++ chars)⟩ := by
  induction text generalizing chars with
  | nil => rfl
  | cons c rest ih =>
    rw [List.flatMap_cons, List.foldlM_append, foldlM_escape, List.map_cons, List.reverse_cons,
      List.append_assoc]
    exact ih (reread c :: chars)

theorem foldlM_quoted (text : String) (reversed : List Token) :
    (Quoted.encode text.toList).foldlM push ⟨reversed, .none⟩ =
      .ok ⟨.string (rereadText text) :: reversed, .none⟩ := by
  have hopen : push ⟨reversed, .none⟩ '"' = .ok ⟨reversed, .string '"' []⟩ := rfl
  have hclose (chars : List Char) : push ⟨reversed, .string '"' chars⟩ '"' =
      .ok ⟨.string (String.ofList chars.reverse) :: reversed, .none⟩ := rfl
  have hbody := foldlM_escaped text.toList [] reversed
  rw [List.append_nil] at hbody
  unfold Quoted.encode
  rw [List.cons_append, List.foldlM_cons, hopen]
  change ((text.toList.flatMap Quoted.escape) ++ ['"']).foldlM push _ = _
  rw [List.foldlM_append, hbody]
  refine (foldlM_singleton _).trans ((hclose _).trans ?_)
  rw [List.reverse_reverse]
  rfl

theorem foldlM_key (key : String) (reversed : List Token) :
    ∃ s, (Value.displayKey key).foldlM push ⟨reversed, .none⟩ = .ok s ∧
      s.Completes (keyToken key :: reversed) := by
  unfold Value.displayKey keyToken
  split
  · rename_i hword
    have hw := foldlM_word hword reversed
    rwa [String.ofList_toList] at hw
  · exact ⟨_, foldlM_quoted key reversed, completes_none _⟩

end Scanner

/-- The text is scanned as these tokens between any others. -/
def Scans (text : List Char) (tokens : List Token) : Prop :=
  ∀ reversed, ∃ s, text.foldlM Scanner.push ⟨reversed, .none⟩ = .ok s ∧
    s.Completes (tokens.reverse ++ reversed)

def Continues (text : List Char) (tokens : List Token) : Prop :=
  ∀ s : Scanner, ∀ reversed, s.Completes reversed →
    ∃ s', text.foldlM Scanner.push s = .ok s' ∧ s'.Completes (tokens.reverse ++ reversed)

section Display
variable {front back text : List Char} {tokens more : List Token} {c : Char} {symbol : Symbol}

theorem Continues.nil : Continues [] [] :=
  fun s _ h => ⟨s, rfl, h⟩

theorem Scans.append (h : Scans front tokens) (h' : Continues back more) :
    Scans (front ++ back) (tokens ++ more) := by
  intro reversed
  obtain ⟨s, hs, hcompletes⟩ := h reversed
  obtain ⟨s', hs', hcompletes'⟩ := h' s _ hcompletes
  refine ⟨s', ?_, ?_⟩
  · rw [List.foldlM_append, hs]
    exact hs'
  · rwa [List.reverse_append, List.append_assoc]

theorem Continues.append (h : Continues front tokens) (h' : Continues back more) :
    Continues (front ++ back) (tokens ++ more) := by
  intro s reversed hs
  obtain ⟨s₁, hs₁, hcompletes⟩ := h s reversed hs
  obtain ⟨s₂, hs₂, hcompletes'⟩ := h' s₁ _ hcompletes
  refine ⟨s₂, ?_, ?_⟩
  · rw [List.foldlM_append, hs₁]
    exact hs₂
  · rwa [List.reverse_append, List.append_assoc]

theorem Scans.behind (h : Scans text tokens) (hc : c ∈ [',', ':'])
    (hs : single? c = some symbol) :
    Continues (c :: ' ' :: text) (.symbol symbol :: tokens) := by
  intro s reversed hcompletes
  have hblank := (Scanner.completes_none (.symbol symbol :: reversed)).blank
  obtain ⟨s', hs', hcompletes'⟩ := h (.symbol symbol :: reversed)
  refine ⟨s', ?_, ?_⟩
  · rw [foldlM_cons_of_ok (hcompletes.symbol hc hs), foldlM_cons_of_ok hblank]
    exact hs'
  · simpa using hcompletes'

theorem Scans.between (h : Scans text tokens) {c' : Char} {symbol' : Symbol}
    (hs : single? c = some symbol) (hs' : single? c' = some symbol') :
    Scans (c :: ' ' :: text ++ [' ', c'])
      (.symbol symbol :: (tokens ++ [.symbol symbol'])) := by
  intro reversed
  have hopen : Scanner.push ⟨reversed, .none⟩ c = .ok ⟨.symbol symbol :: reversed, .none⟩ :=
    Scanner.start_single hs _
  have hblank := (Scanner.completes_none (.symbol symbol :: reversed)).blank
  obtain ⟨s, hinner, hcompletes⟩ := h (.symbol symbol :: reversed)
  have hclose : Scanner.push ⟨tokens.reverse ++ .symbol symbol :: reversed, .none⟩ c' =
      .ok ⟨.symbol symbol' :: (tokens.reverse ++ .symbol symbol :: reversed), .none⟩ :=
    Scanner.start_single hs' _
  refine ⟨_, ?_, Scanner.completes_none _⟩
  rw [List.cons_append, List.cons_append, foldlM_cons_of_ok hopen, foldlM_cons_of_ok hblank,
    List.foldlM_append, hinner]
  change [' ', c'].foldlM Scanner.push s = _
  rw [foldlM_cons_of_ok hcompletes.blank, foldlM_singleton, hclose]
  simp

theorem scans_word {w : String} (h : isWord w.toList = true) :
    Scans w.toList [.word w] := by
  intro reversed
  have hw := Scanner.foldlM_word h reversed
  rwa [String.ofList_toList] at hw

theorem scans_pair {c' : Char} {symbol' : Symbol} (hs : single? c = some symbol)
    (hs' : single? c' = some symbol') : Scans [c, c'] [.symbol symbol, .symbol symbol'] := by
  intro reversed
  have hfirst : Scanner.push ⟨reversed, .none⟩ c = .ok ⟨.symbol symbol :: reversed, .none⟩ :=
    Scanner.start_single hs _
  have hsecond : Scanner.push ⟨.symbol symbol :: reversed, .none⟩ c' =
      .ok ⟨.symbol symbol' :: .symbol symbol :: reversed, .none⟩ := Scanner.start_single hs' _
  refine ⟨_, ?_, Scanner.completes_none _⟩
  rw [foldlM_cons_of_ok hfirst, foldlM_singleton, hsecond]
  rfl

mutual

theorem display_scans (v : Value) (hv : v.Plain) : Scans (v.display false) v.tokens := by
  cases v with
  | null => exact scans_word (w := "null") (by decide +kernel)
  | bool b => cases b <;> exact scans_word (by decide +kernel)
  | number n =>
    cases n with
    | integer n => exact Scanner.foldlM_integer n
    | real x => exact hv.elim
  | string s =>
    exact fun reversed => ⟨_, Scanner.foldlM_quoted s reversed, Scanner.completes_none _⟩
  | array items =>
    cases items with
    | nil => exact scans_pair rfl rfl
    | cons item rest =>
      exact ((display_scans item hv.1).append (displayItems_continues rest hv.2)).between rfl rfl
  | object entries =>
    cases entries with
    | nil => exact scans_pair rfl rfl
    | cons entry rest =>
      exact ((displayEntry_scans entry hv.2.1).append
        (displayEntries_continues rest hv.2.2)).between rfl rfl
termination_by structural v

theorem displayItems_continues (items : List Value) (hv : Value.PlainItems items) :
    Continues (Value.displayItems false items) (Value.moreTokens items) := by
  cases items with
  | nil => exact .nil
  | cons item rest =>
    exact ((display_scans item hv.1).behind (by simp) rfl).append (displayItems_continues rest hv.2)
termination_by structural items

theorem displayEntries_continues (entries : List (String × Value))
    (hv : Value.PlainEntries entries) :
    Continues (Value.displayEntries false entries) (Value.moreEntryTokens entries) := by
  cases entries with
  | nil => exact .nil
  | cons entry rest =>
    exact ((displayEntry_scans entry hv.1).behind (by simp) rfl).append
      (displayEntries_continues rest hv.2)
termination_by structural entries

theorem displayEntry_scans (entry : String × Value) (hv : Value.PlainEntry entry) :
    Scans (Value.displayEntry false entry) (Value.entryTokens entry) := by
  cases entry with
  | mk key value =>
    have hkey : Scans (Value.displayKey key) [keyToken key] := Scanner.foldlM_key key
    exact hkey.append ((display_scans value hv).behind (by simp) rfl)
termination_by structural entry

end

/-- The display of a value is scanned as its tokens. -/
theorem scan_display {v : Value} (hv : v.Plain) :
    Token.scan (v.display false) = .ok v.tokens := by
  obtain ⟨s, hs, hcompletes⟩ := display_scans v hv []
  have hfinish := hcompletes.finish
  rw [List.append_nil, List.reverse_reverse] at hfinish
  unfold Token.scan
  rw [hs]
  exact hfinish

end Display
end Script
end PromptLoop
