import Mathlib.Tactic.ByContra
import Mathlib.Tactic.SplitIfs
import PromptLoop.Number.Numeral
import PromptLoop.Value.Display

set_option autoImplicit false

/-!
# What a terminal shows of a displayed value

Without styling the display of a value consists of printable characters, whatever its strings, its
keys and its numbers are. With styling a terminal shows the same: `Terminal.erase` takes the style
sequences out of a text, and every part of a display keeps what is shown (`display_renders`).
-/
namespace PromptLoop

def Printable (s : List Char) : Prop :=
  ∀ c ∈ s, 0x20 ≤ c.toNat

instance (s : List Char) : Decidable (Printable s) :=
  List.decidableBAll _ s

section Printable
variable {s t : List Char} {c : Char}

@[simp]
theorem printable_nil : Printable [] :=
  List.forall_mem_nil _

@[simp]
theorem printable_cons : Printable (c :: s) ↔ 0x20 ≤ c.toNat ∧ Printable s :=
  List.forall_mem_cons

@[simp]
theorem printable_append : Printable (s ++ t) ↔ Printable s ∧ Printable t :=
  List.forall_mem_append

theorem Printable.of_subset (h : Printable t) (hs : s ⊆ t) : Printable s :=
  fun c hc => h c (hs hc)

theorem printable_of_isDigit (h : ∀ c ∈ s, c.isDigit = true) : Printable s := by
  intro c hc
  have hbounds : 48 ≤ c.toNat ∧ c.toNat ≤ 57 := by
    simpa [Char.isDigit, UInt32.le_iff_toNat_le] using h c hc
  omega

end Printable

namespace Binary64

theorem printable_naturalDigits (n : Nat) : Printable (naturalDigits n) :=
  printable_of_isDigit fun _ h => Nat.isDigit_of_mem_toDigits (by decide) (by decide) h

theorem printable_zeros (n : Nat) : Printable (zeros n) := by
  intro c hc
  rw [List.eq_of_mem_replicate hc]
  decide

theorem withoutTrailingZeros_subset (digits : List Char) :
    withoutTrailingZeros digits ⊆ digits := by
  intro c hc
  have hdrop := (List.dropWhile_suffix _).subset (List.mem_reverse.1 hc)
  exact List.mem_reverse.1 hdrop

theorem printable_shortest (x : Binary64) (tie : Tie) : Printable (x.shortest tie).digits := by
  unfold shortest
  split
  · simp
  · exact (printable_naturalDigits _).of_subset (withoutTrailingZeros_subset _)

theorem printable_positional {d : Digits} (h : Printable d.digits) (keepFraction : Bool) :
    Printable (d.positional keepFraction) := by
  have hfraction : Printable (if keepFraction then ['.', '0'] else []) := by
    cases keepFraction <;> simp
  have htake (n : Nat) : Printable (d.digits.take n) := h.of_subset (List.take_subset n _)
  have hdrop (n : Nat) : Printable (d.digits.drop n) := h.of_subset (List.drop_subset n _)
  unfold Digits.positional
  split
  · simp [printable_zeros, h]
  · dsimp only
    split
    · simp [printable_zeros, h, hfraction]
    · simp [htake, hdrop]

theorem printable_scientific {d : Digits} (h : Printable d.digits) : Printable d.scientific := by
  have htake : Printable (d.digits.take 1) := h.of_subset (List.take_subset 1 _)
  have hdrop : Printable (d.digits.drop 1) := h.of_subset (List.drop_subset 1 _)
  have hsign : 0x20 ≤ (if d.exponent < 0 then '-' else '+').toNat := by
    split <;> decide
  unfold Digits.scientific
  simp only [printable_append, printable_cons]
  refine ⟨⟨htake, ?_⟩, by decide, hsign, printable_naturalDigits _⟩
  split
  · simp
  · simpa using hdrop

theorem printable_signed {negative : Prop} [Decidable negative] {s : List Char} (h : Printable s) :
    Printable (if negative then '-' :: s else s) := by
  split
  · exact printable_cons.2 ⟨by decide, h⟩
  · exact h

theorem printable_write (n : Notation) (x : Binary64) : Printable (n.write x) := by
  have hdigits := printable_shortest x n.tie
  have hpositional := printable_positional hdigits n.keepFraction
  unfold Notation.write
  dsimp only
  refine printable_signed ?_
  split
  · exact hpositional
  · split
    · exact hpositional
    · exact printable_scientific hdigits

end Binary64

theorem Number.printable_text (n : Number) : Printable n.text := by
  cases n with
  | integer n => exact Binary64.printable_signed (Binary64.printable_naturalDigits n.natAbs)
  | real x => exact Binary64.printable_write .valueText x

theorem Hex.printable_digit : ∀ n < 16, 0x20 ≤ (Hex.digit n).toNat := by
  decide

namespace Quoted

theorem printable_escape (c : Char) : Printable (escape c) := by
  unfold escape
  split_ifs with _ _ _ _ _ _ _ hcontrol
  · simp
  · simp
  · simp
  · simp
  · simp
  · simp
  · simp
  · have hhigh := Hex.printable_digit (c.toNat / 16) (by omega)
    have hlow := Hex.printable_digit (c.toNat % 16) (Nat.mod_lt _ (by decide))
    simp [hhigh, hlow]
  · simpa using Nat.not_lt.1 hcontrol

theorem printable_encode (s : List Char) : Printable (encode s) := by
  have hbody : Printable (s.flatMap escape) := by
    intro c hc
    obtain ⟨c', -, hc'⟩ := List.mem_flatMap.1 hc
    exact printable_escape c' c hc'
  simp [encode, hbody]

end Quoted

theorem Script.isWordPart_control : ∀ n < 0x20, isWordPart (Char.ofNat n) = false := by
  decide +kernel

namespace Script

theorem isWordPart_of_isWordStart {c : Char} (h : isWordStart c = true) : isWordPart c = true := by
  unfold isWordStart at h
  unfold isWordPart
  simp only [Bool.or_eq_true] at h ⊢
  obtain (h | h) | h := h
  · exact .inl (.inl (.inl h))
  · exact .inl (.inr h)
  · exact .inr h

theorem printable_of_isWord {w : List Char} (h : isWord w = true) : Printable w := by
  have hparts : ∀ c ∈ w, isWordPart c = true := by
    cases w with
    | nil => simp
    | cons c rest =>
      obtain ⟨hstart, hrest⟩ := Bool.and_eq_true_iff.1 h
      exact List.forall_mem_cons.2 ⟨isWordPart_of_isWordStart hstart, List.all_eq_true.1 hrest⟩
  intro c hc
  by_contra hlow
  have hcontrol := isWordPart_control c.toNat (Nat.not_le.1 hlow)
  rw [Char.ofNat_toNat, hparts c hc] at hcontrol
  cases hcontrol

end Script

theorem Value.printable_displayKey (key : String) : Printable (displayKey key) := by
  unfold displayKey
  split
  · rename_i hword
    exact Script.printable_of_isWord hword
  · exact Quoted.printable_encode _

namespace Terminal

def behindSequence? : List Char → Option (List Char)
  | '\x1b' :: '[' :: rest =>
    match Numeral.digits rest with
    | (_ :: _, 'm' :: behind) => some behind
    | _ => none
  | _ => none

theorem length_behindSequence? {s behind : List Char} (h : behindSequence? s = some behind) :
    behind.length < s.length := by
  unfold behindSequence? at h
  split at h
  · rename_i rest
    split at h
    · rename_i d ds behind' hdigits
      cases h
      have hrest := Numeral.digits_append rest
      rw [hdigits] at hrest
      simp only [← hrest, List.length_append, List.length_cons]
      omega
    · cases h
  · cases h

/-- The text without its style sequences. -/
def erase : List Char → List Char
  | [] => []
  | c :: rest =>
    match _h : behindSequence? (c :: rest) with
    | some behind => erase behind
    | none => c :: erase rest
termination_by s => s.length
decreasing_by
  · exact length_behindSequence? _h
  · exact Nat.lt_succ_self _

example : erase "\x1b[31ma\x1b[\x1b[0m".toList = "a\x1b[".toList := by cbv

/-- A terminal shows the printable text `shown` where `written` is written. -/
structure Renders (written shown : List Char) : Prop where
  printable : Printable shown
  erased : ∀ rest, erase (written ++ rest) = shown ++ erase rest

section Renders
variable {written shown written' shown' text code rest : List Char} {c : Char}

theorem behindSequence?_sequence (hne : code ≠ []) (hdigits : ∀ c ∈ code, c.isDigit = true) :
    behindSequence? (sequence code ++ rest) = some rest := by
  have hsplit : Numeral.digits (code ++ 'm' :: rest) = (code, 'm' :: rest) := by
    unfold Numeral.digits
    rw [List.takeWhile_append_of_pos hdigits, List.dropWhile_append_of_pos hdigits]
    simp
  cases code with
  | nil => exact absurd rfl hne
  | cons d ds =>
    have htext : sequence (d :: ds) ++ rest = '\x1b' :: '[' :: (d :: ds ++ 'm' :: rest) := by
      simp [sequence]
    rw [htext]
    unfold behindSequence?
    simp only [hsplit]

theorem erase_behind {s behind : List Char} (h : behindSequence? s = some behind) :
    erase s = erase behind := by
  cases s with
  | nil => cases h
  | cons c rest =>
    rw [erase]
    split
    · rename_i found hfound
      rw [h] at hfound
      cases hfound
      rfl
    · rename_i hnone
      rw [h] at hnone
      cases hnone

theorem erase_cons (hc : c ≠ '\x1b') : erase (c :: rest) = c :: erase rest := by
  have hnone : behindSequence? (c :: rest) = none := by
    unfold behindSequence?
    split
    · rename_i heq
      exact absurd (List.cons.inj heq).1 hc
    · rfl
  rw [erase]
  split
  · rename_i found hfound
    rw [hnone] at hfound
    cases hfound
  · rfl

theorem erase_append (h : Printable text) (rest : List Char) :
    erase (text ++ rest) = text ++ erase rest := by
  induction text with
  | nil => rfl
  | cons c text ih =>
    obtain ⟨hc, htext⟩ := printable_cons.1 h
    have hescape : c ≠ '\x1b' := by
      rintro rfl
      exact absurd hc (by decide)
    rw [List.cons_append, erase_cons hescape, ih htext, List.cons_append]

theorem erase_sequence (hne : code ≠ []) (hdigits : code.all Char.isDigit = true)
    (rest : List Char) : erase (sequence code ++ rest) = erase rest :=
  erase_behind (behindSequence?_sequence hne (List.all_eq_true.1 hdigits))

theorem erase_attribute (a : Attribute) (rest : List Char) :
    erase (sequence a.code ++ rest) = erase rest := by
  cases a <;> exact erase_sequence (by decide) (by decide) rest

theorem Renders.plain (h : Printable text) : Renders text text :=
  ⟨h, erase_append h⟩

theorem Renders.append (h : Renders written shown) (h' : Renders written' shown') :
    Renders (written ++ written') (shown ++ shown') := by
  refine ⟨printable_append.2 ⟨h.printable, h'.printable⟩, fun rest => ?_⟩
  rw [List.append_assoc, h.erased, h'.erased, List.append_assoc]

theorem Renders.between (h : Renders written shown) {front back : List Char}
    (hf : Printable front) (hb : Printable back) :
    Renders (front ++ written ++ back) (front ++ shown ++ back) :=
  ((Renders.plain hf).append h).append (.plain hb)

theorem Renders.paint (h : Printable text) (a : Attribute) : Renders (paint [a] text) text := by
  refine ⟨h, fun rest => ?_⟩
  have hwritten : Terminal.paint [a] text ++ rest =
      sequence a.code ++ (text ++ (sequence ['0'] ++ rest)) := by
    simp [Terminal.paint]
  rw [hwritten, erase_attribute, erase_append h, erase_sequence (by decide) (by decide)]

end Renders
end Terminal

namespace Value

open Terminal

mutual

theorem display_renders (v : Value) : Renders (v.display true) (v.display false) := by
  cases v with
  | null => exact .paint (by decide) .dim
  | bool b => cases b <;> exact .paint (by decide) .magenta
  | number n => exact .paint n.printable_text .yellow
  | string s => exact .paint (Quoted.printable_encode _) .green
  | array items =>
    cases items with
    | nil =>
      have hbrackets : Printable ['[', ']'] := by decide
      exact .plain hbrackets
    | cons item rest =>
      have hopen : Printable ['[', ' '] := by decide
      have hclose : Printable [' ', ']'] := by decide
      have hinner := (display_renders item).append (displayItems_renders rest)
      exact hinner.between hopen hclose
  | object entries =>
    cases entries with
    | nil =>
      have hbraces : Printable ['\x7b', '\x7d'] := by decide
      exact .plain hbraces
    | cons entry rest =>
      have hopen : Printable ['\x7b', ' '] := by decide
      have hclose : Printable [' ', '\x7d'] := by decide
      have hinner := (displayEntry_renders entry).append (displayEntries_renders rest)
      exact hinner.between hopen hclose
termination_by structural v

theorem displayItems_renders (items : List Value) :
    Renders (displayItems true items) (displayItems false items) := by
  cases items with
  | nil => exact .plain printable_nil
  | cons item rest =>
    have hcomma : Renders [',', ' '] [',', ' '] := .plain (by decide)
    exact (hcomma.append (display_renders item)).append (displayItems_renders rest)
termination_by structural items

theorem displayEntries_renders (entries : List (String × Value)) :
    Renders (displayEntries true entries) (displayEntries false entries) := by
  cases entries with
  | nil => exact .plain printable_nil
  | cons entry rest =>
    have hcomma : Renders [',', ' '] [',', ' '] := .plain (by decide)
    exact (hcomma.append (displayEntry_renders entry)).append (displayEntries_renders rest)
termination_by structural entries

theorem displayEntry_renders (entry : String × Value) :
    Renders (displayEntry true entry) (displayEntry false entry) := by
  cases entry with
  | mk key value =>
    have hkey : Renders (displayKey key) (displayKey key) := .plain (printable_displayKey key)
    have hcolon : Renders [':', ' '] [':', ' '] := .plain (by decide)
    exact hkey.append (hcolon.append (display_renders value))
termination_by structural entry

end

theorem displayed_text_is_inert (v : Value) :
    (∀ c ∈ (v.displayText false).toList, 0x20 ≤ c.toNat) ∧
      erase (v.displayText true).toList = (v.displayText false).toList := by
  unfold displayText
  rw [String.toList_ofList, String.toList_ofList]
  have hrenders := display_renders v
  refine ⟨hrenders.printable, ?_⟩
  have herased := hrenders.erased []
  have hnil : erase [] = [] := by rw [erase]
  rwa [hnil, List.append_nil, List.append_nil] at herased

end Value
end PromptLoop
