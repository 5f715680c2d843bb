import Mathlib.Data.Nat.Find
import Mathlib.Tactic.SplitIfs
import PromptLoop.Unicode.Utf8

set_option autoImplicit false

/-!
# What is replaced

Reading with replacement takes characters off the front of the bytes. Where no character is encoded
there, it takes the longest part that begins the encoding of one, or a single byte if none does, and
puts one U+FFFD in its place (`Replaced`). The decoder does exactly that: `replaced_iff`.
-/
namespace PromptLoop.Utf8

/-- The bytes begin the encoding of a character and do not complete it. -/
def Begins (part : List UInt8) : Prop :=
  part ≠ [] ∧ ∃ c : Char, part <+: String.utf8EncodeChar c ∧ part ≠ String.utf8EncodeChar c

/-- No character is encoded at the front, and `part` is replaced. -/
structure Broken (part rest : List UInt8) : Prop where
  no_character : ∀ c : Char, ¬ String.utf8EncodeChar c <+: part ++ rest
  part_begins : part.length = 1 ∨ Begins part
  longest : ∀ longer, Begins longer → longer <+: part ++ rest → longer.length ≤ part.length

/-- The text of bytes of which the ill-formed parts are replaced. -/
inductive Replaced : List UInt8 → List Char → Prop where
  | nil : Replaced [] []
  | character (c : Char) {rest : List UInt8} {text : List Char} (h : Replaced rest text) :
      Replaced (String.utf8EncodeChar c ++ rest) (c :: text)
  | broken {part rest : List UInt8} {text : List Char} (hpart : Broken part rest)
      (h : Replaced rest text) : Replaced (part ++ rest) (replacement :: text)

def decodeFrom (p : Progress) (bytes : List UInt8) : List Char :=
  (bytes.foldl Decoder.push ⟨p, []⟩).finish

theorem decode_eq_decodeFrom (bytes : List UInt8) : decode bytes = decodeFrom .start bytes := rfl

theorem finish_foldl_push (bytes : List UInt8) (p : Progress) (reversed : List Char) :
    (bytes.foldl Decoder.push ⟨p, reversed⟩).finish = reversed.reverse ++ decodeFrom p bytes := by
  induction bytes generalizing p reversed with
  | nil => simp [decodeFrom, Decoder.finish]
  | cons b rest ih =>
    rw [decodeFrom, List.foldl_cons, List.foldl_cons, Decoder.push, Decoder.push, ih, ih]
    simp

theorem decodeFrom_cons (p : Progress) (b : UInt8) (rest : List UInt8) :
    decodeFrom p (b :: rest) = (step p b.toNat).2 ++ decodeFrom (step p b.toNat).1 rest := by
  rw [decodeFrom, List.foldl_cons, Decoder.push, finish_foldl_push]
  simp

def secondBounds (b : Nat) : Nat × Nat :=
  (if b = 0xE0 then 0xA0 else if b = 0xF0 then 0x90 else 0x80,
    if b = 0xED then 0x9F else if b = 0xF4 then 0x8F else 0xBF)

def IsSecond (b x : UInt8) : Prop :=
  (secondBounds b.toNat).1 ≤ x.toNat ∧ x.toNat ≤ (secondBounds b.toNat).2

theorem IsSecond.three {b x : UInt8} (h : IsSecond b x) (hlow : 0xE0 ≤ b.toNat)
    (hhigh : b.toNat ≤ 0xEF) : 0x80 ≤ x.toNat ∧ x.toNat ≤ 0xBF ∧
      (b.toNat = 0xE0 → 0xA0 ≤ x.toNat) ∧ (b.toNat = 0xED → x.toNat ≤ 0x9F) := by
  unfold IsSecond secondBounds at h
  split_ifs at h <;> omega

theorem IsSecond.four {b x : UInt8} (h : IsSecond b x) (hlow : 0xF0 ≤ b.toNat)
    (hhigh : b.toNat ≤ 0xF4) : 0x80 ≤ x.toNat ∧ x.toNat ≤ 0xBF ∧
      (b.toNat = 0xF0 → 0x90 ≤ x.toNat) ∧ (b.toNat = 0xF4 → x.toNat ≤ 0x8F) := by
  unfold IsSecond secondBounds at h
  split_ifs at h <;> omega

def IsTail (x : UInt8) : Prop :=
  0x80 ≤ x.toNat ∧ x.toNat ≤ 0xBF

/-- The bytes since the last character, and where the decoder stands behind them. -/
inductive Pending : List UInt8 → Progress → Prop where
  | two {b : UInt8} (hlow : 0xC2 ≤ b.toNat) (hhigh : b.toNat ≤ 0xDF) :
      Pending [b] (.inside (b.toNat - 0xC0) 1 0x80 0xBF)
  | three {b : UInt8} (hlow : 0xE0 ≤ b.toNat) (hhigh : b.toNat ≤ 0xEF) :
      Pending [b] (.inside (b.toNat - 0xE0) 2 (secondBounds b.toNat).1 (secondBounds b.toNat).2)
  | threeMore {b x : UInt8} (hlow : 0xE0 ≤ b.toNat) (hhigh : b.toNat ≤ 0xEF) (hx : IsSecond b x) :
      Pending [b, x] (.inside ((b.toNat - 0xE0) * 64 + (x.toNat - 0x80)) 1 0x80 0xBF)
  | four {b : UInt8} (hlow : 0xF0 ≤ b.toNat) (hhigh : b.toNat ≤ 0xF4) :
      Pending [b] (.inside (b.toNat - 0xF0) 3 (secondBounds b.toNat).1 (secondBounds b.toNat).2)
  | fourMore {b x : UInt8} (hlow : 0xF0 ≤ b.toNat) (hhigh : b.toNat ≤ 0xF4) (hx : IsSecond b x) :
      Pending [b, x] (.inside ((b.toNat - 0xF0) * 64 + (x.toNat - 0x80)) 2 0x80 0xBF)
  | fourLast {b x y : UInt8} (hlow : 0xF0 ≤ b.toNat) (hhigh : b.toNat ≤ 0xF4) (hx : IsSecond b x)
      (hy : IsTail y) :
      Pending [b, x, y]
        (.inside (((b.toNat - 0xF0) * 64 + (x.toNat - 0x80)) * 64 + (y.toNat - 0x80)) 1 0x80 0xBF)

theorem toNat_ofNat_of_isValid {n : Nat} (h : n < 0xD800 ∨ 0xDFFF < n ∧ n < 0x110000) :
    (Char.ofNat n).val.toNat = n := by
  have hv : n.isValidChar := h
  have hn : Char.ofNat n = Char.ofNatAux n hv := dif_pos hv
  rw [hn]
  rfl

theorem ofNat_eq_of_toNat {b : UInt8} {n : Nat} (h : n = b.toNat) : UInt8.ofNat n = b := by
  rw [h, UInt8.ofNat_toNat]

theorem encode_one {b : UInt8} (h : b.toNat < 0x80) :
    String.utf8EncodeChar (Char.ofNat b.toNat) = [b] := by
  unfold String.utf8EncodeChar
  rw [toNat_ofNat_of_isValid (.inl (by omega)), if_pos (by omega), UInt8.ofNat_toNat]

theorem encode_two {b x : UInt8} (hlow : 0xC2 ≤ b.toNat) (hhigh : b.toNat ≤ 0xDF) (hx : IsTail x) :
    String.utf8EncodeChar (Char.ofNat ((b.toNat - 0xC0) * 64 + (x.toNat - 0x80))) = [b, x] := by
  obtain ⟨hxlow, hxhigh⟩ := hx
  unfold String.utf8EncodeChar
  rw [toNat_ofNat_of_isValid (.inl (by omega)), if_neg (by omega), if_pos (by omega)]
  simp only [List.cons.injEq, and_true]
  exact ⟨ofNat_eq_of_toNat (by omega), ofNat_eq_of_toNat (by omega)⟩

theorem encode_three {b x y : UInt8} (hlow : 0xE0 ≤ b.toNat) (hhigh : b.toNat ≤ 0xEF)
    (hx : IsSecond b x) (hy : IsTail y) :
    String.utf8EncodeChar
      (Char.ofNat (((b.toNat - 0xE0) * 64 + (x.toNat - 0x80)) * 64 + (y.toNat - 0x80))) =
        [b, x, y] := by
  obtain ⟨hylow, hyhigh⟩ := hy
  obtain ⟨hxlow, hxhigh, h0, hD⟩ := hx.three hlow hhigh
  unfold String.utf8EncodeChar
  rw [toNat_ofNat_of_isValid (by omega), if_neg (by omega), if_neg (by omega), if_pos (by omega)]
  simp only [List.cons.injEq, and_true]
  exact ⟨ofNat_eq_of_toNat (by omega), ofNat_eq_of_toNat (by omega), ofNat_eq_of_toNat (by omega)⟩

theorem encode_four {b x y z : UInt8} (hlow : 0xF0 ≤ b.toNat) (hhigh : b.toNat ≤ 0xF4)
    (hx : IsSecond b x) (hy : IsTail y) (hz : IsTail z) :
    String.utf8EncodeChar
      (Char.ofNat ((((b.toNat - 0xF0) * 64 + (x.toNat - 0x80)) * 64 + (y.toNat - 0x80)) * 64 +
        (z.toNat - 0x80))) = [b, x, y, z] := by
  obtain ⟨hylow, hyhigh⟩ := hy
  obtain ⟨hzlow, hzhigh⟩ := hz
  obtain ⟨hxlow, hxhigh, h0, h4⟩ := hx.four hlow hhigh
  unfold String.utf8EncodeChar
  rw [toNat_ofNat_of_isValid (by omega), if_neg (by omega), if_neg (by omega), if_neg (by omega)]
  simp only [List.cons.injEq, and_true]
  exact ⟨ofNat_eq_of_toNat (by omega), ofNat_eq_of_toNat (by omega), ofNat_eq_of_toNat (by omega),
    ofNat_eq_of_toNat (by omega)⟩

variable {part rest : List UInt8} {p : Progress}

inductive Composed : Char → Prop where
  | one {b : UInt8} (h : b.toNat < 0x80) : Composed (Char.ofNat b.toNat)
  | two {b x : UInt8} (hlow : 0xC2 ≤ b.toNat) (hhigh : b.toNat ≤ 0xDF) (hx : IsTail x) :
      Composed (Char.ofNat ((b.toNat - 0xC0) * 64 + (x.toNat - 0x80)))
  | three {b x y : UInt8} (hlow : 0xE0 ≤ b.toNat) (hhigh : b.toNat ≤ 0xEF) (hx : IsSecond b x)
      (hy : IsTail y) :
      Composed
        (Char.ofNat (((b.toNat - 0xE0) * 64 + (x.toNat - 0x80)) * 64 + (y.toNat - 0x80)))
  | four {b x y z : UInt8} (hlow : 0xF0 ≤ b.toNat) (hhigh : b.toNat ≤ 0xF4) (hx : IsSecond b x)
      (hy : IsTail y) (hz : IsTail z) :
      Composed
        (Char.ofNat ((((b.toNat - 0xF0) * 64 + (x.toNat - 0x80)) * 64 + (y.toNat - 0x80)) * 64 +
          (z.toNat - 0x80)))

theorem toNat_ofNat_of_lt {n : Nat} (h : n < 256) : (UInt8.ofNat n).toNat = n := by
  rw [UInt8.toNat_ofNat']
  exact Nat.mod_eq_of_lt h

theorem composed (c : Char) : Composed c := by
  have hvalid : c.toNat < 0xD800 ∨ 0xDFFF < c.toNat ∧ c.toNat < 0x110000 := c.valid
  have hself {n : Nat} (hn : n = c.toNat) (h : Composed (Char.ofNat n)) : Composed c := by
    rwa [hn, Char.ofNat_toNat] at h
  have htail {n : Nat} : (UInt8.ofNat (n % 64 + 0x80)).toNat = n % 64 + 0x80 :=
    toNat_ofNat_of_lt (by omega)
  by_cases h₁ : c.toNat < 0x80
  · have hb : (UInt8.ofNat c.toNat).toNat = c.toNat := toNat_ofNat_of_lt (by omega)
    exact hself hb (.one (by omega))
  by_cases h₂ : c.toNat < 0x800
  · have hb : (UInt8.ofNat (c.toNat / 64 + 0xC0)).toNat = c.toNat / 64 + 0xC0 :=
      toNat_ofNat_of_lt (by omega)
    have hx := htail (n := c.toNat)
    exact hself (by omega) (.two (b := .ofNat (c.toNat / 64 + 0xC0))
      (x := .ofNat (c.toNat % 64 + 0x80)) (by omega) (by omega) ⟨by omega, by omega⟩)
  by_cases h₃ : c.toNat < 0x10000
  · have hb : (UInt8.ofNat (c.toNat / 4096 + 0xE0)).toNat = c.toNat / 4096 + 0xE0 :=
      toNat_ofNat_of_lt (by omega)
    have hx := htail (n := c.toNat / 64)
    have hy := htail (n := c.toNat)
    have hsecond : IsSecond (.ofNat (c.toNat / 4096 + 0xE0)) (.ofNat (c.toNat / 64 % 64 + 0x80)) := by
      unfold IsSecond secondBounds
      split_ifs <;> omega
    exact hself (by omega) (.three (b := .ofNat (c.toNat / 4096 + 0xE0))
      (x := .ofNat (c.toNat / 64 % 64 + 0x80)) (y := .ofNat (c.toNat % 64 + 0x80))
      (by omega) (by omega) hsecond ⟨by omega, by omega⟩)
  · have hb : (UInt8.ofNat (c.toNat / 262144 + 0xF0)).toNat = c.toNat / 262144 + 0xF0 :=
      toNat_ofNat_of_lt (by omega)
    have hx := htail (n := c.toNat / 4096)
    have hy := htail (n := c.toNat / 64)
    have hz := htail (n := c.toNat)
    have hsecond :
        IsSecond (.ofNat (c.toNat / 262144 + 0xF0)) (.ofNat (c.toNat / 4096 % 64 + 0x80)) := by
      unfold IsSecond secondBounds
      split_ifs <;> omega
    exact hself (by omega) (.four (b := .ofNat (c.toNat / 262144 + 0xF0))
      (x := .ofNat (c.toNat / 4096 % 64 + 0x80)) (y := .ofNat (c.toNat / 64 % 64 + 0x80))
      (z := .ofNat (c.toNat % 64 + 0x80)) (by omega) (by omega) hsecond ⟨by omega, by omega⟩
      ⟨by omega, by omega⟩)

theorem lead_two {b : UInt8} (hlow : 0xC2 ≤ b.toNat) (hhigh : b.toNat ≤ 0xDF) :
    lead b.toNat = (.inside (b.toNat - 0xC0) 1 0x80 0xBF, []) := by
  unfold lead
  rw [if_neg (by omega), if_pos ⟨hlow, hhigh⟩]

theorem lead_three {b : UInt8} (hlow : 0xE0 ≤ b.toNat) (hhigh : b.toNat ≤ 0xEF) :
    lead b.toNat =
      (.inside (b.toNat - 0xE0) 2 (secondBounds b.toNat).1 (secondBounds b.toNat).2, []) := by
  unfold lead secondBounds
  split_ifs <;> simp_all <;> omega

theorem lead_four {b : UInt8} (hlow : 0xF0 ≤ b.toNat) (hhigh : b.toNat ≤ 0xF4) :
    lead b.toNat =
      (.inside (b.toNat - 0xF0) 3 (secondBounds b.toNat).1 (secondBounds b.toNat).2, []) := by
  unfold lead secondBounds
  split_ifs <;> simp_all <;> omega

/-- The first byte is a character, begins one, or is replaced. -/
theorem lead_cases (b : UInt8) :
    (∃ c : Char, String.utf8EncodeChar c = [b]) ∨ (∃ p, Pending [b] p) ∨
      lead b.toNat = (.start, [replacement]) := by
  by_cases h₁ : b.toNat < 0x80
  · exact .inl ⟨_, encode_one h₁⟩
  by_cases h₂ : 0xC2 ≤ b.toNat ∧ b.toNat ≤ 0xDF
  · exact .inr (.inl ⟨_, .two h₂.1 h₂.2⟩)
  by_cases h₃ : 0xE0 ≤ b.toNat ∧ b.toNat ≤ 0xEF
  · exact .inr (.inl ⟨_, .three h₃.1 h₃.2⟩)
  by_cases h₄ : 0xF0 ≤ b.toNat ∧ b.toNat ≤ 0xF4
  · exact .inr (.inl ⟨_, .four h₄.1 h₄.2⟩)
  · right; right
    unfold lead
    split_ifs <;> first | rfl | omega

section Inside
variable {value remaining low high n : Nat} (hlow : low ≤ n) (hhigh : n ≤ high)
include hlow hhigh

theorem step_last : step (.inside value 1 low high) n =
    (.start, [Char.ofNat (value * 64 + (n - 0x80))]) := by
  simp [step, hlow, hhigh]

theorem step_more : step (.inside value (remaining + 2) low high) n =
    (.inside (value * 64 + (n - 0x80)) (remaining + 1) 0x80 0xBF, []) := by
  simp [step, hlow, hhigh]

end Inside

/-- The decoder has put nothing out since the last character. -/
theorem Pending.decodeFrom_append (h : Pending part p) (rest : List UInt8) :
    decodeFrom .start (part ++ rest) = decodeFrom p rest := by
  cases h with
  | two hlow hhigh =>
    rw [List.singleton_append, decodeFrom_cons, step, lead_two hlow hhigh]
    rfl
  | three hlow hhigh =>
    rw [List.singleton_append, decodeFrom_cons, step, lead_three hlow hhigh]
    rfl
  | four hlow hhigh =>
    rw [List.singleton_append, decodeFrom_cons, step, lead_four hlow hhigh]
    rfl
  | threeMore hlow hhigh hx =>
    rw [List.cons_append, List.singleton_append, decodeFrom_cons, step, lead_three hlow hhigh,
      decodeFrom_cons, step_more hx.1 hx.2]
    rfl
  | fourMore hlow hhigh hx =>
    rw [List.cons_append, List.singleton_append, decodeFrom_cons, step, lead_four hlow hhigh,
      decodeFrom_cons, step_more hx.1 hx.2]
    rfl
  | fourLast hlow hhigh hx hy =>
    rw [List.cons_append, List.cons_append, List.singleton_append, decodeFrom_cons, step,
      lead_four hlow hhigh, decodeFrom_cons, step_more hx.1 hx.2, decodeFrom_cons,
      step_more hy.1 hy.2]
    rfl

/-- One more byte completes a character, goes on with it, or breaks it off. -/
theorem Pending.step_cases (h : Pending part p) (b : UInt8) :
    (∃ c : Char, String.utf8EncodeChar c = part ++ [b]) ∨ (∃ p', Pending (part ++ [b]) p') ∨
      step p b.toNat = ((lead b.toNat).1, replacement :: (lead b.toNat).2) := by
  cases h with
  | two hlow hhigh =>
    by_cases hb : IsTail b
    · exact .inl ⟨_, encode_two hlow hhigh hb⟩
    · exact .inr (.inr (if_neg hb))
  | @three first hlow hhigh =>
    by_cases hb : IsSecond first b
    · exact .inr (.inl ⟨_, .threeMore hlow hhigh hb⟩)
    · exact .inr (.inr (if_neg hb))
  | @four first hlow hhigh =>
    by_cases hb : IsSecond first b
    · exact .inr (.inl ⟨_, .fourMore hlow hhigh hb⟩)
    · exact .inr (.inr (if_neg hb))
  | threeMore hlow hhigh hx =>
    by_cases hb : IsTail b
    · exact .inl ⟨_, encode_three hlow hhigh hx hb⟩
    · exact .inr (.inr (if_neg hb))
  | fourMore hlow hhigh hx =>
    by_cases hb : IsTail b
    · exact .inr (.inl ⟨_, .fourLast hlow hhigh hx hb⟩)
    · exact .inr (.inr (if_neg hb))
  | fourLast hlow hhigh hx hy =>
    by_cases hb : IsTail b
    · exact .inl ⟨_, encode_four hlow hhigh hx hy hb⟩
    · exact .inr (.inr (if_neg hb))

/-- A character is decoded from the bytes that encode it. -/
theorem decode_encode_append (c : Char) (rest : List UInt8) :
    decode (String.utf8EncodeChar c ++ rest) = c :: decode rest := by
  rw [decode_eq_decodeFrom, decode_eq_decodeFrom]
  cases composed c with
  | one h =>
    rw [encode_one h, List.singleton_append, decodeFrom_cons, step, lead, if_pos h]
    rfl
  | @two b x hlow hhigh hx =>
    rw [encode_two hlow hhigh hx]
    refine ((Pending.two hlow hhigh).decodeFrom_append (x :: rest)).trans ?_
    rw [decodeFrom_cons, step_last hx.1 hx.2]
    rfl
  | @three b x y hlow hhigh hx hy =>
    rw [encode_three hlow hhigh hx hy]
    refine ((Pending.threeMore hlow hhigh hx).decodeFrom_append (y :: rest)).trans ?_
    rw [decodeFrom_cons, step_last hy.1 hy.2]
    rfl
  | @four b x y z hlow hhigh hx hy hz =>
    rw [encode_four hlow hhigh hx hy hz]
    refine ((Pending.fourLast hlow hhigh hx hy).decodeFrom_append (z :: rest)).trans ?_
    rw [decodeFrom_cons, step_last hz.1 hz.2]
    rfl

theorem Begins.of_encode {c : Char} {more : List UInt8} (h : String.utf8EncodeChar c = part ++ more)
    (hpart : part ≠ []) (hmore : more ≠ []) : Begins part := by
  refine ⟨hpart, c, h ▸ List.prefix_append part more, fun heq => hmore ?_⟩
  rw [h] at heq
  exact List.self_eq_append_right.1 heq

theorem exists_isSecond (b : UInt8) : ∃ x, IsSecond b x := by
  have hbounds : (secondBounds b.toNat).1 ≤ (secondBounds b.toNat).2 ∧
      (secondBounds b.toNat).2 < 256 := by
    unfold secondBounds
    split_ifs <;> omega
  have hx : (UInt8.ofNat (secondBounds b.toNat).1).toNat = (secondBounds b.toNat).1 :=
    toNat_ofNat_of_lt (by omega)
  exact ⟨_, Nat.le_of_eq hx.symm, Nat.le_trans (Nat.le_of_eq hx) hbounds.1⟩

theorem Pending.begins (h : Pending part p) : Begins part := by
  have htail : IsTail 0x80 := by
    unfold IsTail
    decide
  cases h with
  | two hlow hhigh => exact .of_encode (encode_two hlow hhigh htail) (by simp) (by simp)
  | @three b hlow hhigh =>
    obtain ⟨x, hx⟩ := exists_isSecond b
    exact .of_encode (encode_three hlow hhigh hx htail) (by simp) (by simp)
  | threeMore hlow hhigh hx =>
    exact .of_encode (encode_three hlow hhigh hx htail) (by simp) (by simp)
  | @four b hlow hhigh =>
    obtain ⟨x, hx⟩ := exists_isSecond b
    exact .of_encode (encode_four hlow hhigh hx htail htail) (by simp) (by simp)
  | fourMore hlow hhigh hx =>
    exact .of_encode (encode_four hlow hhigh hx htail htail) (by simp) (by simp)
  | fourLast hlow hhigh hx hy =>
    exact .of_encode (encode_four hlow hhigh hx hy htail) (by simp) (by simp)

theorem pending_of_begins (h : Begins part) : ∃ p, Pending part p := by
  obtain ⟨hne, c, hfront, hproper⟩ := h
  cases composed c with
  | one h =>
    rw [encode_one h] at hfront hproper
    obtain rfl | ⟨_, rfl, h₁⟩ := List.prefix_cons_iff.1 hfront
    · exact absurd rfl hne
    · exact absurd (List.prefix_nil.1 h₁ ▸ rfl) hproper
  | two hlow hhigh hx =>
    rw [encode_two hlow hhigh hx] at hfront hproper
    obtain rfl | ⟨_, rfl, h₁⟩ := List.prefix_cons_iff.1 hfront
    · exact absurd rfl hne
    obtain rfl | ⟨_, rfl, h₂⟩ := List.prefix_cons_iff.1 h₁
    · exact ⟨_, .two hlow hhigh⟩
    · exact absurd (List.prefix_nil.1 h₂ ▸ rfl) hproper
  | three hlow hhigh hx hy =>
    rw [encode_three hlow hhigh hx hy] at hfront hproper
    obtain rfl | ⟨_, rfl, h₁⟩ := List.prefix_cons_iff.1 hfront
    · exact absurd rfl hne
    obtain rfl | ⟨_, rfl, h₂⟩ := List.prefix_cons_iff.1 h₁
    · exact ⟨_, .three hlow hhigh⟩
    obtain rfl | ⟨_, rfl, h₃⟩ := List.prefix_cons_iff.1 h₂
    · exact ⟨_, .threeMore hlow hhigh hx⟩
    · exact absurd (List.prefix_nil.1 h₃ ▸ rfl) hproper
  | four hlow hhigh hx hy hz =>
    rw [encode_four hlow hhigh hx hy hz] at hfront hproper
    obtain rfl | ⟨_, rfl, h₁⟩ := List.prefix_cons_iff.1 hfront
    · exact absurd rfl hne
    obtain rfl | ⟨_, rfl, h₂⟩ := List.prefix_cons_iff.1 h₁
    · exact ⟨_, .four hlow hhigh⟩
    obtain rfl | ⟨_, rfl, h₃⟩ := List.prefix_cons_iff.1 h₂
    · exact ⟨_, .fourMore hlow hhigh hx⟩
    obtain rfl | ⟨_, rfl, h₄⟩ := List.prefix_cons_iff.1 h₃
    · exact ⟨_, .fourLast hlow hhigh hx hy⟩
    · exact absurd (List.prefix_nil.1 h₄ ▸ rfl) hproper

theorem Pending.flush (h : Pending part p) : Utf8.flush p = [replacement] := by
  cases h <;> rfl

theorem Broken.decode (h : Broken part rest) :
    decode (part ++ rest) = replacement :: decode rest := by
  obtain ⟨hnone, hpart, hlongest⟩ := h
  by_cases hb : Begins part
  · obtain ⟨p, hp⟩ := pending_of_begins hb
    rw [decode_eq_decodeFrom, hp.decodeFrom_append]
    cases rest with
    | nil => exact hp.flush
    | cons b more =>
      have hfront : part ++ [b] <+: part ++ b :: more := ⟨more, by simp⟩
      rcases hp.step_cases b with ⟨c, hc⟩ | ⟨p', hp'⟩ | hstep
      · exact absurd (hc ▸ hfront) (hnone c)
      · have hlength := hlongest _ hp'.begins hfront
        rw [List.length_append] at hlength
        exact absurd hlength (Nat.not_succ_le_self _)
      · rw [decodeFrom_cons, hstep, decode_eq_decodeFrom, decodeFrom_cons, List.cons_append, step]
  · obtain ⟨b, rfl⟩ := List.length_eq_one_iff.1 (hpart.resolve_right hb)
    rcases lead_cases b with ⟨c, hc⟩ | ⟨p, hp⟩ | hlead
    · exact absurd (hc ▸ List.prefix_append [b] rest) (hnone c)
    · exact absurd hp.begins hb
    · rw [decode_eq_decodeFrom, List.singleton_append, decodeFrom_cons, step, hlead]
      rfl

theorem decode_of_replaced {bytes : List UInt8} {text : List Char} (h : Replaced bytes text) :
    text = decode bytes := by
  induction h with
  | nil => rfl
  | character c _ ih => rw [decode_encode_append, ih]
  | broken hpart _ ih => rw [hpart.decode, ih]

/-- Where no character is encoded, some part is replaced. -/
theorem exists_broken {bytes : List UInt8} (hne : bytes ≠ [])
    (hnone : ∀ c : Char, ¬ String.utf8EncodeChar c <+: bytes) :
    ∃ part rest, part ≠ [] ∧ part ++ rest = bytes ∧ Broken part rest := by
  classical
  have hbound {longer : List UInt8} (hb : Begins longer) (hfront : longer <+: bytes) :
      longer.length ≤ Nat.findGreatest (fun k => Begins (bytes.take k)) bytes.length :=
    Nat.le_findGreatest hfront.length_le (List.prefix_iff_eq_take.1 hfront ▸ hb)
  generalize hn : Nat.findGreatest (fun k => Begins (bytes.take k)) bytes.length = n at hbound
  cases n with
  | zero =>
    obtain ⟨b, rest, rfl⟩ := List.exists_cons_of_ne_nil hne
    refine ⟨[b], rest, by simp, rfl, hnone, .inl rfl, fun longer hb hfront => ?_⟩
    exact Nat.le_succ_of_le (hbound hb hfront)
  | succ k =>
    have hbegins : Begins (bytes.take (k + 1)) :=
      Nat.findGreatest_of_ne_zero hn (Nat.succ_ne_zero k)
    have hsplit := List.take_append_drop (k + 1) bytes
    have hlength : (bytes.take (k + 1)).length = k + 1 :=
      List.length_take_of_le (hn ▸ Nat.findGreatest_le bytes.length)
    refine ⟨bytes.take (k + 1), bytes.drop (k + 1), hbegins.1, hsplit, ?_, .inr hbegins, ?_⟩
    · rwa [hsplit]
    · rw [hsplit, hlength]
      exact fun longer hb hfront => hbound hb hfront

theorem exists_replaced (bytes : List UInt8) : ∃ text, Replaced bytes text := by
  induction hn : bytes.length using Nat.strongRecOn generalizing bytes with
  | ind n ih =>
    by_cases hne : bytes = []
    · exact ⟨[], hne ▸ .nil⟩
    by_cases hc : ∃ c : Char, String.utf8EncodeChar c <+: bytes
    · obtain ⟨c, rest, rfl⟩ := hc
      have hlt : rest.length < n := by
        have hpos := List.length_pos_iff.2 (String.utf8EncodeChar_ne_nil (c := c))
        rw [← hn, List.length_append]
        omega
      obtain ⟨text, h⟩ := ih _ hlt rest rfl
      exact ⟨c :: text, .character c h⟩
    · obtain ⟨part, rest, hpart, rfl, hbroken⟩ :=
        exists_broken hne fun c hfront => hc ⟨c, hfront⟩
      have hlt : rest.length < n := by
        have hpos := List.length_pos_iff.2 hpart
        rw [← hn, List.length_append]
        omega
      obtain ⟨text, h⟩ := ih _ hlt rest rfl
      exact ⟨replacement :: text, .broken hbroken h⟩

theorem replaced_iff (bytes : List UInt8) (text : List Char) :
    Replaced bytes text ↔ text = decode bytes := by
  constructor
  · exact decode_of_replaced
  · rintro rfl
    obtain ⟨text, h⟩ := exists_replaced bytes
    exact decode_of_replaced h ▸ h

end PromptLoop.Utf8
