import PromptLoop.Number.Numeral

set_option autoImplicit false

namespace PromptLoop

theorem Numeral.natural_toDigits (n : Nat) : Numeral.natural (Nat.toDigits 10 n) = n := by
  have hfold : Numeral.natural (Nat.toDigits 10 n) = Nat.ofDigitChars 10 (Nat.toDigits 10 n) 0 := by
    unfold Numeral.natural Nat.ofDigitChars
    congr 1
    funext m c
    rw [Nat.mul_comm]
    rfl
  rw [hfold, Nat.ofDigitChars_ten_toDigits]

namespace Binary64

theorem gridExponent_one {n : Nat} (hn : n ≠ 0) :
    gridExponent n 1 = max ((n.log2 : Int) - 52) (-1074) := by
  have hone : Nat.log2 1 = 0 := rfl
  have hle : 1 * Nat.pow 2 (n.log2 : Int).toNat ≤ n * Nat.pow 2 (-(n.log2 : Int)).toNat := by
    have hneg : (-(n.log2 : Int)).toNat = 0 := by omega
    rw [hneg, Int.toNat_natCast, Nat.one_mul]
    exact Nat.le_trans (Nat.log2_self_le hn) (Nat.le_mul_of_pos_right n (by decide))
  unfold gridExponent
  simp only [hone, Int.natCast_zero, Int.sub_zero, if_pos hle]

theorem nearest_one (n : Nat) : nearest n 1 = n := by
  unfold nearest
  simp [Nat.mod_one]

theorem log2_le_of_exact {n : Nat} (hn : n ≠ 0) (h : n ≤ Number.maxExact) : n.log2 ≤ 52 := by
  have hmax : Number.maxExact + 1 = Nat.pow 2 53 := rfl
  have hbound : n < Nat.pow 2 53 := Nat.lt_of_lt_of_eq (Nat.lt_succ_of_le h) hmax
  exact Nat.le_of_lt_succ ((Nat.log2_lt hn).2 hbound)

theorem round_one (negative : Bool) {n : Nat} (hn : n ≠ 0) (h : n ≤ Number.maxExact) :
    round negative n 1 = ⟨negative, n * Nat.pow 2 (52 - n.log2), (n.log2 : Int) - 52⟩ := by
  have hlog := log2_le_of_exact hn h
  have hgrid : gridExponent n 1 = (n.log2 : Int) - 52 := by
    rw [gridExponent_one hn]
    omega
  have hshift : n * Nat.pow 2 (52 - n.log2) < Nat.pow 2 53 := by
    have hwidth : n.log2 + 1 + (52 - n.log2) = 53 := by omega
    calc n * Nat.pow 2 (52 - n.log2)
        < Nat.pow 2 (n.log2 + 1) * Nat.pow 2 (52 - n.log2) :=
          Nat.mul_lt_mul_of_pos_right Nat.lt_log2_self (Nat.two_pow_pos _)
      _ = Nat.pow 2 (n.log2 + 1 + (52 - n.log2)) := (Nat.pow_add 2 _ _).symm
      _ = Nat.pow 2 53 := congrArg (Nat.pow 2) hwidth
  have hdown : (-((n.log2 : Int) - 52)).toNat = 52 - n.log2 := by omega
  have hup : ((n.log2 : Int) - 52).toNat = 0 := by omega
  have hscaled : nearest (n * Nat.pow 2 (-((n.log2 : Int) - 52)).toNat)
      (1 * Nat.pow 2 ((n.log2 : Int) - 52).toNat) = n * Nat.pow 2 (52 - n.log2) := by
    rw [hdown, hup]
    exact nearest_one _
  unfold round
  rw [if_neg hn, hgrid]
  dsimp only
  rw [hscaled]
  exact if_neg (Nat.ne_of_lt hshift)

theorem ofBinary64_shifted (negative : Bool) {n k : Nat} (hk : k ≤ 52) (h : n ≤ Number.maxExact) :
    Number.ofBinary64 ⟨negative, n * Nat.pow 2 (52 - k), (k : Int) - 52⟩ =
      .integer (if negative then -(n : Int) else n) := by
  have hdown : (-((k : Int) - 52)).toNat = 52 - k := by omega
  have hup : ((k : Int) - 52).toNat = 0 := by omega
  have hintegral : isIntegral ⟨negative, n * Nat.pow 2 (52 - k), (k : Int) - 52⟩ = true := by
    have hmod : n * Nat.pow 2 (52 - k) * Nat.pow 2 0 % Nat.pow 2 (52 - k) = 0 := by
      change n * Nat.pow 2 (52 - k) * 1 % Nat.pow 2 (52 - k) = 0
      rw [Nat.mul_one]
      exact Nat.mul_mod_left _ _
    unfold isIntegral
    rw [hdown, hup]
    exact decide_eq_true hmod
  have htruncate : truncate ⟨negative, n * Nat.pow 2 (52 - k), (k : Int) - 52⟩ =
      if negative then -(n : Int) else n := by
    have hpos : ((Nat.pow 2 (52 - k) : Nat) : Int) ≠ 0 :=
      Int.natCast_ne_zero.2 (Nat.ne_of_gt (Nat.two_pow_pos _))
    have hsigned : (⟨negative, n * Nat.pow 2 (52 - k), (k : Int) - 52⟩ : Binary64).signed =
        (if negative then -(n : Int) else n) * ((Nat.pow 2 (52 - k) : Nat) : Int) := by
      unfold signed
      cases negative with
      | false => exact Int.natCast_mul _ _
      | true =>
        change -((n * Nat.pow 2 (52 - k) : Nat) : Int) = -(n : Int) * _
        rw [Int.natCast_mul, Int.neg_mul]
    unfold truncate
    rw [hsigned, hdown, hup]
    have hone : ((Nat.pow 2 0 : Nat) : Int) = 1 := rfl
    rw [hone, Int.mul_one]
    exact Int.mul_tdiv_cancel _ hpos
  have habs : (if negative then -(n : Int) else n).natAbs ≤ Number.maxExact := by
    cases negative <;> simpa using h
  unfold Number.ofBinary64
  rw [hintegral, htruncate, if_pos ⟨rfl, habs⟩]

theorem ofBinary64_zero (negative : Bool) (exponent : Int) :
    Number.ofBinary64 ⟨negative, 0, exponent⟩ = .integer 0 := by
  have hintegral : isIntegral ⟨negative, 0, exponent⟩ = true := by
    unfold isIntegral
    simp
  have htruncate : truncate ⟨negative, 0, exponent⟩ = 0 := by
    unfold truncate signed
    cases negative <;> simp
  unfold Number.ofBinary64
  rw [hintegral, htruncate, if_pos ⟨rfl, Nat.zero_le _⟩]

theorem ofBinary64_round_one (negative : Bool) {n : Nat} (h : n ≤ Number.maxExact) :
    Number.ofBinary64 (round negative n 1) = .integer (if negative then -(n : Int) else n) := by
  by_cases hn : n = 0
  · subst hn
    have hzero : (if negative then -((0 : Nat) : Int) else ((0 : Nat) : Int)) = 0 := by
      cases negative <;> rfl
    rw [hzero]
    exact ofBinary64_zero negative (-1074)
  · rw [round_one negative hn h]
    exact ofBinary64_shifted negative (log2_le_of_exact hn h) h

theorem ofDecimal?_natural {n : Nat} (h : n ≤ Number.maxExact) :
    ∃ x, ofDecimal? n 0 = some x ∧ Number.ofBinary64 x = .integer n := by
  by_cases hn : n = 0
  · subst hn
    exact ⟨zero, rfl, ofBinary64_zero false (-1074)⟩
  · have hround := round_one false hn h
    have hdecimal : ofDecimal? n 0 = (round false n 1).finite? := by
      have hlow : ¬ (0 : Int) < -(400 + (n.log2 : Int)) := by omega
      unfold ofDecimal?
      rw [if_neg hn, if_neg (by decide), if_neg hlow]
      simp
    have hfinite : (round false n 1).finite? = some (round false n 1) := by
      unfold finite?
      rw [if_pos]
      rw [hround]
      have hlog := log2_le_of_exact hn h
      dsimp only
      omega
    exact ⟨round false n 1, hdecimal.trans hfinite, ofBinary64_round_one false h⟩

theorem round_neg {n : Nat} (negative : Bool) :
    (round negative n 1).neg = round (!negative) n 1 := by
  unfold round neg
  split
  · rfl
  · dsimp only
    split <;> rfl

/-- The sign of a small integer can be changed. -/
theorem ofBinary64_neg_ofInt {n : Nat} (h : n ≤ Number.maxExact) :
    Number.ofBinary64 (ofInt n).neg = .integer (-(n : Int)) := by
  have hofInt : ofInt n = round false n 1 := by
    have hnonneg : ¬ (n : Int) < 0 := by omega
    simp only [ofInt, hnonneg, decide_false, Int.natAbs_natCast]
  rw [hofInt, round_neg]
  exact ofBinary64_round_one true h

end Binary64
end PromptLoop
