import Mathlib.Algebra.Order.Field.Rat
import Mathlib.Algebra.Order.Field.Power
import Mathlib.Data.Nat.Log
import Mathlib.Tactic.Linarith
import Mathlib.Tactic.NormNum
import Mathlib.Tactic.Positivity
import Mathlib.Tactic.Ring
import PromptLoop.Number.Numeral

set_option autoImplicit false

/-!
# The binary64 format

Rounding chooses the finest grid of the format on which the number has at most 53 bits
(`gridExponent_le_iff`). So what an operation gives has a place in the format as soon as it is not
beyond the largest number, and the operations that do not check this stay below it: the remainder is
no larger than the operands and needs no rounding.
-/
namespace PromptLoop
namespace Binary64

structure Fits (x : Binary64) : Prop where
  significand_lt : x.significand < Nat.pow 2 53
  exponent_ge : -1074 ≤ x.exponent
  exponent_le : x.exponent ≤ 971

theorem cast_two_pow (k : Nat) : ((Nat.pow 2 k : Nat) : ℚ) = 2 ^ k :=
  Nat.cast_pow 2 k

theorem zpow_mul_pow_neg (e : Int) : (2 : ℚ) ^ e * 2 ^ (-e).toNat = 2 ^ e.toNat := by
  have hsum : e + ((-e).toNat : Int) = (e.toNat : Int) := by omega
  rw [← zpow_natCast, ← zpow_natCast, ← zpow_add₀ two_ne_zero, hsum]

theorem mul_pow_lt_iff (num den : Nat) (e : Int) :
    num * Nat.pow 2 (-e).toNat < den * Nat.pow 2 e.toNat ↔ (num : ℚ) < den * 2 ^ e := by
  have hpos : (0 : ℚ) < 2 ^ (-e).toNat := by positivity
  rw [← Nat.cast_lt (α := ℚ), Nat.cast_mul, Nat.cast_mul, cast_two_pow, cast_two_pow,
    ← zpow_mul_pow_neg e, ← mul_assoc, mul_lt_mul_iff_left₀ hpos]

variable {num den : Nat}

theorem lt_mul_zpow (hden : den ≠ 0) :
    (num : ℚ) < den * 2 ^ ((num.log2 : Int) - den.log2 + 1) := by
  have hn : (num : ℚ) < 2 ^ (num.log2 + 1) := by
    exact_mod_cast Nat.lt_log2_self
  have hd : (2 : ℚ) ^ den.log2 ≤ den := by
    exact_mod_cast Nat.log2_self_le hden
  calc (num : ℚ) < 2 ^ (num.log2 + 1) := hn
    _ = 2 ^ den.log2 * 2 ^ ((num.log2 : Int) - den.log2 + 1) := by
      rw [← zpow_natCast, ← zpow_natCast, ← zpow_add₀ two_ne_zero]
      congr 1
      omega
    _ ≤ den * 2 ^ ((num.log2 : Int) - den.log2 + 1) :=
      mul_le_mul_of_nonneg_right hd (by positivity)

theorem mul_zpow_le (hnum : num ≠ 0) :
    (den : ℚ) * 2 ^ ((num.log2 : Int) - den.log2 - 1) ≤ num := by
  have hn : (2 : ℚ) ^ num.log2 ≤ num := by
    exact_mod_cast Nat.log2_self_le hnum
  have hd : (den : ℚ) ≤ 2 ^ (den.log2 + 1) := by
    exact_mod_cast Nat.le_of_lt Nat.lt_log2_self
  calc (den : ℚ) * 2 ^ ((num.log2 : Int) - den.log2 - 1)
      ≤ 2 ^ (den.log2 + 1) * 2 ^ ((num.log2 : Int) - den.log2 - 1) :=
        mul_le_mul_of_nonneg_right hd (by positivity)
    _ = 2 ^ num.log2 := by
      rw [← zpow_natCast, ← zpow_natCast, ← zpow_add₀ two_ne_zero]
      congr 1
      omega
    _ ≤ num := hn

/-- The grid is 52 bits below the highest bit of the quotient, but within the format. -/
theorem exists_log_of_gridExponent (hnum : num ≠ 0) (hden : den ≠ 0) :
    ∃ log : Int, gridExponent num den = max (log - 52) (-1074) ∧
      (den : ℚ) * 2 ^ log ≤ num ∧ (num : ℚ) < den * 2 ^ (log + 1) := by
  unfold gridExponent
  dsimp only
  split
  · rename_i hle
    refine ⟨_, rfl, ?_, lt_mul_zpow hden⟩
    exact not_lt.1 fun h => absurd ((mul_pow_lt_iff _ _ _).2 h) (Nat.not_lt.2 hle)
  · rename_i hlt
    refine ⟨_, rfl, mul_zpow_le hnum, ?_⟩
    rw [sub_add_cancel]
    exact (mul_pow_lt_iff _ _ _).1 (Nat.not_le.1 hlt)

/-- The grid is the finest on which the quotient has at most 53 bits. -/
theorem gridExponent_le_iff (hnum : num ≠ 0) (hden : den ≠ 0) {e : Int} :
    gridExponent num den ≤ e ↔ -1074 ≤ e ∧ (num : ℚ) < den * 2 ^ (e + 53) := by
  have hpos : (0 : ℚ) < den := by
    exact_mod_cast Nat.pos_of_ne_zero hden
  obtain ⟨log, hgrid, hle, hlt⟩ := exists_log_of_gridExponent hnum hden
  have hbits : log - 52 ≤ e ↔ (num : ℚ) < den * 2 ^ (e + 53) := by
    constructor
    · intro h
      have hpow : (2 : ℚ) ^ (log + 1) ≤ 2 ^ (e + 53) :=
        zpow_le_zpow_right₀ one_le_two (by omega)
      exact hlt.trans_le (mul_le_mul_of_nonneg_left hpow hpos.le)
    · intro h
      have hpow : (2 : ℚ) ^ log < 2 ^ (e + 53) := lt_of_mul_lt_mul_left (hle.trans_lt h) hpos.le
      have hexp : log < e + 53 := (zpow_lt_zpow_iff_right₀ one_lt_two).1 hpow
      omega
  rw [hgrid, max_le_iff, hbits, and_comm]

theorem nearest_le {bound : Nat} (h : num < den * bound) : nearest num den ≤ bound := by
  have hq : num / den < bound := Nat.div_lt_of_lt_mul h
  unfold nearest
  dsimp only
  split <;> omega

theorem nearest_mul (hden : den ≠ 0) (n : Nat) : nearest (den * n) den = n := by
  have hpos := Nat.pos_of_ne_zero hden
  unfold nearest
  dsimp only
  rw [Nat.mul_div_cancel_left n hpos, Nat.mul_mod_right, if_neg (by omega)]

theorem lt_bits_of_grid {e : Int} (h : gridExponent num den ≤ e) (hnum : num ≠ 0) (hden : den ≠ 0) :
    num * Nat.pow 2 (-e).toNat < den * Nat.pow 2 e.toNat * Nat.pow 2 53 := by
  have hlt := ((gridExponent_le_iff hnum hden).1 h).2
  have hcomm : den * Nat.pow 2 e.toNat * Nat.pow 2 53 = den * Nat.pow 2 53 * Nat.pow 2 e.toNat :=
    Nat.mul_right_comm _ _ _
  have hpow : (2 : ℚ) ^ 53 * 2 ^ e = 2 ^ (e + 53) := by
    rw [add_comm, zpow_add₀ two_ne_zero]
    rfl
  rwa [hcomm, mul_pow_lt_iff, Nat.cast_mul, cast_two_pow, mul_assoc, hpow]

variable {negative : Bool}

theorem fits_zero (negative : Bool) : Fits ⟨negative, 0, -1074⟩ :=
  ⟨Nat.two_pow_pos 53, le_rfl, Int.le_of_lt (by norm_num)⟩

/-- Only the largest number is a limit to what is rounded. -/
theorem fits_round (hden : den ≠ 0) (h : (round negative num den).exponent ≤ 971) :
    (round negative num den).Fits := by
  unfold round at h ⊢
  split
  · exact fits_zero negative
  · rename_i hnum
    rw [if_neg hnum] at h
    dsimp only at h ⊢
    have hge := ((gridExponent_le_iff hnum hden).1 le_rfl).1
    have hnearest := nearest_le (lt_bits_of_grid le_rfl hnum hden)
    split at h
    · rename_i hq
      rw [if_pos hq]
      exact ⟨Nat.pow_lt_pow_right (by decide) (by decide), Int.le_add_one hge, h⟩
    · rename_i hq
      rw [if_neg hq]
      exact ⟨Nat.lt_of_le_of_ne hnearest hq, hge, h⟩

theorem two_pow_ne_zero (k : Nat) : Nat.pow 2 k ≠ 0 :=
  Nat.ne_of_gt (Nat.two_pow_pos k)

theorem cast_mul_two_pow (n : Nat) (e : Int) :
    ((n * Nat.pow 2 e.toNat : Nat) : ℚ) = (Nat.pow 2 (-e).toNat : Nat) * (n * 2 ^ e) := by
  rw [Nat.cast_mul, cast_two_pow, cast_two_pow, ← zpow_mul_pow_neg e]
  ring

theorem mul_two_pow_of_grid {n : Nat} {g : Int} (k : Nat)
    (h : (num : ℚ) = den * (n * 2 ^ (g + k))) :
    num * Nat.pow 2 (-g).toNat = den * Nat.pow 2 g.toNat * (n * Nat.pow 2 k) := by
  have hpow : (2 : ℚ) ^ (g + k) = 2 ^ g * 2 ^ k := by
    rw [zpow_add₀ two_ne_zero, zpow_natCast]
  have hcast : ((num * Nat.pow 2 (-g).toNat : Nat) : ℚ) =
      (den * Nat.pow 2 g.toNat * (n * Nat.pow 2 k) : Nat) := by
    simp only [Nat.cast_mul, cast_two_pow, h, hpow, ← zpow_mul_pow_neg g]
    ring
  exact_mod_cast hcast

theorem gridExponent_le_of_grid {n : Nat} {e : Int} (hn : n < Nat.pow 2 53) (he : -1074 ≤ e)
    (hnum : num ≠ 0) (hden : den ≠ 0) (h : (num : ℚ) = den * (n * 2 ^ e)) :
    gridExponent num den ≤ e := by
  have hpos : (0 : ℚ) < den := by
    exact_mod_cast Nat.pos_of_ne_zero hden
  have hn' : (n : ℚ) < 2 ^ (53 : Int) := by
    exact_mod_cast hn
  refine (gridExponent_le_iff hnum hden).2 ⟨he, ?_⟩
  rw [h, add_comm, zpow_add₀ two_ne_zero]
  exact mul_lt_mul_of_pos_left (mul_lt_mul_of_pos_right hn' (by positivity)) hpos

/-- What is on a grid of the format already is not moved to a coarser one. -/
theorem exponent_round_le {n : Nat} {e : Int} (hn : n < Nat.pow 2 53) (he : -1074 ≤ e) :
    (round negative (n * Nat.pow 2 e.toNat) (Nat.pow 2 (-e).toNat)).exponent ≤ e := by
  have hvalue := cast_mul_two_pow n e
  have hden := two_pow_ne_zero (-e).toNat
  generalize n * Nat.pow 2 e.toNat = num at hvalue ⊢
  generalize Nat.pow 2 (-e).toNat = den at hden hvalue ⊢
  unfold round
  split
  · exact he
  · rename_i hnum
    have hgrid := gridExponent_le_of_grid hn he hnum hden hvalue
    have hbits := lt_bits_of_grid le_rfl hnum hden
    dsimp only
    generalize gridExponent num den = g at hgrid hbits ⊢
    obtain ⟨k, rfl⟩ := Int.le.dest hgrid
    have hunit := Nat.mul_ne_zero hden (two_pow_ne_zero g.toNat)
    rw [mul_two_pow_of_grid k hvalue] at hbits ⊢
    -- The significand stays below `2 ^ 53`, so there is no carry into the next grid.
    rw [nearest_mul hunit, if_neg (Nat.ne_of_lt (Nat.lt_of_mul_lt_mul_left hbits))]
    exact hgrid

theorem fits_of_finite? {x y : Binary64} (h : x.finite? = some y)
    (hfits : x.exponent ≤ 971 → x.Fits) : y.Fits := by
  unfold finite? at h
  split at h
  · cases h
    exact hfits ‹_›
  · cases h

variable {x y z : Binary64}

theorem Fits.neg (h : x.Fits) : x.neg.Fits :=
  ⟨h.significand_lt, h.exponent_ge, h.exponent_le⟩

theorem fits_ofDecimal? {digits : Nat} {exponent : Int} (h : ofDecimal? digits exponent = some x) :
    x.Fits := by
  unfold ofDecimal? at h
  split at h
  · cases h
    exact fits_zero false
  · split at h
    · cases h
    · split at h
      · cases h
        exact fits_zero false
      · exact fits_of_finite? h (fits_round (Nat.ne_of_gt (Nat.pow_pos (by decide))))

theorem fits_add? (h : x.add? y = some z) : z.Fits :=
  fits_of_finite? h (fits_round (two_pow_ne_zero _))

theorem fits_sub? (h : x.sub? y = some z) : z.Fits :=
  fits_add? h

theorem fits_mul? (h : x.mul? y = some z) : z.Fits :=
  fits_of_finite? h (fits_round (two_pow_ne_zero _))

theorem fits_div? (h : x.div? y = some z) : z.Fits := by
  unfold div? at h
  split at h
  · cases h
  · rename_i hy
    exact fits_of_finite? h (fits_round (Nat.mul_ne_zero hy (two_pow_ne_zero _)))

theorem natAbs_scaled (x : Binary64) (e : Int) :
    (x.scaled e).natAbs = x.significand * Nat.pow 2 (x.exponent - e).toNat := by
  unfold scaled signed
  rw [Int.natAbs_mul, Int.natAbs_natCast]
  split <;> simp

/-- The remainder is less than one operand and no more than the other, counted on the finer of their
grids, so nothing of it is rounded. -/
theorem fits_rem? (hx : x.Fits) (hy : y.Fits) (h : x.rem? y = some z) : z.Fits := by
  unfold rem? at h
  split at h
  · cases h
  · rename_i hzero
    cases h
    have hge : -1074 ≤ min x.exponent y.exponent := le_min hx.exponent_ge hy.exponent_ge
    have hle : min x.exponent y.exponent ≤ 971 := (min_le_left _ _).trans hx.exponent_le
    refine fits_round (two_pow_ne_zero _) ((exponent_round_le ?_ hge).trans hle)
    rw [natAbs_scaled, natAbs_scaled]
    rcases le_total x.exponent y.exponent with hexp | hexp
    · rw [min_eq_left hexp]
      refine (Nat.mod_le _ _).trans_lt ?_
      simpa using hx.significand_lt
    · rw [min_eq_right hexp]
      refine (Nat.mod_lt _ ?_).trans ?_
      · simpa using Nat.pos_of_ne_zero hzero
      · simpa using hy.significand_lt

end Binary64

namespace Number
open Binary64

/-- An integer is exact, and a real number has a place in the format. -/
def Fits : Number → Prop
  | .integer n => n.natAbs ≤ maxExact
  | .real x => x.Fits

theorem fits_ofBinary64 {x : Binary64} (h : x.Fits) : (ofBinary64 x).Fits := by
  unfold ofBinary64
  split
  · rename_i hexact
    exact hexact.2
  · exact h

theorem Fits.toBinary64 {n : Number} (h : n.Fits) : n.toBinary64.Fits := by
  cases n with
  | integer n =>
    have hn : n.natAbs < Nat.pow 2 53 := Nat.lt_of_le_of_lt h (by decide)
    have hgrid := @exponent_round_le (n < 0) n.natAbs 0 hn (by norm_num)
    have hexp : (round (n < 0) n.natAbs 1).exponent ≤ 0 := by
      simpa using hgrid
    exact fits_round Nat.one_ne_zero (hexp.trans (by norm_num))
  | real x => exact h

end Number
end PromptLoop
