import ActorTs.Library.JsNumber

/-!
# Sums of binary64 numbers

A finite number is read as the rational it stands for, and a sum or a difference is
the rational nearest to the exact one among those with 53 binary digits, the even one
of two. Where the exponent would be too large the code has an infinity and `nearest` a
rational of that size: both are beyond every bound that is tested.

Sums of integers are exact as long as they stay below `2 ^ 53`.
-/

open Nat

namespace FiniteDouble

def toRat (x : FiniteDouble) : ℚ := if x.negative then -x.magnitude else x.magnitude

end FiniteDouble

namespace JsNumber

open FiniteDouble

/-- The number is below zero. -/
def isNegative : JsNumber → Bool
  | .nan => false
  | .infinity negative => negative
  | .finite x => decide (x.toRat < 0)

/-- The number is whole. -/
def isInteger : JsNumber → Bool
  | .finite x => decide (x.toRat.den = 1)
  | _ => false

/-- The non-negative rational with 53 digits that is nearest to a non-negative one. -/
def nearestMagnitude (q : ℚ) : ℚ :=
  roundHalfEven (q / 2 ^ roundingExponent q) * 2 ^ roundingExponent q

def nearest (q : ℚ) : ℚ := if q < 0 then -nearestMagnitude (-q) else nearestMagnitude q

lemma nearestMagnitude_nonneg (q : ℚ) : 0 ≤ nearestMagnitude q :=
  mul_nonneg (cast_nonneg _) (two_zpow_pos _).le

lemma nearest_nonneg {q : ℚ} (h : 0 ≤ q) : 0 ≤ nearest q := by
  rw [nearest, if_neg (not_lt.2 h)]
  exact nearestMagnitude_nonneg q

lemma roundingExponent_natCast_nonpos {n : ℕ} (h : n < 2 ^ 53) :
    roundingExponent (n : ℚ) ≤ 0 := by
  by_cases hzero : (n : ℚ) = 0
  · rw [roundingExponent, if_pos hzero]
    norm_num
  · have hpos : (0 : ℚ) < n := lt_of_le_of_ne (cast_nonneg n) (Ne.symm hzero)
    have hlog : Int.log 2 (n : ℚ) < 53 := by
      rw [← Int.lt_zpow_iff_log_lt (by norm_num) hpos]
      exact_mod_cast h
    rw [roundingExponent, if_neg hzero, max_le_iff]
    exact ⟨by norm_num, by omega⟩

lemma nearestMagnitude_natCast {n : ℕ} (h : n < 2 ^ 53) : nearestMagnitude n = n := by
  obtain ⟨k, hk⟩ := Int.eq_ofNat_of_zero_le (neg_nonneg.2 (roundingExponent_natCast_nonpos h))
  have hexp : roundingExponent (n : ℚ) = -(k : ℤ) := by omega
  have hscaled : (n : ℚ) / 2 ^ roundingExponent (n : ℚ) = ((n * 2 ^ k : ℕ) : ℚ) := by
    rw [hexp, zpow_neg, zpow_natCast, div_inv_eq_mul]
    push_cast
    rfl
  rw [nearestMagnitude, hscaled, roundHalfEven_natCast, ← hscaled,
    div_mul_cancel₀ _ (two_zpow_pos _).ne']

lemma nearestMagnitude_magnitude (x : FiniteDouble) :
    nearestMagnitude x.magnitude = x.magnitude := by
  rw [nearestMagnitude, roundingExponent_magnitude, magnitude,
    mul_div_cancel_right₀ _ (two_zpow_pos _).ne', roundHalfEven_natCast]

lemma nearest_intCast {n : ℤ} (h : n.natAbs < 2 ^ 53) : nearest n = n := by
  have hcast : ((n.natAbs : ℕ) : ℚ) = |(n : ℚ)| := by
    rw [cast_natAbs, Int.cast_abs]
  have habs : nearestMagnitude |(n : ℚ)| = |(n : ℚ)| := by
    rw [← hcast]
    exact nearestMagnitude_natCast h
  by_cases hneg : (n : ℚ) < 0
  · rw [nearest, if_pos hneg, ← abs_of_neg hneg, habs, abs_of_neg hneg, neg_neg]
  · rw [nearest, if_neg hneg]
    rwa [abs_of_nonneg (not_lt.1 hneg)] at habs

lemma floor_le_roundHalfEven (q : ℚ) : ⌊q⌋₊ ≤ roundHalfEven q := by
  unfold roundHalfEven
  simp only
  split_ifs <;> omega

lemma le_nearestMagnitude {q : ℚ} (h : 2 ^ 53 ≤ q) : 2 ^ 53 ≤ nearestMagnitude q := by
  have hpos : 0 < q := lt_of_lt_of_le (by positivity) h
  have hlog : 53 ≤ Int.log 2 q := by
    rw [← Int.zpow_le_iff_le_log (by norm_num) hpos]
    exact_mod_cast h
  have hexp : roundingExponent q = Int.log 2 q - 52 := by
    rw [roundingExponent, if_neg hpos.ne', max_eq_right (by omega)]
  have hpow : (2 : ℚ) ^ Int.log 2 q ≤ q := by exact_mod_cast Int.zpow_log_le_self (by norm_num) hpos
  have hscaled : ((2 ^ 52 : ℕ) : ℚ) ≤ q / 2 ^ roundingExponent q := by
    rw [le_div_iff₀ (two_zpow_pos _), hexp]
    refine le_trans (le_of_eq ?_) hpow
    rw [cast_pow, cast_ofNat, ← zpow_natCast, ← zpow_add₀ (by norm_num : (2 : ℚ) ≠ 0)]
    congr 1
    ring
  have hround : ((2 ^ 52 : ℕ) : ℚ) ≤ roundHalfEven (q / 2 ^ roundingExponent q) :=
    cast_le.2 ((le_floor hscaled).trans (floor_le_roundHalfEven _))
  have htwo : (2 : ℚ) ^ (1 : ℤ) ≤ 2 ^ roundingExponent q := by
    exact zpow_le_zpow_right₀ (by norm_num) (by omega)
  calc (2 : ℚ) ^ 53 = ((2 ^ 52 : ℕ) : ℚ) * 2 ^ (1 : ℤ) := by norm_num
    _ ≤ nearestMagnitude q := mul_le_mul hround htwo (by norm_num) (cast_nonneg _)

end JsNumber
