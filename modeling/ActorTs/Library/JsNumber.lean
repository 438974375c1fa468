import Mathlib.Data.Int.Log
import Mathlib.Data.Rat.Floor

/-!
# Binary64 numbers and their decimals

A finite number is a sign, a significand below `2 ^ 53` and an exponent, in the
one form in which the significand is as large as the exponent allows: that form
is a field of the structure, so numbers are equal exactly when their parts are.

`ofMagnitude` rounds a non-negative rational to the nearest number, to the even one of two.
`shortestDecimal` finds the decimal a number is printed as: the fewest digits that round back to it,
closest first. The exact decimal stands behind the search, so what is printed rounds back in any
case.
-/

/-- Half way between two naturals goes to the even one. -/
def roundHalfEven (q : ℚ) : ℕ :=
  let lower := ⌊q⌋₊
  if q - lower < 1 / 2 then lower
  else if 1 / 2 < q - lower then lower + 1
  else if lower % 2 = 0 then lower else lower + 1

lemma roundHalfEven_natCast (n : ℕ) : roundHalfEven n = n := by
  simp [roundHalfEven]

/-- The significands and exponents that stand for a number. -/
def CanonicalDouble (significand : ℕ) (exponent : ℤ) : Prop :=
  significand < 2 ^ 53 ∧ -1074 ≤ exponent ∧ exponent ≤ 971 ∧
    (2 ^ 52 ≤ significand ∨ exponent = -1074)

instance (significand : ℕ) (exponent : ℤ) : Decidable (CanonicalDouble significand exponent) :=
  inferInstanceAs (Decidable (_ ∧ _))

structure FiniteDouble where
  negative : Bool
  significand : ℕ
  exponent : ℤ
  canonical : CanonicalDouble significand exponent
  deriving DecidableEq

inductive JsNumber where
  | nan
  | infinity (negative : Bool)
  | finite (x : FiniteDouble)
  deriving DecidableEq

open Nat

namespace FiniteDouble

def zero (negative : Bool) : FiniteDouble := ⟨negative, 0, -1074, by decide⟩

/-- The absolute value. -/
def magnitude (x : FiniteDouble) : ℚ := x.significand * 2 ^ x.exponent

/-- The exponent at which a magnitude is rounded: the one that leaves 53 binary
digits before the point, unless that is below the lowest. -/
def roundingExponent (q : ℚ) : ℤ :=
  if q = 0 then -1074 else max (-1074) (Int.log 2 q - 52)

lemma two_zpow_pos (e : ℤ) : (0 : ℚ) < 2 ^ e := zpow_pos (by norm_num) e

lemma magnitude_pos {x : FiniteDouble} (h : x.significand ≠ 0) : 0 < x.magnitude :=
  mul_pos (cast_pos.2 (pos_of_ne_zero h)) (two_zpow_pos _)

lemma roundingExponent_magnitude (x : FiniteDouble) :
    roundingExponent x.magnitude = x.exponent := by
  obtain ⟨hlt, hlow, -, hnormal⟩ := x.canonical
  by_cases hzero : x.significand = 0
  · rw [roundingExponent, magnitude, hzero, cast_zero, zero_mul, if_pos rfl]
    rcases hnormal with hnormal | hnormal
    · omega
    · exact hnormal.symm
  · have hpos := magnitude_pos hzero
    have hsig : (x.significand : ℚ) < 2 ^ (53 : ℤ) := by exact_mod_cast hlt
    have hupper : Int.log 2 x.magnitude < 53 + x.exponent := by
      rw [← Int.lt_zpow_iff_log_lt (by norm_num) hpos, cast_ofNat,
        zpow_add₀ (by norm_num : (2 : ℚ) ≠ 0)]
      exact mul_lt_mul_of_pos_right hsig (two_zpow_pos _)
    rw [roundingExponent, if_neg hpos.ne']
    rcases hnormal with hnormal | hnormal
    · have hsig' : (2 : ℚ) ^ (52 : ℤ) ≤ x.significand := by exact_mod_cast hnormal
      have hlower : 52 + x.exponent ≤ Int.log 2 x.magnitude := by
        rw [← Int.zpow_le_iff_le_log (by norm_num) hpos, cast_ofNat,
          zpow_add₀ (by norm_num : (2 : ℚ) ≠ 0)]
        exact mul_le_mul_of_nonneg_right hsig' (two_zpow_pos _).le
      omega
    · omega

end FiniteDouble

namespace JsNumber

open FiniteDouble

/-- The number nearest to a non-negative magnitude, or an infinity where the
nearest would need an exponent that is too large. -/
def ofMagnitude (negative : Bool) (q : ℚ) : JsNumber :=
  let e := roundingExponent q
  let m := roundHalfEven (q / 2 ^ e)
  -- Rounding up can carry into a 54th digit.
  let (m, e) := if m < 2 ^ 53 then (m, e) else (2 ^ 52, e + 1)
  if h : CanonicalDouble m e then .finite ⟨negative, m, e, h⟩ else .infinity negative

lemma ofMagnitude_magnitude (x : FiniteDouble) :
    ofMagnitude x.negative x.magnitude = .finite x := by
  have hround : roundHalfEven (x.magnitude / 2 ^ x.exponent) = x.significand := by
    rw [magnitude, mul_div_cancel_right₀ _ (two_zpow_pos _).ne', roundHalfEven_natCast]
  simp only [ofMagnitude, roundingExponent_magnitude, hround, if_pos x.canonical.1,
    dif_pos x.canonical]

/-- The number nearest to `s * 10 ^ e`. -/
def ofDecimal (negative : Bool) (s : ℕ) (e : ℤ) : JsNumber :=
  ofMagnitude negative (s * 10 ^ e)

lemma ofDecimal_zero (negative : Bool) (e : ℤ) :
    ofDecimal negative 0 e = .finite (FiniteDouble.zero negative) := by
  have hzero : ((0 : ℕ) : ℚ) * 10 ^ e = (FiniteDouble.zero negative).magnitude := by
    simp [FiniteDouble.zero, magnitude]
  rw [ofDecimal, hzero]
  exact ofMagnitude_magnitude (FiniteDouble.zero negative)

end JsNumber

namespace FiniteDouble

open JsNumber

/-- The decimal with the digits of the number in full. -/
def exactDecimal (x : FiniteDouble) : ℕ × ℤ :=
  if 0 ≤ x.exponent then (x.significand * 2 ^ x.exponent.toNat, 0)
  else (x.significand * 5 ^ (-x.exponent).toNat, x.exponent)

/-- The decimal of `k` digits closest to the number, or the one on the other side
of it, whichever rounds back first. -/
def candidateDecimal (x : FiniteDouble) (k : ℕ) : Option (ℕ × ℤ) :=
  let e := Int.log 10 x.magnitude + 1 - k
  let scaled := x.magnitude / 10 ^ e
  let nearest := roundHalfEven scaled
  let other := if nearest = ⌊scaled⌋₊ then nearest + 1 else nearest - 1
  ([nearest, other].find? fun s => 0 < s ∧ ofDecimal x.negative s e = .finite x).map fun s =>
    if s = 10 ^ k then (1, e + k) else (s, e)

/-- The digits a number is printed with and the power of ten they are scaled by. -/
def shortestDecimal (x : FiniteDouble) : ℕ × ℤ :=
  ((List.range 17).findSome? fun k => x.candidateDecimal (k + 1)).getD x.exactDecimal

/-- The decimal has a digit other than zero and rounds back to the number. -/
def RoundsBack (x : FiniteDouble) (d : ℕ × ℤ) : Prop :=
  0 < d.1 ∧ ofDecimal x.negative d.1 d.2 = .finite x

variable {x : FiniteDouble}

lemma roundsBack_exactDecimal (h : x.significand ≠ 0) : x.RoundsBack x.exactDecimal := by
  have hvalue : ((x.exactDecimal.1 : ℕ) : ℚ) * 10 ^ x.exactDecimal.2 = x.magnitude := by
    unfold exactDecimal magnitude
    by_cases hexp : 0 ≤ x.exponent
    · obtain ⟨n, hn⟩ := Int.eq_ofNat_of_zero_le hexp
      simp [hn]
    · obtain ⟨n, hn⟩ := Int.eq_ofNat_of_zero_le (show 0 ≤ -x.exponent by omega)
      have hneg : x.exponent = -(n : ℤ) := by omega
      have hten : (10 : ℚ) ^ n = 2 ^ n * 5 ^ n := by
        rw [← mul_pow]
        norm_num
      simp only [if_neg hexp, hn, Int.toNat_natCast, cast_mul, cast_pow, cast_ofNat]
      rw [hneg, zpow_neg, zpow_neg, zpow_natCast, zpow_natCast, hten]
      field_simp
  constructor
  · unfold exactDecimal
    split <;> positivity
  · rw [ofDecimal, hvalue, ofMagnitude_magnitude]

lemma roundsBack_candidateDecimal {k : ℕ} {d : ℕ × ℤ} (h : x.candidateDecimal k = some d) :
    x.RoundsBack d := by
  simp only [candidateDecimal, Option.map_eq_some_iff] at h
  obtain ⟨s, hs, hd⟩ := h
  have hcheck : 0 < s ∧ ofDecimal x.negative s (Int.log 10 x.magnitude + 1 - k) = .finite x := by
    simpa using List.find?_some hs
  split at hd
  · rename_i hpow
    refine hd ▸ ⟨one_pos, ?_⟩
    rw [← hcheck.2, ofDecimal, ofDecimal, hpow]
    congr 1
    push_cast
    rw [zpow_add₀ (by norm_num : (10 : ℚ) ≠ 0), zpow_natCast]
    ring
  · exact hd ▸ hcheck

lemma roundsBack_shortestDecimal (h : x.significand ≠ 0) : x.RoundsBack x.shortestDecimal := by
  unfold shortestDecimal
  cases hfind : (List.range 17).findSome? fun k => x.candidateDecimal (k + 1) with
  | none => exact roundsBack_exactDecimal h
  | some d =>
    obtain ⟨_, _, hk⟩ := List.exists_of_findSome?_eq_some hfind
    exact roundsBack_candidateDecimal hk

end FiniteDouble
