import ActorTs.Library.JsNumber
import Mathlib.Data.Nat.Cast.Field

/-!
# The 64 bits of a number

A number is stored as a sign, an exponent of eleven bits and a fraction of 52. The bits below the
sign are `significand + 2 ^ 52 * (exponent + 1074)`. One pattern stands for what is not a number;
all patterns with the top exponent and a fraction read as it.

`ofInt` is the number nearest to an integer and `FiniteDouble.integer?` the integer
that a number is.
-/

namespace FiniteDouble

/-- The integer that a number is. -/
def integer? (x : FiniteDouble) : Option ℤ :=
  let signed (n : ℕ) : ℤ := if x.negative then -n else n
  if 0 ≤ x.exponent then some (signed (x.significand * 2 ^ x.exponent.toNat))
  else if x.significand % 2 ^ (-x.exponent).toNat = 0 then
    some (signed (x.significand / 2 ^ (-x.exponent).toNat))
  else none

lemma magnitude_of_integer? {x : FiniteDouble} {n : ℤ} (h : x.integer? = some n) :
    ∃ m : ℕ, x.magnitude = m ∧ n = if x.negative then -(m : ℤ) else m := by
  unfold integer? at h
  simp only at h
  split at h
  · next hexp =>
    obtain ⟨k, hk⟩ := Int.eq_ofNat_of_zero_le hexp
    refine ⟨_, ?_, (Option.some.inj h).symm⟩
    rw [magnitude, hk]
    simp
  · next hexp =>
    obtain ⟨k, hk⟩ := Int.eq_ofNat_of_zero_le (show 0 ≤ -x.exponent by omega)
    have hneg : x.exponent = -(k : ℤ) := by omega
    split at h
    · next hmod =>
      refine ⟨_, ?_, (Option.some.inj h).symm⟩
      rw [hk, Int.toNat_natCast] at hmod ⊢
      have hpow : ((2 ^ k : ℕ) : ℚ) ≠ 0 := by positivity
      rw [Nat.cast_div (Nat.dvd_of_mod_eq_zero hmod) hpow, magnitude, hneg, zpow_neg,
        zpow_natCast, Nat.cast_pow, Nat.cast_ofNat, div_eq_mul_inv]
    · cases h

end FiniteDouble

namespace JsNumber

/-- The number nearest to an integer. -/
def ofInt (n : ℤ) : JsNumber := ofMagnitude (decide (n < 0)) n.natAbs

def isNegativeZero : JsNumber → Bool
  | .finite x => x.negative && decide (x.significand = 0)
  | _ => false

lemma ofInt_of_integer? {x : FiniteDouble} {n : ℤ} (h : x.integer? = some n)
    (hzero : isNegativeZero (.finite x) = false) : ofInt n = .finite x := by
  obtain ⟨m, hm, hn⟩ := FiniteDouble.magnitude_of_integer? h
  have hsign : decide (n < 0) = x.negative := by
    cases hneg : x.negative with
    | false =>
      rw [hneg, if_neg Bool.false_ne_true] at hn
      exact decide_eq_false (by omega)
    | true =>
      rw [hneg, if_pos rfl] at hn
      simp only [isNegativeZero, hneg, Bool.true_and, decide_eq_false_iff_not] at hzero
      have hpos := FiniteDouble.magnitude_pos hzero
      rw [hm, Nat.cast_pos] at hpos
      exact decide_eq_true (by omega)
  have habs : n.natAbs = m := by
    split at hn <;> omega
  rw [ofInt, hsign, habs, ← hm, ofMagnitude_magnitude]

def signBit (negative : Bool) : ℕ := if negative then 2 ^ 63 else 0

/-- The 64 bits of a number, as a natural. -/
def bits : JsNumber → ℕ
  | .nan => 2047 * 2 ^ 52 + 2 ^ 51
  | .infinity negative => signBit negative + 2047 * 2 ^ 52
  | .finite x => signBit x.negative + (x.significand + 2 ^ 52 * (x.exponent + 1074).toNat)

lemma canonical_subnormal (n : ℕ) : CanonicalDouble (n % 2 ^ 52) (-1074) := by
  unfold CanonicalDouble
  omega

lemma canonical_normal {e : ℕ} (n : ℕ) (h : ¬ e = 0) (h' : ¬ e = 2047) (hlt : e < 2048) :
    CanonicalDouble (2 ^ 52 + n % 2 ^ 52) (e - 1075) := by
  unfold CanonicalDouble
  omega

def ofBits (n : ℕ) : JsNumber :=
  let negative := decide (2 ^ 63 ≤ n % 2 ^ 64)
  if htop : n / 2 ^ 52 % 2048 = 2047 then
    if n % 2 ^ 52 = 0 then .infinity negative else .nan
  else if hlow : n / 2 ^ 52 % 2048 = 0 then
    .finite ⟨negative, n % 2 ^ 52, -1074, canonical_subnormal n⟩
  else
    .finite ⟨negative, 2 ^ 52 + n % 2 ^ 52, (n / 2 ^ 52 % 2048 : ℕ) - 1075,
      canonical_normal n hlow htop (Nat.mod_lt _ (by norm_num))⟩

lemma bits_lt (x : JsNumber) : x.bits < 2 ^ 64 := by
  cases x with
  | nan => decide
  | infinity negative => cases negative <;> decide
  | finite x =>
    obtain ⟨hlt, hlow, hhigh, -⟩ := x.canonical
    have hsign : signBit x.negative ≤ 2 ^ 63 := by cases x.negative <;> decide
    simp only [bits]
    omega

lemma ofBits_bits (x : JsNumber) : ofBits x.bits = x := by
  cases x with
  | nan => decide
  | infinity negative => cases negative <;> decide
  | finite x =>
    obtain ⟨negative, significand, exponent, hcanonical⟩ := x
    obtain ⟨hlt, hlow, hhigh, hnormal⟩ := id hcanonical
    have hsign : decide (2 ^ 63 ≤ (bits (.finite ⟨negative, significand, exponent,
        hcanonical⟩)) % 2 ^ 64) = negative := by
      cases negative
      · simp only [bits, signBit, Bool.false_eq_true, if_false, decide_eq_false_iff_not]
        omega
      · simp only [bits, signBit, if_true, decide_eq_true_eq]
        omega
    have hrest : ∃ s : ℕ, s % 2 ^ 63 = 0 ∧ bits (.finite ⟨negative, significand, exponent,
        hcanonical⟩) = s + (significand + 2 ^ 52 * (exponent + 1074).toNat) :=
      ⟨signBit negative, by cases negative <;> rfl, rfl⟩
    unfold ofBits
    by_cases hsub : significand < 2 ^ 52
    · have hexp : exponent = -1074 := by omega
      subst hexp
      rw [dif_neg (by omega), dif_pos (by omega)]
      congr 2
      omega
    · rw [dif_neg (by omega), dif_neg (by omega)]
      congr 2 <;> omega

end JsNumber
