import ActorTs.Library.JsonNumber

/-!
# Ceilings of the codecs

The writers stop at a fixed depth and at integers of a fixed width. A reader may be
told to stop earlier, never later: `ReadConstraints` holds the ceilings that its
options passed on to it, with what their check requires of them.
-/

namespace ActorTs.Serialization

/-- The depth at which a writer stops. -/
def maxNestingDepth : ℕ := 256

def defaultMaxNestingDepth : ℕ := maxNestingDepth

/-- What a decoder is allowed to do; a ceiling of zero is none. -/
structure ReadConstraints where
  maxNestingDepth : ℕ := defaultMaxNestingDepth
  maxDocumentBytes : ℕ := 0
  maxStringLength : ℕ := 20 * 1024 * 1024
  maxNestingDepth_pos : 0 < maxNestingDepth := by decide
  maxNestingDepth_le : maxNestingDepth ≤ Serialization.maxNestingDepth := by decide

def maxBignumBytes : ℕ := 1024

@[irreducible] def maxBignumMagnitude : ℕ := 2 ^ (maxBignumBytes * 8) - 1

@[irreducible] def maxBigintDigits : ℕ := (JsonText.decimal maxBignumMagnitude).length

/-- The magnitude under which a bignum is stored. -/
def bignumMagnitude (n : ℤ) : ℕ := (if n < 0 then -1 - n else n).toNat

def outsideBignumRange (n : ℤ) : Bool := decide (maxBignumMagnitude < bignumMagnitude n)

def bignumRange : JsString :=
  let bits := JsonText.decimal (maxBignumBytes * 8)
  "-2^" ++ bits ++ " to 2^" ++ bits ++ " - 1"

lemma maxBignumMagnitude_eq : maxBignumMagnitude = 2 ^ 8192 - 1 := by
  have hbits : maxBignumBytes * 8 = 8192 := rfl
  delta maxBignumMagnitude
  exact congrArg (fun k => 2 ^ k - 1) hbits

lemma outsideBignumRange_iff_of_eq {k : ℕ} (h : maxBignumMagnitude = 2 ^ k - 1) {n : ℤ} :
    outsideBignumRange n = false ↔ -(2 : ℤ) ^ k ≤ n ∧ n ≤ 2 ^ k - 1 := by
  have hpos : 0 < 2 ^ k := Nat.two_pow_pos k
  have hcast : ((2 ^ k : ℕ) : ℤ) = 2 ^ k := by
    rfl
  rw [outsideBignumRange, decide_eq_false_iff_not, h, bignumMagnitude, ← hcast]
  split <;> omega

lemma outsideBignumRange_iff {n : ℤ} :
    outsideBignumRange n = false ↔ -(2 : ℤ) ^ 8192 ≤ n ∧ n ≤ 2 ^ 8192 - 1 :=
  outsideBignumRange_iff_of_eq maxBignumMagnitude_eq

end ActorTs.Serialization
