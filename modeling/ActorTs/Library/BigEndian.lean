import ActorTs.Library.Utf8
import Mathlib.Data.Nat.Digits.Lemmas

/-!
# Naturals as bytes

`BigEndian.bytes k n` holds a natural in `k` bytes, the most significant one first,
and drops what does not fit. `BigEndian.minimalBytes` uses as many bytes as it takes,
and one for zero. `BigEndian.value` reads either form.
-/

open List Nat

namespace BigEndian

def bytes : ℕ → ℕ → Bytes
  | 0, _ => []
  | k + 1, n => bytes k (n / 256) ++ [UInt8.ofNat n]

def value (data : Bytes) : ℕ := data.foldl (fun n b => 256 * n + b.toNat) 0

def minimalBytes (n : ℕ) : Bytes :=
  if n = 0 then [0] else ((Nat.digits 256 n).map UInt8.ofNat).reverse

lemma length_bytes (k n : ℕ) : (bytes k n).length = k := by
  induction k generalizing n with
  | zero => rfl
  | succ k ih => rw [bytes, length_append, ih, length_singleton]

lemma value_concat (data : Bytes) (b : UInt8) :
    value (data ++ [b]) = 256 * value data + b.toNat := by
  rw [value, foldl_append]
  rfl

lemma value_bytes (k n : ℕ) : value (bytes k n) = n % 256 ^ k := by
  induction k generalizing n with
  | zero => rw [pow_zero, mod_one, bytes, value, foldl_nil]
  | succ k ih =>
    have hbyte : (UInt8.ofNat n).toNat = n % 256 := UInt8.toNat_ofNat'
    rw [bytes, value_concat, ih, hbyte, pow_succ', mod_mul, add_comm]

lemma value_bytes_of_lt {k n : ℕ} (h : n < 256 ^ k) : value (bytes k n) = n := by
  rw [value_bytes, mod_eq_of_lt h]

lemma value_reverse {ds : List ℕ} (h : ∀ d ∈ ds, d < 256) :
    value (ds.map UInt8.ofNat).reverse = Nat.ofDigits 256 ds := by
  induction ds with
  | nil => rfl
  | cons d ds ih =>
    rw [forall_mem_cons] at h
    rw [map_cons, reverse_cons, value_concat, ih h.2, ofDigits_cons, Utf8.toNat_byte h.1]
    exact add_comm _ _

lemma value_minimalBytes (n : ℕ) : value (minimalBytes n) = n := by
  unfold minimalBytes
  split
  · next h =>
    rw [h]
    rfl
  · rw [value_reverse fun d hd => digits_lt_base (by norm_num) hd, ofDigits_digits]

lemma length_minimalBytes_le {n k : ℕ} (hk : 0 < k) (h : n < 256 ^ k) :
    (minimalBytes n).length ≤ k := by
  unfold minimalBytes
  split
  · exact hk
  · rw [length_reverse, length_map]
    exact (digits_length_le_iff (by norm_num) n).2 h

end BigEndian
