import Mathlib.Algebra.BigOperators.Ring.Finset
import Mathlib.Algebra.Order.BigOperators.Group.Finset
import Mathlib.Tactic.Linarith
import Mathlib.Tactic.Ring

/-!
# Loads and the moves between them

A load says how many units lie at each of some places. Moving one unit changes the sum of
the squares of the loads by what the two places held, so a move to a place that holds two
less makes the sum smaller. Loads that differ by one at most and come to a multiple of the
number of places are all alike.
-/

open Nat Finset

namespace ActorTs.Loads

variable {ι : Type*} [DecidableEq ι] {K : Finset ι} {f g : ι → ℕ} {x y : ι}

/-- One unit has gone from `x` to `y`. -/
def Moves (x y : ι) (f g : ι → ℕ) : Prop :=
  ∀ a, g a + (if x = a then 1 else 0) = f a + if y = a then 1 else 0

lemma Moves.eq_of_self (h : Moves x x f g) : g = f := by
  funext a
  have ha := h a
  omega

lemma Moves.sum_sq (h : Moves x y f g) (hne : x ≠ y) :
    ∑ a ∈ K, g a ^ 2 + (if x ∈ K then 2 * f x else 0) =
      ∑ a ∈ K, f a ^ 2 + (if x ∈ K then 1 else 0) + if y ∈ K then 2 * f y + 1 else 0 := by
  have hpoint : ∀ a, g a ^ 2 + (if x = a then 2 * f x else 0) =
      f a ^ 2 + (if x = a then 1 else 0) + if y = a then 2 * f y + 1 else 0 := by
    intro a
    have ha := h a
    by_cases hx : x = a
    · subst hx
      simp only [if_true, if_neg (Ne.symm hne), add_zero] at ha ⊢
      rw [← ha]
      ring
    · by_cases hy : y = a
      · subst hy
        simp only [if_neg hx, if_true, add_zero] at ha ⊢
        rw [ha]
        ring
      · simp only [if_neg hx, if_neg hy, add_zero] at ha ⊢
        rw [ha]
  have hsum := sum_congr (rfl : K = K) fun a _ => hpoint a
  simpa only [sum_add_distrib, sum_ite_eq] using hsum

omit [DecidableEq ι] in
/-- Loads within one of the least of them are all alike where they share out evenly. -/
lemma eq_of_card_dvd_sum {z : ι} (hz : z ∈ K) (hle : ∀ a ∈ K, f z ≤ f a ∧ f a ≤ f z + 1)
    (hdvd : K.card ∣ ∑ a ∈ K, f a) : ∀ a ∈ K, f a = f z := by
  by_contra hex
  push Not at hex
  obtain ⟨a, ha, hne⟩ := hex
  have hlow : K.card * f z < ∑ a ∈ K, f a := by
    rw [← sum_const_nat (f := fun _ => f z) fun _ _ => rfl]
    refine sum_lt_sum (fun b hb => (hle b hb).1) ⟨a, ha, ?_⟩
    exact lt_of_le_of_ne (hle a ha).1 (Ne.symm hne)
  have hhigh : ∑ a ∈ K, f a < K.card * (f z + 1) := by
    rw [← sum_const_nat (f := fun _ => f z + 1) fun _ _ => rfl]
    exact sum_lt_sum (fun b hb => (hle b hb).2) ⟨z, hz, lt_succ_self _⟩
  obtain ⟨q, hq⟩ := hdvd
  rw [hq] at hlow hhigh
  have h1 := lt_of_mul_lt_mul_left hlow
  have h2 := lt_of_mul_lt_mul_left hhigh
  omega

end ActorTs.Loads
