import ActorTs.Library.JsString
import Mathlib.Data.Prod.Lex
import Mathlib.Tactic.Linarith

/-!
# Stamps

A stamp is a time, a name that tells apart what happened at one time, and a number that tells apart
what one name did at it. `Stamp.compare` answers with the sign of a number, as a comparator of a
sort does, and the order it decides is the lexicographic one.
-/

structure Stamp where
  timestamp : ℚ
  name : JsString
  number : ℕ
  deriving DecidableEq

namespace Stamp

def key (s : Stamp) : ℚ ×ₗ JsString ×ₗ ℕ := toLex (s.timestamp, toLex (s.name, s.number))

lemma key_injective : Function.Injective key := by
  rintro ⟨t, n, k⟩ ⟨t', n', k'⟩ h
  simpa [key] using h

instance : LinearOrder Stamp := LinearOrder.lift' key key_injective

variable {a b : Stamp}

lemma lt_iff :
    a < b ↔ a.timestamp < b.timestamp ∨ a.timestamp = b.timestamp ∧
      (a.name < b.name ∨ a.name = b.name ∧ a.number < b.number) := by
  change a.key < b.key ↔ _
  rw [Prod.Lex.lt_iff]
  refine or_congr Iff.rfl (and_congr Iff.rfl ?_)
  exact Prod.Lex.lt_iff

/-- The difference of the first parts that differ. -/
def compare (a b : Stamp) : ℚ :=
  if a.timestamp ≠ b.timestamp then a.timestamp - b.timestamp
  else if a.name ≠ b.name then (if a.name < b.name then -1 else 1)
  else (a.number : ℚ) - b.number

lemma compare_neg_iff : compare a b < 0 ↔ a < b := by
  rw [compare, lt_iff]
  by_cases htime : a.timestamp = b.timestamp
  · rw [if_neg (not_not.2 htime)]
    by_cases hname : a.name = b.name
    · rw [if_neg (not_not.2 hname), sub_neg, Nat.cast_lt]
      simp [htime, hname]
    · rw [if_pos hname]
      by_cases hlt : a.name < b.name
      · simp [htime, hlt]
      · simp [htime, hname, hlt]
  · rw [if_pos htime, sub_neg]
    simp [htime]

lemma compare_swap (a b : Stamp) : compare b a = -compare a b := by
  rw [compare, compare]
  by_cases htime : a.timestamp = b.timestamp
  · rw [if_neg (not_not.2 htime), if_neg (not_not.2 htime.symm)]
    by_cases hname : a.name = b.name
    · rw [if_neg (not_not.2 hname), if_neg (not_not.2 hname.symm), neg_sub]
    · rw [if_pos hname, if_pos (Ne.symm hname)]
      rcases lt_or_gt_of_ne hname with hlt | hgt
      · rw [if_pos hlt, if_neg hlt.not_gt, neg_neg]
      · rw [if_pos hgt, if_neg hgt.not_gt]
  · rw [if_pos htime, if_pos (Ne.symm htime), neg_sub]

lemma compare_pos_iff : 0 < compare a b ↔ b < a := by
  rw [← compare_neg_iff, compare_swap a b, neg_lt_zero]

lemma compare_nonpos_iff : compare a b ≤ 0 ↔ a ≤ b := by
  rw [← not_lt, compare_pos_iff, not_lt]

end Stamp
