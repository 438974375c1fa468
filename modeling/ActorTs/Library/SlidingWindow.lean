import Mathlib.Algebra.Order.Group.Defs
import Mathlib.Algebra.Order.Sub.Basic
import Mathlib.Data.List.Basic

/-!
# A sliding window

At most `m` times are to be granted within any stretch of length `w`. It is enough to
remember the times that were granted and to forget those that are older than `w`: a time
is granted while fewer than `m` are left.
-/

open List

namespace ActorTs.SlidingWindow

variable {τ : Type*} [AddCommGroup τ] [LinearOrder τ]

/-- The times that a stretch of length `w` ending now still covers. -/
def recent (w now : τ) (times : List τ) : List τ :=
  times.filter fun time => decide (now - w ≤ time)

/-- No closed stretch of length `w` holds more than `m` of the times. -/
def Spaced (m : ℕ) (w : τ) (times : List τ) : Prop :=
  ∀ start, (times.filter fun time => decide (start ≤ time ∧ time ≤ start + w)).length ≤ m

lemma recent_append (w now : τ) (times more : List τ) :
    recent w now (times ++ more) = recent w now times ++ recent w now more :=
  filter_append ..

lemma spaced_nil (m : ℕ) (w : τ) : Spaced m w [] := fun _ => by simp

variable [IsOrderedAddMonoid τ]

lemma recent_recent {w now later : τ} (h : now ≤ later) (times : List τ) :
    recent w later (recent w now times) = recent w later times := by
  rw [recent, recent, filter_filter, recent]
  refine filter_congr fun time _ => ?_
  by_cases hlater : later - w ≤ time
  · have hnow : now - w ≤ time := le_trans (sub_le_sub_right h w) hlater
    simp [hlater, hnow]
  · simp [hlater]

lemma Spaced.concat {m : ℕ} {w now : τ} {times : List τ} (h : Spaced m w times)
    (hroom : (recent w now times).length < m) : Spaced m w (times ++ [now]) := by
  intro start
  rw [filter_append, length_append]
  by_cases hnow : start ≤ now ∧ now ≤ start + w
  · have hcovered (time : τ) : decide (start ≤ time ∧ time ≤ start + w) = true →
        decide (now - w ≤ time) = true := by
      intro htime
      have hstart : now - w ≤ start := sub_le_iff_le_add.2 hnow.2
      exact decide_eq_true (hstart.trans (of_decide_eq_true htime).1)
    have hle : (times.filter fun time => decide (start ≤ time ∧ time ≤ start + w)).length ≤
        (recent w now times).length :=
      (monotone_filter_right times hcovered).length_le
    have hone : ([now].filter fun time => decide (start ≤ time ∧ time ≤ start + w)).length = 1 := by
      simp [hnow]
    omega
  · have hnone : [now].filter (fun time => decide (start ≤ time ∧ time ≤ start + w)) = [] := by
      simp only [filter_cons, decide_eq_true_eq, hnow, if_false, filter_nil]
    rw [hnone, length_nil, Nat.add_zero]
    exact h start

end ActorTs.SlidingWindow
