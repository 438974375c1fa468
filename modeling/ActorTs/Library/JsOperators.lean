import ActorTs.Library.Float64
import ActorTs.Library.JsArithmetic
import ActorTs.Library.JsonNumber

/-!
# Operators on numbers

Comparisons, sums, the smaller and the greater of two numbers, and the text of a number, for
all numbers: those that are not finite take part. Nothing compares with what is not a
number.
-/

namespace JsNumber

open FiniteDouble

def isFinite : JsNumber → Bool
  | .finite _ => true
  | _ => false

/-- `x <= y`. -/
def le : JsNumber → JsNumber → Bool
  | .nan, _ => false
  | _, .nan => false
  | .infinity true, _ => true
  | _, .infinity false => true
  | .infinity false, _ => false
  | _, .infinity true => false
  | .finite x, .finite y => decide (x.toRat ≤ y.toRat)

/-- `x < y`. -/
def lt (x y : JsNumber) : Bool := le x y && !le y x

/-- `x === y`. -/
def eq (x y : JsNumber) : Bool := le x y && le y x

lemma isFinite_of_isInteger {x : JsNumber} (h : x.isInteger = true) : x.isFinite = true := by
  cases x with
  | nan => cases h
  | infinity negative => cases h
  | finite x => rfl

lemma le_of_not_lt {x y : JsNumber} (hx : x.isFinite = true) (hy : y.isFinite = true)
    (h : x.lt y ≠ true) : le y x = true := by
  cases x with
  | nan => cases hx
  | infinity negative => cases hx
  | finite x =>
    cases y with
    | nan => cases hy
    | infinity negative => cases hy
    | finite y =>
      rw [lt, ne_eq, Bool.and_eq_true, Bool.not_eq_true', not_and, Bool.not_eq_false] at h
      rcases LinearOrder.le_total x.toRat y.toRat with hle | hle
      · exact h (decide_eq_true hle)
      · exact decide_eq_true hle

/-- `x + y`. The sum of two numbers that cancel is a positive zero. -/
def add : JsNumber → JsNumber → JsNumber
  | .nan, _ => .nan
  | _, .nan => .nan
  | .infinity a, .infinity b => if a = b then .infinity a else .nan
  | .infinity a, .finite _ => .infinity a
  | .finite _, .infinity b => .infinity b
  | .finite x, .finite y =>
    let sum := x.toRat + y.toRat
    let negative := if sum = 0 then x.negative && y.negative else decide (sum < 0)
    ofMagnitude negative |sum|

/-- `Math.min(x, y)`. A negative zero is the smaller one of two zeros. -/
def min (x y : JsNumber) : JsNumber :=
  if x = .nan ∨ y = .nan then .nan
  else if lt x y || (le x y && x.isNegativeZero) then x else y

/-- `Math.max(x, y)`. -/
def max (x y : JsNumber) : JsNumber :=
  if x = .nan ∨ y = .nan then .nan
  else if lt x y || (le x y && x.isNegativeZero) then y else x

/-- `String(x)`. -/
def text : JsNumber → JsString
  | .nan => "NaN"
  | .infinity negative => (if negative then "-Infinity" else "Infinity").toJs
  | .finite x => JsonText.numberText (.finite x)

/-- The least natural that is not below a number, and none for one that is above all. -/
def ceiling : JsNumber → Option ℕ
  | .nan => some 0
  | .infinity negative => if negative then some 0 else none
  | .finite x => some ⌈x.toRat⌉₊

lemma one_le_ceiling {x : JsNumber} {m : ℕ} (h : le (.ofInt 1) x = true)
    (hm : x.ceiling = some m) : 1 ≤ m := by
  cases x with
  | nan =>
    unfold le at h
    split at h <;> simp_all
  | infinity negative =>
    cases negative with
    | false => cases hm
    | true => exact absurd h (by decide +kernel)
  | finite x =>
    have hone : ofInt 1 = .finite ⟨false, 2 ^ 52, -52, by decide⟩ := by decide +kernel
    have hle : (1 : ℚ) ≤ x.toRat := by
      rw [hone] at h
      have hrat : (FiniteDouble.mk false (2 ^ 52) (-52) (by decide)).toRat = 1 := by
        decide +kernel
      rw [← hrat]
      exact of_decide_eq_true h
    cases hm
    exact Nat.one_le_iff_ne_zero.2 fun hzero => by
      rw [Nat.ceil_eq_zero] at hzero
      exact absurd (hle.trans hzero) (by norm_num)

end JsNumber
