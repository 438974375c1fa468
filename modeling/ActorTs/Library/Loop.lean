import Mathlib.Data.Option.Basic
import Mathlib.Order.Basic

/-!
# Loops that end

`repeatWhile step n s` takes the steps that there are, one after the other, and no more than
`n` of them. Where each step makes a measure smaller, a bound of the measure is enough for
the loop to go on until there is no step left.
-/

namespace ActorTs.Loop

variable {σ τ : Type*}

/-- Step for as long as there is a step, at most `n` times. -/
def repeatWhile (step : σ → Option σ) : ℕ → σ → σ
  | 0, s => s
  | n + 1, s =>
    match step s with
    | none => s
    | some s' => repeatWhile step n s'

variable {step : σ → Option σ} {R : σ → τ → Prop} {s : σ} {t : τ}

lemma repeatWhile_invariant {I : σ → Prop} (hstep : ∀ s s', step s = some s' → I s → I s') (n : ℕ)
    (hs : I s) : I (repeatWhile step n s) := by
  induction n generalizing s with
  | zero => exact hs
  | succ n ih =>
    rw [repeatWhile]
    cases h : step s with
    | none => exact hs
    | some s' => exact ih (hstep s s' h hs)

lemma step_repeatWhile (μ : σ → ℕ) (hμ : ∀ s s', step s = some s' → μ s' < μ s) {n : ℕ}
    (hn : μ s ≤ n) : step (repeatWhile step n s) = none := by
  induction n generalizing s with
  | zero =>
    rw [repeatWhile]
    cases h : step s with
    | none => rfl
    | some s' =>
      have hlt := hμ s s' h
      omega
  | succ n ih =>
    rw [repeatWhile]
    cases h : step s with
    | none => exact h
    | some s' =>
      have hlt := hμ s s' h
      exact ih (by omega)

/-- Two loops whose steps agree, with the same bound, end in states that agree. -/
lemma repeatWhile_rel {step' : τ → Option τ}
    (hstep : ∀ s t, R s t → Option.Rel R (step s) (step' t)) (n : ℕ) (h : R s t) :
    R (repeatWhile step n s) (repeatWhile step' n t) := by
  induction n generalizing s t with
  | zero => exact h
  | succ n ih =>
    rw [repeatWhile, repeatWhile]
    have hrel := hstep s t h
    revert hrel
    cases step s with
    | none =>
      cases step' t with
      | none => exact fun _ => h
      | some t' => rintro ⟨⟩
    | some s' =>
      cases step' t with
      | none => rintro ⟨⟩
      | some t' =>
        rintro ⟨hnext⟩
        exact ih hnext

/-- A loop over a list and one over the members that are seen agree, where the others change
nothing that is compared. -/
lemma foldl_filter_rel {α : Type*} {f : σ → α → σ} {g : τ → α → τ} {p : α → Bool}
    (hseen : ∀ s t a, p a = true → R s t → R (f s a) (g t a))
    (hhidden : ∀ s t a, p a = false → R s t → R (f s a) t) (l : List α) (h : R s t) :
    R (l.foldl f s) ((l.filter p).foldl g t) := by
  induction l generalizing s t with
  | nil => exact h
  | cons a l ih =>
    cases hp : p a with
    | true =>
      rw [List.filter_cons_of_pos hp, List.foldl_cons]
      exact ih (hseen s t a hp h)
    | false =>
      rw [List.filter_cons_of_neg (by simp [hp])]
      exact ih (hhidden s t a hp h)

end ActorTs.Loop
