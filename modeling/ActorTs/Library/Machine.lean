import Mathlib.Data.List.Basic

/-!
# Machines with effects

A machine takes one input after the other, and each step leaves a list of effects. A
property is shown of all that a run reaches from what one step preserves, and the effects
of a run are those of its steps in order.
-/

open List

namespace ActorTs.Machine

variable {σ ι ε : Type*} (step : σ → ι → σ) (effects : σ → ι → List ε)

/-- The state after the inputs of a run. -/
def run (s : σ) (inputs : List ι) : σ := inputs.foldl step s

/-- The effects of a run. -/
def log : σ → List ι → List ε
  | _, [] => []
  | s, i :: inputs => effects s i ++ log (step s i) inputs

/-- Along a run, each input in the state it meets. -/
def Along (P : σ → ι → Prop) : σ → List ι → Prop
  | _, [] => True
  | s, i :: inputs => P s i ∧ Along P (step s i) inputs

instance decidableAlong (P : σ → ι → Prop) [∀ s i, Decidable (P s i)] :
    ∀ s inputs, Decidable (Along step P s inputs)
  | _, [] => .isTrue trivial
  | s, i :: inputs =>
    have := decidableAlong P (step s i) inputs
    inferInstanceAs (Decidable (P s i ∧ Along step P (step s i) inputs))

variable (s : σ)

@[simp] lemma run_nil : run step s [] = s := rfl

@[simp] lemma run_cons (i : ι) (inputs : List ι) :
    run step s (i :: inputs) = run step (step s i) inputs := rfl

variable (inputs later : List ι)

lemma run_append : run step s (inputs ++ later) = run step (run step s inputs) later :=
  foldl_append

@[simp] lemma log_nil : log step effects s [] = [] := rfl

@[simp] lemma log_cons (i : ι) (inputs : List ι) :
    log step effects s (i :: inputs) = effects s i ++ log step effects (step s i) inputs := rfl

lemma log_append : log step effects s (inputs ++ later) =
      log step effects s inputs ++ log step effects (run step s inputs) later := by
  induction inputs generalizing s with
  | nil => rfl
  | cons i inputs ih => simp [ih, append_assoc]

lemma log_toList (f : ι → Option ε) (s : σ) (inputs : List ι) :
    log step (fun _ i => (f i).toList) s inputs = inputs.filterMap f := by
  induction inputs generalizing s with
  | nil => rfl
  | cons i inputs ih =>
    rw [log_cons, ih, filterMap_cons]
    cases f i with
    | none => rfl
    | some e => rfl

variable {step effects} {P : σ → ι → Prop} {s : σ} {I : σ → Prop}

lemma Along.append {inputs later : List ι} :
    Along step P s (inputs ++ later) ↔
      Along step P s inputs ∧ Along step P (run step s inputs) later := by
  induction inputs generalizing s with
  | nil => simp [Along]
  | cons i inputs ih => simp [Along, ih, and_assoc]

variable {inputs : List ι}

lemma invariant (hstep : ∀ s i, P s i → I s → I (step s i)) (hP : Along step P s inputs)
    (hs : I s) : I (run step s inputs) := by
  induction inputs generalizing s with
  | nil => exact hs
  | cons i inputs ih => exact ih hP.2 (hstep s i hP.1 hs)

lemma invariant_log {I : List ε → σ → Prop}
    (hstep : ∀ past s i, P s i → I past s → I (past ++ effects s i) (step s i)) {past : List ε}
    (hP : Along step P s inputs) (hs : I past s) :
    I (past ++ log step effects s inputs) (run step s inputs) := by
  induction inputs generalizing s past with
  | nil => simpa using hs
  | cons i inputs ih =>
    rw [log_cons, ← append_assoc, run_cons]
    exact ih hP.2 (hstep past s i hP.1 hs)

lemma along_true : Along step (fun _ _ => True) s inputs := by
  induction inputs generalizing s with
  | nil => trivial
  | cons i inputs ih => exact ⟨trivial, ih⟩

lemma along_of_forall {P : ι → Prop} (h : ∀ i ∈ inputs, P i) :
    Along step (fun _ i => P i) s inputs := by
  induction inputs generalizing s with
  | nil => trivial
  | cons i inputs ih => exact ⟨h i mem_cons_self, ih fun j hj => h j (mem_cons_of_mem i hj)⟩

lemma along_of_invariant (hstep : ∀ s i, I s → I (step s i)) (hP : ∀ s i, I s → P s i) (hs : I s) :
    Along step P s inputs := by
  induction inputs generalizing s with
  | nil => trivial
  | cons i inputs ih => exact ⟨hP s i hs, ih (hstep s i hs)⟩

lemma along_iff_invariant {I J : σ → Prop} (hJ : ∀ s i, J s → J (step s i))
    (hI : ∀ s i, J s → I s → (I (step s i) ↔ P s i)) (hJs : J s) (hIs : I s) (inputs : List ι) :
    (∀ earlier later, inputs = earlier ++ later → I (run step s earlier)) ↔
      Along step P s inputs := by
  induction inputs generalizing s with
  | nil =>
    refine iff_of_true (fun earlier later h => ?_) trivial
    obtain ⟨rfl, -⟩ := append_eq_nil_iff.1 h.symm
    exact hIs
  | cons i inputs ih =>
    rw [Along, ← hI s i hJs hIs]
    constructor
    · intro h
      have hfirst : I (step s i) := h [i] inputs rfl
      refine ⟨hfirst, (ih (hJ s i hJs) hfirst).1 fun earlier later hsplit => ?_⟩
      exact h (i :: earlier) later (by rw [hsplit, cons_append])
    · rintro ⟨hfirst, halong⟩ earlier later hsplit
      cases earlier with
      | nil => exact hIs
      | cons j earlier =>
        rw [cons_append, List.cons.injEq] at hsplit
        obtain ⟨rfl, hsplit⟩ := hsplit
        exact (ih (hJ s i hJs) hfirst).2 halong earlier later hsplit

section Simulation

variable {σ' ι' : Type*} {step' : σ' → ι' → σ'} {effects' : σ' → ι' → List ε}
  {image : σ → ι → List ι'}

lemma simulate {R : σ → σ' → Prop} {P : σ → ι → Prop} (hstep : ∀ s s' i, P s i → R s s' →
      R (step s i) (run step' s' (image s i)) ∧ effects s i = log step' effects' s' (image s i))
    {s : σ} {s' : σ'} {inputs : List ι} (hP : Along step P s inputs) (hs : R s s') :
    R (run step s inputs) (run step' s' (log step image s inputs)) ∧
      log step effects s inputs = log step' effects' s' (log step image s inputs) := by
  induction inputs generalizing s s' with
  | nil => exact ⟨hs, rfl⟩
  | cons i inputs ih =>
    obtain ⟨hnext, heffects⟩ := hstep s s' i hP.1 hs
    obtain ⟨hrun, hlog⟩ := ih hP.2 hnext
    rw [run_cons, log_cons, log_cons, run_append, log_append]
    exact ⟨hrun, by rw [heffects, hlog]⟩

end Simulation

end ActorTs.Machine
