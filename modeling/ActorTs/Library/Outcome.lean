import Mathlib.Data.List.Forall2

/-!
# Computations that may fail

`Yields x p a` says when a computation succeeds and with what: it is `a` where
`p` holds and a failure elsewhere. The rules below compose such statements along
the computation, so that its condition is collected step by step.
-/

open List

namespace Outcome

variable {ε : Type*} {α β : Type}

def Yields (x : Except ε α) (p : Prop) (a : α) : Prop :=
  (p → x = .ok a) ∧ (¬ p → ∃ e, x = .error e)

variable {x : Except ε α} {f : α → Except ε β} {l' : List β} {l : List α} {R : α → β → Prop}

lemma bind_eq_ok {b : β} (h : (x >>= f) = .ok b) : ∃ a, x = .ok a ∧ f a = .ok b := by
  cases x with
  | error e => cases h
  | ok a => exact ⟨a, rfl, h⟩

lemma bind_eq_ok_iff {b : β} : (x >>= f) = .ok b ↔ ∃ a, x = .ok a ∧ f a = .ok b := by
  refine ⟨bind_eq_ok, ?_⟩
  rintro ⟨a, rfl, h⟩
  exact h

lemma map_eq_ok {f : α → β} {b : β} (h : f <$> x = .ok b) : ∃ a, x = .ok a ∧ f a = b := by
  cases x with
  | error e => cases h
  | ok a =>
    cases h
    exact ⟨a, rfl, rfl⟩

/-- A computation on every member of a list succeeds where it does on each. -/
lemma forall₂_of_mapM_eq_ok (h : l.mapM f = .ok l') :
    List.Forall₂ (fun a b => f a = .ok b) l l' := by
  induction l generalizing l' with
  | nil =>
    cases h
    exact .nil
  | cons a l ih =>
    rw [mapM_cons] at h
    obtain ⟨b, hb, h⟩ := bind_eq_ok h
    obtain ⟨bs, hbs, h⟩ := bind_eq_ok h
    cases h
    exact .cons hb (ih hbs)

lemma exists_of_forall₂ (h : List.Forall₂ R l l') {b : β} (hb : b ∈ l') : ∃ a ∈ l, R a b := by
  induction h with
  | nil => cases hb
  | @cons a c l l' hac _ ih =>
    rcases mem_cons.1 hb with rfl | hb
    · exact ⟨a, mem_cons_self, hac⟩
    · obtain ⟨a', ha', hR⟩ := ih hb
      exact ⟨a', mem_cons_of_mem _ ha', hR⟩

lemma map_eq_of_forall₂ {κ : Type*} {f : α → κ} {g : β → κ} (hR : ∀ a b, R a b → g b = f a)
    (h : List.Forall₂ R l l') : l'.map g = l.map f := by
  induction h with
  | nil => rfl
  | cons hab _ ih => rw [map_cons, map_cons, hR _ _ hab, ih]

namespace Yields

variable {x : Except ε α} {p q : Prop} {a : α} {b : β}

lemma ok (a : α) : Yields (.ok a : Except ε α) True a := ⟨fun _ => rfl, fun h => (h trivial).elim⟩

lemma error (e : ε) (a : α) : Yields (.error e) False a := ⟨False.elim, fun _ => ⟨e, rfl⟩⟩

/-- A computation whose outcome is known yields it under any condition that holds. -/
lemma of_eq_ok (h : x = .ok a) (hp : p) : Yields x p a := ⟨fun _ => h, fun h => (h hp).elim⟩

lemma iff (h : Yields x p a) (hpq : p ↔ q) : Yields x q a :=
  ⟨fun hq => h.1 (hpq.2 hq), fun hq => h.2 fun hp => hq (hpq.1 hp)⟩

lemma bind {f : α → Except ε β} (hx : Yields x p a) (hf : Yields (f a) q b) :
    Yields (x >>= f) (p ∧ q) b := by
  constructor
  · rintro ⟨hp, hq⟩
    rw [hx.1 hp]
    exact hf.1 hq
  · intro hpq
    by_cases hp : p
    · rw [hx.1 hp]
      exact hf.2 fun hq => hpq ⟨hp, hq⟩
    · obtain ⟨e, he⟩ := hx.2 hp
      rw [he]
      exact ⟨e, rfl⟩

lemma map (f : α → β) (hx : Yields x p a) : Yields (f <$> x) p (f a) := by
  constructor
  · intro hp
    rw [hx.1 hp]
    rfl
  · intro hp
    obtain ⟨e, he⟩ := hx.2 hp
    rw [he]
    exact ⟨e, rfl⟩

lemma seq (f : α → β) (hx : Yields x p a) : Yields (x >>= fun y => pure (f y)) p (f a) :=
  (hx.bind (ok (f a))).iff (and_iff_left trivial)

lemma guard {c : Prop} [Decidable c] (e : ε) (hx : Yields x p a) :
    Yields (if c then .error e else x) (¬ c ∧ p) a := by
  by_cases hc : c
  · rw [if_pos hc]
    exact (error e a).iff (by simp [hc])
  · rw [if_neg hc]
    exact hx.iff (by simp [hc])

lemma mapM {γ : Type} {f : γ → Except ε α} {p : γ → Prop} {g : γ → α} {l : List γ}
    (h : ∀ c ∈ l, Yields (f c) (p c) (g c)) : Yields (l.mapM f) (∀ c ∈ l, p c) (l.map g) := by
  induction l with
  | nil => exact (ok []).iff (by simp)
  | cons c l ih =>
    have htail := ih fun d hd => h d (mem_cons_of_mem _ hd)
    rw [mapM_cons]
    refine ((h c mem_cons_self).bind (htail.seq (g c :: ·))).iff ?_
    simp

lemma eq_of_eq_ok (hx : Yields x p a) {b : α} (h : x = .ok b) : p ∧ b = a := by
  by_cases hp : p
  · exact ⟨hp, Except.ok.inj (h.symm.trans (hx.1 hp))⟩
  · obtain ⟨e, he⟩ := hx.2 hp
    cases h.symm.trans he

lemma exists_ok_iff (hx : Yields x p a) : (∃ b, x = .ok b) ↔ p :=
  ⟨fun ⟨_, hb⟩ => (hx.eq_of_eq_ok hb).1, fun hp => ⟨a, hx.1 hp⟩⟩

end Yields

end Outcome
