import Mathlib.Data.List.Sublists

/-!
# The first of a stable sort

An order may hold two elements for equal. A stable sort then keeps them as they were
listed, so its first element is the one listed first among the least. Two sorts of
parts of one list that each know the first of the other therefore agree on it.
-/

open List Bool

namespace StableSort

variable {α : Type*} {l l₁ l₂ : List α} {a b : α}

lemma pair_sublist_or (ha : a ∈ l) (hb : b ∈ l) (hne : a ≠ b) :
    [a, b].Sublist l ∨ [b, a].Sublist l := by
  induction l with
  | nil => cases ha
  | cons c l ih =>
    rcases mem_cons.1 ha with rfl | ha'
    · rcases mem_cons.1 hb with rfl | hb'
      · exact absurd rfl hne
      · exact .inl ((singleton_sublist.2 hb').cons_cons a)
    · rcases mem_cons.1 hb with rfl | hb'
      · exact .inr ((singleton_sublist.2 ha').cons_cons b)
      · exact (ih ha' hb').imp (.cons c) (.cons c)

lemma not_pair_sublist_both (hl : l.Nodup) (hab : [a, b].Sublist l) :
    ¬ [b, a].Sublist l := by
  induction l with
  | nil => cases hab
  | cons c l ih =>
    obtain ⟨hc, hl⟩ := nodup_cons.1 hl
    intro hba
    cases hab with
    | cons _ hab =>
      cases hba with
      | cons _ hba => exact ih hl hab hba
      | cons_cons _ _ => exact hc (hab.subset (by simp))
    | cons_cons _ hb =>
      cases hba with
      | cons _ hba => exact hc (hba.subset (by simp))
      | cons_cons _ ha => exact hc (singleton_sublist.1 ha)

variable {le : α → α → Bool} (htotal : ∀ a b, le a b = true ∨ le b a = true)
  (htrans : ∀ a b c, le a b = true → le b c = true → le a c = true)

include htotal htrans

lemma head_le (h : (l.mergeSort le).head? = some a) (hb : b ∈ l) : le a b = true := by
  have hsorted := pairwise_mergeSort htrans (fun a b => or_eq_true_iff.2 (htotal a b)) l
  obtain ⟨rest, hrest⟩ := head?_eq_some_iff.1 h
  rw [hrest, pairwise_cons] at hsorted
  have hmem : b ∈ l.mergeSort le := mem_mergeSort.2 hb
  rw [hrest, mem_cons] at hmem
  rcases hmem with rfl | hmem
  · exact (htotal b b).elim id id
  · exact hsorted.1 b hmem

/-- What the order holds for no greater than the first is listed behind it. -/
lemma head_sublist (hl : l.Nodup) (h : (l.mergeSort le).head? = some a) (hb : b ∈ l)
    (hne : a ≠ b) (hle : le b a = true) : [a, b].Sublist l := by
  obtain ⟨rest, hrest⟩ := head?_eq_some_iff.1 h
  have ha : a ∈ l := (mergeSort_perm l le).subset (hrest ▸ mem_cons_self)
  refine (pair_sublist_or ha hb hne).resolve_right fun hba => ?_
  have hsorted : [b, a].Sublist (l.mergeSort le) :=
    pair_sublist_mergeSort htrans (fun a b => or_eq_true_iff.2 (htotal a b)) hle hba
  have hnodup : (l.mergeSort le).Nodup := (mergeSort_perm l le).nodup_iff.2 hl
  rw [hrest] at hsorted hnodup
  cases hsorted with
  | cons _ hsorted => exact (nodup_cons.1 hnodup).1 (hsorted.subset (by simp))
  | cons_cons _ _ => exact hne rfl

lemma head_eq_of_mem (hl : l.Nodup) (h₁ : l₁.Sublist l) (h₂ : l₂.Sublist l)
    (ha : (l₁.mergeSort le).head? = some a) (hb : (l₂.mergeSort le).head? = some b)
    (hab : a ∈ l₂) (hba : b ∈ l₁) : a = b := by
  by_contra hne
  have hfirst := head_sublist htotal htrans (hl.sublist h₁) ha hba hne
    (head_le htotal htrans hb hab)
  have hsecond := head_sublist htotal htrans (hl.sublist h₂) hb hab (Ne.symm hne)
    (head_le htotal htrans ha hba)
  exact not_pair_sublist_both hl (hfirst.trans h₁) (hsecond.trans h₂)

end StableSort
