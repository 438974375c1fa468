import Mathlib.Data.List.Basic

/-!
# Items in custody

Items arrive one after the other. Each is given on, waits, or is lost, and what is given on
goes in the order of the arrivals. `Custody.Sound` says so of the items but for some that
are in hand, which come after those that wait.
-/

structure Custody (α : Type*) where
  arrived : List α := []
  given : List α := []
  waiting : List α := []
  lost : List α := []

open List

namespace Custody

variable {α : Type*} {c : Custody α} {a : α} {inHand : List α}

structure Sound (c : Custody α) (inHand : List α) : Prop where
  all : c.arrived.Perm (c.given ++ c.waiting ++ inHand ++ c.lost)
  ordered : (c.given ++ c.waiting ++ inHand).Sublist c.arrived

lemma Sound.start : (({} : Custody α)).Sound [] := ⟨.refl _, .refl _⟩

lemma Sound.arrive (h : c.Sound []) (a : α) :
    ({ c with arrived := c.arrived ++ [a] } : Custody α).Sound [a] := by
  have hall := h.all
  rw [append_nil] at hall
  refine ⟨?_, ?_⟩
  · refine (hall.append_right [a]).trans ?_
    rw [append_assoc, append_assoc _ [a]]
    exact perm_append_comm.append_left _
  · have hordered := h.ordered
    rw [append_nil] at hordered
    exact hordered.append (.refl [a])

lemma Sound.give (h : c.Sound (a :: inHand)) (hnone : c.waiting = []) :
    ({ c with given := c.given ++ [a] } : Custody α).Sound inHand := by
  obtain ⟨hall, hordered⟩ := h
  rw [hnone, append_nil, ← singleton_append, ← append_assoc] at hall hordered
  refine ⟨?_, ?_⟩
  · rw [hnone, append_nil]
    exact hall
  · rw [hnone, append_nil]
    exact hordered

lemma Sound.wait (h : c.Sound (a :: inHand)) :
    ({ c with waiting := c.waiting ++ [a] } : Custody α).Sound inHand := by
  obtain ⟨hall, hordered⟩ := h
  rw [← singleton_append, ← append_assoc, append_assoc c.given] at hall hordered
  exact ⟨hall, hordered⟩

lemma Sound.lose (h : c.Sound (a :: inHand)) :
    ({ c with lost := c.lost ++ [a] } : Custody α).Sound inHand := by
  refine ⟨h.all.trans ?_, ?_⟩
  · rw [append_assoc, append_assoc _ inHand, cons_append]
    refine List.Perm.append_left _ ?_
    rw [← append_assoc]
    exact (perm_append_singleton a (inHand ++ c.lost)).symm
  · exact ((sublist_cons_self a inHand).append_left _).trans h.ordered

lemma Sound.takeUp (h : c.Sound []) : ({ c with waiting := [] } : Custody α).Sound c.waiting := by
  obtain ⟨hall, hordered⟩ := h
  rw [append_nil] at hall hordered
  refine ⟨?_, ?_⟩
  · rw [append_nil]
    exact hall
  · rw [append_nil]
    exact hordered

lemma Sound.loseAll (h : c.Sound inHand) :
    ({ c with lost := c.lost ++ inHand } : Custody α).Sound [] := by
  refine ⟨h.all.trans ?_, ?_⟩
  · rw [append_nil, append_assoc]
    exact perm_append_comm.append_left _
  · rw [append_nil]
    exact (sublist_append_left _ _).trans h.ordered

end Custody
