import Mathlib.Data.List.Basic

/-!
# Arrivals that are kept or lost

Items arrive one after the other, each with whether there was no room for it. `Dealt` says
that each of them was kept or lost, in the order they came, and lost only where there was no
room. It is built at the end, as a log is.
-/

variable {α : Type*}

inductive Dealt : List (α × Bool) → List α → List α → Prop
  | nil : Dealt [] [] []
  | keep {arrivals kept lost} (a : α) (full : Bool) (h : Dealt arrivals kept lost) :
      Dealt (arrivals ++ [(a, full)]) (kept ++ [a]) lost
  | lose {arrivals kept lost} (a : α) (h : Dealt arrivals kept lost) :
      Dealt (arrivals ++ [(a, true)]) kept (lost ++ [a])

open List

namespace Dealt

variable {arrivals : List (α × Bool)} {kept lost : List α}

lemma sublist (h : Dealt arrivals kept lost) : kept.Sublist (arrivals.map Prod.fst) := by
  induction h with
  | nil => exact List.Sublist.slnil
  | keep a full _ ih =>
    rw [map_append]
    exact ih.append (List.Sublist.refl [a])
  | lose a _ ih =>
    rw [map_append]
    exact ih.trans (sublist_append_left _ _)

lemma length (h : Dealt arrivals kept lost) : kept.length + lost.length = arrivals.length := by
  induction h with
  | nil => rfl
  | keep a full _ ih =>
    rw [length_append, length_append, ← ih, length_singleton, length_singleton]
    omega
  | lose a _ ih =>
    rw [length_append, length_append, ← ih, length_singleton, length_singleton]
    omega

end Dealt
