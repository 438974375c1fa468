import Mathlib.Data.List.Pairwise
import Mathlib.Data.List.Sort

/-!
# Delivery in the order of a key

A consumer is told of values, in some order and some of them twice, and is delivered each of
them once and in the order of their keys. Where it keeps only the key of the last one
delivered, that works as long as what it is told of for the first time lies behind all that
it was told of before.
-/

variable {α κ : Type*} [LinearOrder κ] {key : α → κ} {told delivered batch : List α} {a b : α}

lemma pairwise_lt_insertionSort {le : α → α → Prop} [DecidableRel le] {l : List α}
    (hle : ∀ a b, le a b ↔ key a ≤ key b) (hdistinct : l.Pairwise fun a b => key a ≠ key b) :
    (l.insertionSort le).Pairwise fun a b => key a < key b := by
  have htotal : Std.Total le :=
    ⟨fun a b => by rw [hle, hle]; exact le_total _ _⟩
  have htrans : IsTrans α le :=
    ⟨fun a b c hab hbc => by rw [hle] at hab hbc ⊢; exact hab.trans hbc⟩
  have hne := (List.Perm.pairwise_iff (R := fun a b => key a ≠ key b) (fun h => Ne.symm h)
    (List.perm_insertionSort le l)).2 hdistinct
  exact ((List.pairwise_insertionSort le l).and hne).imp fun hab =>
    lt_of_le_of_ne ((hle _ _).1 hab.1) hab.2

/-- What was delivered runs upwards in the key and is just what was told. -/
structure Caught (key : α → κ) (told delivered : List α) : Prop where
  sorted : delivered.Pairwise fun a b => key a < key b
  mem_iff : ∀ a, a ∈ delivered ↔ a ∈ told

/-- The value is told for the second time, or lies behind all that was told. -/
def Timely (key : α → κ) (told : List α) (a : α) : Prop :=
  a ∈ told ∨ ∀ t ∈ told, key t < key a

open List

namespace Caught

lemma nil : Caught key [] [] := ⟨.nil, fun _ => Iff.rfl⟩

section

variable (h : Caught key told delivered)
include h

lemma nodup : delivered.Nodup :=
  h.sorted.imp fun hlt => ne_of_apply_ne key hlt.ne

lemma le_last (ha : a ∈ told) (hlast : delivered.getLast? = some b) : key a ≤ key b := by
  obtain ⟨before, rfl⟩ := getLast?_eq_some_iff.1 hlast
  rcases mem_append.1 ((h.mem_iff a).2 ha) with ha | ha
  · exact ((pairwise_append.1 h.sorted).2.2 a ha b (mem_singleton_self b)).le
  · rw [mem_singleton.1 ha]

lemma last_lt (hbehind : ∀ t ∈ told, key t < key a)
    (hlast : delivered.getLast? = some b) : key b < key a :=
  hbehind b ((h.mem_iff b).1 (mem_of_getLast? hlast))

lemma append (hsorted : batch.Pairwise fun a b => key a < key b)
    (hbehind : ∀ a ∈ batch, ∀ t ∈ told, key t < key a) :
    Caught key (told ++ batch) (delivered ++ batch) where
  sorted := pairwise_append.2 ⟨h.sorted, hsorted,
    fun t ht a ha => hbehind a ha t ((h.mem_iff t).1 ht)⟩
  mem_iff a := by rw [mem_append, mem_append, h.mem_iff]

lemma congr {told' : List α} (hmem : ∀ a, a ∈ told ↔ a ∈ told') : Caught key told' delivered :=
  ⟨h.sorted, fun a => (h.mem_iff a).trans (hmem a)⟩

lemma told_again (ha : a ∈ told) : Caught key (told ++ [a]) delivered :=
  h.congr fun b => by
    rw [mem_append, mem_singleton]
    exact ⟨.inl, fun hb => hb.elim id fun heq => heq ▸ ha⟩

end

end Caught
