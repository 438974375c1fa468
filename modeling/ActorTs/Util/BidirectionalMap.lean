import ActorTs.Library.OrderedMap

/-!
# Maps that are read both ways

A `BidirectionalMap` keeps two maps, one for each way. That they hold the same pairs is a
field of the structure, so that both ways of reading it agree.
-/

structure BidirectionalMap (κ ν : Type*) [DecidableEq κ] [DecidableEq ν] where
  forward : OrderedMap κ ν
  reverse : OrderedMap ν κ
  inverse : ∀ k v, forward.get? k = some v ↔ reverse.get? v = some k

open Option OrderedMap

namespace BidirectionalMap

variable {κ ν : Type*} [DecidableEq κ] [DecidableEq ν]

def empty : BidirectionalMap κ ν := ⟨.empty, .empty, fun _ _ => by simp⟩

def get? (m : BidirectionalMap κ ν) (k : κ) : Option ν := m.forward.get? k

def getKey? (m : BidirectionalMap κ ν) (v : ν) : Option κ := m.reverse.get? v

/-- The values without the one that a key has. -/
def withoutKey (m : BidirectionalMap κ ν) (k : κ) : OrderedMap ν κ :=
  match m.forward.get? k with
  | some v => m.reverse.delete v
  | none => m.reverse

lemma get?_withoutKey (m : BidirectionalMap κ ν) (k k' : κ) (v : ν) :
    (m.withoutKey k).get? v = some k' ↔ m.forward.get? k' = some v ∧ k' ≠ k := by
  have hinverse : ∀ {k}, m.forward.get? k = some v → m.forward.get? k' = some v → k' = k := by
    intro k hk hk'
    exact some.inj (((m.inverse k' v).1 hk').symm.trans ((m.inverse k v).1 hk))
  unfold withoutKey
  cases hk : m.forward.get? k with
  | none =>
    rw [← m.inverse]
    refine ⟨fun h => ⟨h, ?_⟩, And.left⟩
    rintro rfl
    exact nomatch hk.symm.trans h
  | some old =>
    rw [get?_delete]
    split
    · next hold =>
      subst hold
      refine ⟨nofun, fun h => absurd (hinverse hk h.1) h.2⟩
    · next hne =>
      rw [← m.inverse]
      refine ⟨fun h => ⟨h, ?_⟩, And.left⟩
      rintro rfl
      exact hne (some.inj (hk.symm.trans h))

/-- A pair that holds the key or the value already goes. -/
def set (m : BidirectionalMap κ ν) (k : κ) (v : ν) : BidirectionalMap κ ν where
  forward :=
    (match (m.withoutKey k).get? v with
      | some k' => m.forward.delete k'
      | none => m.forward).set k v
  reverse := (m.withoutKey k).set v k
  inverse k' v' := by
    have hforward : (match (m.withoutKey k).get? v with
        | some k' => m.forward.delete k'
        | none => m.forward).get? k' = some v' ↔
        m.forward.get? k' = some v' ∧ ¬(m.withoutKey k).get? v = some k' := by
      cases h : (m.withoutKey k).get? v with
      | none => simp
      | some held =>
        dsimp only
        rw [get?_delete]
        by_cases hk : k' = held
        · simp [hk]
        · simp [Ne.symm hk]
    rw [get?_set, get?_set]
    by_cases hk : k = k'
    · subst hk
      rw [if_pos rfl]
      by_cases hv : v = v'
      · simp [hv]
      · rw [if_neg hv, get?_withoutKey]
        exact ⟨fun h => absurd (some.inj h) hv, fun h => absurd rfl h.2⟩
    · have hk' : k' ≠ k := Ne.symm hk
      rw [if_neg hk, hforward, get?_withoutKey]
      by_cases hv : v = v'
      · subst hv
        rw [if_pos rfl]
        exact ⟨fun h => absurd ⟨h.1, hk'⟩ h.2, fun h => absurd (some.inj h) hk⟩
      · rw [if_neg hv, get?_withoutKey]
        refine ⟨fun h => ⟨h.1, hk'⟩, fun h => ⟨h.1, fun hheld => hv ?_⟩⟩
        exact some.inj (hheld.1.symm.trans h.1)

def delete (m : BidirectionalMap κ ν) (k : κ) : BidirectionalMap κ ν where
  forward := m.forward.delete k
  reverse := m.withoutKey k
  inverse k' v := by
    rw [get?_delete, get?_withoutKey]
    by_cases hk : k = k'
    · simp [hk]
    · simp [hk, Ne.symm hk]

end BidirectionalMap
