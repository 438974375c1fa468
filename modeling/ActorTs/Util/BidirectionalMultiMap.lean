import ActorTs.Library.OrderedMap

/-!
# Relations that are read both ways

A map of sets relates a key to the elements filed under it. A `BidirectionalMultiMap` keeps
one such map for each way. That they hold the same pairs, and that no participant is kept
without a partner, are fields of the structure.
-/

open List OrderedMap OrderedSet Nat

namespace OrderedSet

variable {α : Type*}

lemma size_le_of_subset {s t : OrderedSet α} (h : ∀ a, a ∈ s → a ∈ t) : s.size ≤ t.size :=
  (subperm_of_subset s.nodup h).length_le

lemma size_add_le [DecidableEq α] (s : OrderedSet α) (a : α) : (s.add a).size ≤ s.size + 1 := by
  unfold add
  split
  · exact le_succ _
  · exact le_of_eq length_append

end OrderedSet

namespace OrderedMap

variable {κ α : Type*} [DecidableEq κ] [DecidableEq α]

/-- What is filed under a key. -/
def partners (m : OrderedMap κ (OrderedSet α)) (k : κ) : OrderedSet α :=
  (m.get? k).getD .empty

/-- No key is kept with nothing filed under it. -/
def Partnered (m : OrderedMap κ (OrderedSet α)) : Prop :=
  ∀ k s, m.get? k = some s → ∃ a, a ∈ s

def link (m : OrderedMap κ (OrderedSet α)) (k : κ) (a : α) : OrderedMap κ (OrderedSet α) :=
  m.set k ((m.partners k).add a)

/-- A key goes with the last element filed under it. -/
def unlink (m : OrderedMap κ (OrderedSet α)) (k : κ) (a : α) : OrderedMap κ (OrderedSet α) :=
  if ((m.partners k).delete a).size = 0 then m.delete k
  else m.set k ((m.partners k).delete a)

variable {m : OrderedMap κ (OrderedSet α)}

omit [DecidableEq α] in
lemma partners_set (m : OrderedMap κ (OrderedSet α)) (k k' : κ) (s : OrderedSet α) :
    (m.set k s).partners k' = if k = k' then s else m.partners k' := by
  rw [partners, get?_set]
  split <;> rfl

omit [DecidableEq α] in
lemma partners_delete (m : OrderedMap κ (OrderedSet α)) (k k' : κ) :
    (m.delete k).partners k' = if k = k' then .empty else m.partners k' := by
  rw [partners, get?_delete]
  split <;> rfl

omit [DecidableEq α] in
lemma Partnered.has_iff (h : m.Partnered) (k : κ) : m.has k = true ↔ ∃ a, a ∈ m.partners k := by
  rw [has, partners]
  cases hk : m.get? k with
  | none => simp
  | some s => simpa using h k s hk

variable (m)

lemma mem_partners_link (k k' : κ) (a b : α) :
    b ∈ (m.link k a).partners k' ↔ k' = k ∧ b = a ∨ b ∈ m.partners k' := by
  rw [link, partners_set]
  by_cases hk : k = k'
  · subst hk
    simp
  · simp [hk, Ne.symm hk]

lemma mem_partners_unlink (k k' : κ) (a b : α) :
    b ∈ (m.unlink k a).partners k' ↔ b ∈ m.partners k' ∧ ¬(k' = k ∧ b = a) := by
  have hdelete : b ∈ (m.partners k).delete a ↔ b ∈ m.partners k ∧ b ≠ a :=
    mem_delete _ a b
  by_cases hk : k = k'
  · subst hk
    unfold unlink
    split
    · next hsize =>
      have hnot : b ∉ (m.partners k).delete a := fun hb =>
        absurd ((OrderedSet.size_pos_iff _).2 ⟨b, hb⟩) (hsize ▸ Nat.lt_irrefl 0)
      rw [partners_delete, if_pos rfl]
      simpa using fun hb hne => hnot (hdelete.2 ⟨hb, hne⟩)
    · rw [partners_set, if_pos rfl, hdelete]
      simp
  · unfold unlink
    split
    · rw [partners_delete, if_neg hk]
      simp [Ne.symm hk]
    · rw [partners_set, if_neg hk]
      simp [Ne.symm hk]

variable {m}

lemma Partnered.link (h : m.Partnered) (k : κ) (a : α) : (m.link k a).Partnered := by
  intro k' s hs
  rcases get?_set_cases hs with ⟨-, rfl⟩ | hs
  · exact ⟨a, (mem_add _ a a).2 (.inl rfl)⟩
  · exact h k' s hs

lemma Partnered.unlink (h : m.Partnered) (k : κ) (a : α) : (m.unlink k a).Partnered := by
  intro k' s hs
  unfold OrderedMap.unlink at hs
  split at hs
  · exact h k' s (get?_of_get?_delete hs)
  · next hsize =>
    rcases get?_set_cases hs with ⟨-, rfl⟩ | hs
    · exact (size_pos_iff _).1 (pos_of_ne_zero hsize)
    · exact h k' s hs

omit [DecidableEq α] in
lemma Partnered.delete (h : m.Partnered) (k : κ) : (m.delete k).Partnered :=
  fun k' s hs => h k' s (get?_of_get?_delete hs)

lemma unlink_all (m : OrderedMap κ (OrderedSet α)) (l : List κ) (a : α) :
    (∀ k b, b ∈ (l.foldl (fun m k => m.unlink k a) m).partners k ↔
      b ∈ m.partners k ∧ ¬(k ∈ l ∧ b = a)) ∧
    (m.Partnered → (l.foldl (fun m k => m.unlink k a) m).Partnered) := by
  induction l generalizing m with
  | nil => exact ⟨fun k b => by simp, id⟩
  | cons k' l ih =>
    obtain ⟨hmem, hpartnered⟩ := ih (m.unlink k' a)
    refine ⟨fun k b => ?_, fun h => hpartnered (h.unlink k' a)⟩
    rw [foldl_cons, hmem, mem_partners_unlink, mem_cons]
    tauto

end OrderedMap

structure BidirectionalMultiMap (κ ν : Type*) [DecidableEq κ] [DecidableEq ν] where
  forward : OrderedMap κ (OrderedSet ν)
  reverse : OrderedMap ν (OrderedSet κ)
  inverse : ∀ l r, r ∈ forward.partners l ↔ l ∈ reverse.partners r
  forwardPartnered : forward.Partnered
  reversePartnered : reverse.Partnered

namespace BidirectionalMultiMap

variable {κ ν : Type*} [DecidableEq κ] [DecidableEq ν] (m : BidirectionalMultiMap κ ν)

def empty : BidirectionalMultiMap κ ν where
  forward := .empty
  reverse := .empty
  inverse _ _ := by simp [OrderedMap.partners]
  forwardPartnered _ _ h := by simp at h
  reversePartnered _ _ h := by simp at h

def get (left : κ) : OrderedSet ν := m.forward.partners left

def getKeys (right : ν) : OrderedSet κ := m.reverse.partners right

def has (left : κ) (right : ν) : Bool := (m.get left).has right

def hasLeft (left : κ) : Bool := m.forward.has left

def hasRight (right : ν) : Bool := m.reverse.has right

def add (left : κ) (right : ν) : BidirectionalMultiMap κ ν where
  forward := m.forward.link left right
  reverse := m.reverse.link right left
  inverse l r := by
    rw [mem_partners_link, mem_partners_link, m.inverse]
    tauto
  forwardPartnered := m.forwardPartnered.link left right
  reversePartnered := m.reversePartnered.link right left

/-- The relation without a pair; whether it held the pair is `has`. -/
def delete (left : κ) (right : ν) : BidirectionalMultiMap κ ν where
  forward := m.forward.unlink left right
  reverse := m.reverse.unlink right left
  inverse l r := by
    rw [mem_partners_unlink, mem_partners_unlink, m.inverse]
    tauto
  forwardPartnered := m.forwardPartnered.unlink left right
  reversePartnered := m.reversePartnered.unlink right left

/-- The relation without a participant; whether it held any pair is `hasRight`. -/
def deleteRight (right : ν) : BidirectionalMultiMap κ ν where
  forward := (m.getKeys right).elems.foldl (fun f left => f.unlink left right) m.forward
  reverse := m.reverse.delete right
  inverse l r := by
    rw [(unlink_all m.forward _ right).1, partners_delete, m.inverse]
    by_cases hr : right = r
    · subst hr
      rw [if_pos rfl]
      exact ⟨fun h => absurd ⟨h.1, rfl⟩ h.2, fun h => absurd h (not_mem_empty l)⟩
    · rw [if_neg hr]
      exact ⟨And.left, fun h => ⟨h, fun h' => hr h'.2.symm⟩⟩
  forwardPartnered := (unlink_all m.forward _ right).2 m.forwardPartnered
  reversePartnered := m.reversePartnered.delete right

variable (left : κ) (right : ν)

lemma hasLeft_iff : m.hasLeft left = true ↔ ∃ right, right ∈ m.get left :=
  m.forwardPartnered.has_iff left

lemma hasRight_iff : m.hasRight right = true ↔ ∃ left, right ∈ m.get left := by
  rw [hasRight, m.reversePartnered.has_iff]
  exact exists_congr fun left => (m.inverse left right).symm

lemma mem_getKeys : left ∈ m.getKeys right ↔ right ∈ m.get left :=
  (m.inverse left right).symm

lemma has_iff : m.has left right = true ↔ right ∈ m.get left :=
  OrderedSet.has_iff _ _

lemma mem_get_add (l : κ) (right r : ν) :
    r ∈ (m.add left right).get l ↔ l = left ∧ r = right ∨ r ∈ m.get l :=
  mem_partners_link m.forward left l right r

lemma mem_get_delete (l : κ) (right r : ν) :
    r ∈ (m.delete left right).get l ↔ r ∈ m.get l ∧ ¬(l = left ∧ r = right) :=
  mem_partners_unlink m.forward left l right r

lemma get_add : (m.add left right).get left = (m.get left).add right :=
  (partners_set m.forward left left _).trans (if_pos rfl)

lemma get_add_of_ne {left l : κ} (h : left ≠ l) (right : ν) :
    (m.add left right).get l = m.get l :=
  (partners_set m.forward left l _).trans (if_neg h)

lemma mem_get_deleteRight (l : κ) (right r : ν) :
    r ∈ (m.deleteRight right).get l ↔ r ∈ m.get l ∧ r ≠ right := by
  rw [get, deleteRight, (unlink_all m.forward _ right).1]
  refine and_congr_right fun hr => not_congr ⟨And.right, ?_⟩
  rintro rfl
  exact ⟨(m.inverse l r).1 hr, rfl⟩

/-! ### The pairs that a relation holds -/

inductive Call (κ ν : Type*) where
  | add (left : κ) (right : ν)
  | delete (left : κ) (right : ν)
  | deleteRight (right : ν)

def call (m : BidirectionalMultiMap κ ν) : Call κ ν → BidirectionalMultiMap κ ν
  | .add left right => m.add left right
  | .delete left right => m.delete left right
  | .deleteRight right => m.deleteRight right

/-- The pairs after a call. -/
def Call.on (pairs : Set (κ × ν)) : Call κ ν → Set (κ × ν)
  | .add left right => insert (left, right) pairs
  | .delete left right => pairs \ {(left, right)}
  | .deleteRight right => {p ∈ pairs | p.2 ≠ right}

lemma mem_get_call {m : BidirectionalMultiMap κ ν} {pairs : Set (κ × ν)}
    (h : ∀ l r, r ∈ m.get l ↔ (l, r) ∈ pairs) (c : Call κ ν) (l : κ) (r : ν) :
    r ∈ (m.call c).get l ↔ (l, r) ∈ c.on pairs := by
  cases c with
  | add left right => rw [call, mem_get_add, h, Call.on, Set.mem_insert_iff, Prod.mk.injEq]
  | delete left right =>
    rw [call, mem_get_delete, h, Call.on, Set.mem_sdiff, Set.mem_singleton_iff, Prod.mk.injEq]
  | deleteRight right => rw [call, mem_get_deleteRight, h, Call.on, Set.mem_ofPred_eq]

/-- After any calls, both sides read the same pairs, and no participant is kept without one. -/
theorem reads_pairs (calls : List (Call κ ν)) (l : κ) (r : ν) :
    let m := calls.foldl call empty
    let pairs := calls.foldl Call.on ∅
    (m.has l r = true ↔ (l, r) ∈ pairs) ∧ (r ∈ m.get l ↔ (l, r) ∈ pairs) ∧
      (l ∈ m.getKeys r ↔ (l, r) ∈ pairs) ∧ (m.hasLeft l = true ↔ ∃ r, (l, r) ∈ pairs) ∧
        (m.hasRight r = true ↔ ∃ l, (l, r) ∈ pairs) := by
  intro m pairs
  have hmem : ∀ l r, r ∈ m.get l ↔ (l, r) ∈ pairs := by
    have hrun : ∀ (m : BidirectionalMultiMap κ ν) pairs, (∀ l r, r ∈ m.get l ↔ (l, r) ∈ pairs) →
        ∀ l r, r ∈ (calls.foldl call m).get l ↔ (l, r) ∈ calls.foldl Call.on pairs := by
      induction calls with
      | nil => exact fun _ _ h => h
      | cons c calls ih => exact fun m pairs h => ih _ _ (mem_get_call h c)
    exact hrun _ _ fun l r => by simp [get, empty, partners]
  simp only [has_iff, hasLeft_iff, hasRight_iff, mem_getKeys, hmem, and_self]

end BidirectionalMultiMap
