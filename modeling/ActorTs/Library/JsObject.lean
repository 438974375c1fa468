import ActorTs.Library.JsonNumber
import ActorTs.Library.OrderedMap

/-!
# Objects made from maps

`toObject` is the object that has a property for every binding of a map. An object
lists the properties whose names are array indices first, by their numbers, and the
others in the order in which they were made. So it binds what the map binds, and only
the order may be another.
-/

open JsonText

/-- The property name is an array index, in its one spelling. -/
def isArrayIndex (name : JsString) : Bool :=
  decide (decimal (digitsValue name) = name ∧ digitsValue name < 2 ^ 32 - 1)

variable {α : Type*}

/-- The order in which an object lists its properties. -/
def propertyOrder (l : List (JsString × α)) : List (JsString × α) :=
  (l.filter fun p => isArrayIndex p.1).mergeSort
      (fun p q => decide (digitsValue p.1 ≤ digitsValue q.1)) ++
    l.filter fun p => !isArrayIndex p.1

lemma propertyOrder_perm (l : List (JsString × α)) : (propertyOrder l).Perm l :=
  ((List.mergeSort_perm _ _).append_right _).trans (List.filter_append_perm _ l)

namespace OrderedMap

def toObject (m : OrderedMap JsString α) : OrderedMap JsString α :=
  ⟨propertyOrder m.entries, ((propertyOrder_perm m.entries).map Prod.fst).nodup_iff.2 m.nodupKeys⟩

variable (m : OrderedMap JsString α)

lemma mem_entries_toObject (p : JsString × α) : p ∈ m.toObject.entries ↔ p ∈ m.entries :=
  (propertyOrder_perm m.entries).mem_iff

lemma mem_toObject_iff (k : JsString) (a : α) :
    (k, a) ∈ m.toObject.entries ↔ m.get? k = some a := by
  rw [mem_entries_toObject, get?_eq_some_iff]

lemma forall_mem_toObject (P : JsString → α → Prop) :
    (∀ p ∈ m.toObject.entries, P p.1 p.2) ↔ ∀ k a, m.get? k = some a → P k a := by
  constructor
  · intro hP k a hk
    exact hP (k, a) ((mem_toObject_iff m k a).2 hk)
  · intro hP p hp
    exact hP p.1 p.2 ((mem_toObject_iff m p.1 p.2).1 hp)

@[simp] lemma get?_toObject (k : JsString) : m.toObject.get? k = m.get? k := by
  ext a
  rw [get?_eq_some_iff, get?_eq_some_iff, mem_entries_toObject]

@[simp] lemma size_toObject : m.toObject.size = m.size :=
  (propertyOrder_perm m.entries).length_eq

@[simp] lemma mem_keys_toObject (k : JsString) : k ∈ m.toObject.keys ↔ k ∈ m.keys := by
  rw [mem_keys_iff, mem_keys_iff]
  simp

lemma toObject_mapValues {β : Type*} (f : JsString → α → β) (m : OrderedMap JsString α) :
    (m.mapValues f).toObject = m.toObject.mapValues f := by
  ext1
  simp only [toObject, entries_mapValues, propertyOrder, List.map_append, List.filter_map]
  congr 1
  rw [List.map_mergeSort]
  · rfl
  · intro p _ q _
    rfl

lemma alike_toObject {β : Type*} {R : β → α → Prop} {m : OrderedMap JsString α}
    {f : JsString → α → β} (h : ∀ k a, m.get? k = some a → R (f k a) a) :
    Alike R (m.mapValues f).toObject m := by
  intro k
  rw [get?_toObject, get?_mapValues]
  cases hk : m.get? k with
  | none => exact .none
  | some a => exact .some (h k a hk)

end OrderedMap
