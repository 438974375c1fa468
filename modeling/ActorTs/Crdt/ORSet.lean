import ActorTs.Library.OrderedMap
import ActorTs.Util.RandomString

/-!
# The observed-remove set

Every `add` stamps the element with a tag, and `remove` tombstones the tags the
removing replica has seen. Both the live tags and the tombstones are filed under
the element's key, the string its identity function gives it, but `merge` vetoes
a tag that is tombstoned under any key.

A set is read here through two relations, `Live s key tag` and `Removed s key tag`; one lemma for
each operation says what it does to them. `Trim s` says that no key is filed with an empty set of
tags; on trimmed sets `equals` compares exactly the two relations.
-/

namespace ActorTs

open OrderedMap OrderedSet

abbrev ReplicaId := JsString

structure ElementEntry (E : Type*) where
  element : E
  tags : OrderedSet JsString

structure ORSet (E : Type*) where
  elements : OrderedMap JsString (ElementEntry E)
  tombstones : OrderedMap JsString (OrderedSet JsString)
  identity : E → JsString

/-- The union of two maps of sets, key by key; a key without tags is left out. -/
def unionMapOfSets (ours theirs : OrderedMap JsString (OrderedSet JsString)) :
    OrderedMap JsString (OrderedSet JsString) :=
  let keys := (OrderedSet.empty.addAll ours.keys).addAll theirs.keys
  OrderedMap.collect keys.elems fun key =>
    let merged := ((ours.get? key).getD OrderedSet.empty).addAll
      ((theirs.get? key).getD OrderedSet.empty).elems
    if merged.size > 0 then some merged else none

/-- Every tag of every bucket, as one set. -/
def flattenMapOfSets (map : OrderedMap JsString (OrderedSet JsString)) : OrderedSet JsString :=
  map.values.foldl (fun out tagSet => out.addAll tagSet.elems) OrderedSet.empty

def mapOfSetsEqual (ours theirs : OrderedMap JsString (OrderedSet JsString)) : Bool :=
  ours.equalsBy OrderedSet.equals theirs

namespace ORSet

variable {E : Type*}

def empty (identity : E → JsString) : ORSet E :=
  ⟨OrderedMap.empty, OrderedMap.empty, identity⟩

/-- The tag an `add` draws: the replica, a `#` and a random suffix, drawn again
while the element has the tag already, live or removed. `none` is the throw when
the draws are used up. -/
def mintTag (s : ORSet E) (replica : ReplicaId) (element : E) (draws : ℕ → JsString) :
    Option JsString :=
  let key := s.identity element
  let tagPrefix := replica ++ "#"
  let liveTags := (s.elements.get? key).map ElementEntry.tags
  let removedTags := s.tombstones.get? key
  (randomId draws fun suffix =>
    liveTags.any (·.has (tagPrefix ++ suffix)) ||
      removedTags.any (·.has (tagPrefix ++ suffix))).map (tagPrefix ++ ·)

/-- The set with `element` stamped by `tag`. The instance stored is the newest. -/
def addTag (s : ORSet E) (element : E) (tag : JsString) : ORSet E :=
  let key := s.identity element
  let existing := (s.elements.get? key).map ElementEntry.tags
  let tagsForKey := (existing.getD OrderedSet.empty).add tag
  { s with elements := s.elements.set key ⟨element, tagsForKey⟩ }

def add (s : ORSet E) (replica : ReplicaId) (element : E) (draws : ℕ → JsString) :
    Option (ORSet E) :=
  (s.mintTag replica element draws).map (s.addTag element)

def remove (s : ORSet E) (element : E) : ORSet E :=
  let key := s.identity element
  match s.elements.get? key with
  | none => s
  | some existing =>
    if existing.tags.size = 0 then s
    else
      let tombstoneTags := ((s.tombstones.get? key).getD OrderedSet.empty).addAll
        existing.tags.elems
      { s with
        elements := s.elements.delete key
        tombstones := s.tombstones.set key tombstoneTags }

def has (s : ORSet E) (element : E) : Bool :=
  match s.elements.get? (s.identity element) with
  | none => false
  | some entry => entry.tags.size > 0

def value (s : ORSet E) : List E :=
  (s.elements.values.filter fun entry => entry.tags.size > 0).map ElementEntry.element

/-- The tags of an entry that are not vetoed, or none when there is no entry. -/
def survivingTags (vetoedTags : OrderedSet JsString) (entry : Option (ElementEntry E)) :
    List JsString :=
  match entry with
  | none => []
  | some e => e.tags.elems.filter fun tag => !vetoedTags.has tag

/-- The merged entry of one key, or `none` when no tag survives. The local
instance of the element is preferred. -/
def mergeEntry (vetoedTags : OrderedSet JsString) (ours theirs : Option (ElementEntry E)) :
    Option (ElementEntry E) :=
  let merged := (OrderedSet.empty.addAll (survivingTags vetoedTags ours)).addAll
    (survivingTags vetoedTags theirs)
  if merged.size > 0 then
    match ours, theirs with
    | some e, _ => some ⟨e.element, merged⟩
    | none, some e => some ⟨e.element, merged⟩
    | none, none => none
  else none

def merge (s other : ORSet E) : ORSet E :=
  let mergedTombstones := unionMapOfSets s.tombstones other.tombstones
  let vetoedTags := flattenMapOfSets mergedTombstones
  let allKeys := (OrderedSet.empty.addAll s.elements.keys).addAll other.elements.keys
  { elements := OrderedMap.collect allKeys.elems fun key =>
      mergeEntry vetoedTags (s.elements.get? key) (other.elements.get? key)
    tombstones := mergedTombstones
    identity := s.identity }

def equals (s other : ORSet E) : Bool :=
  s.elements.equalsBy (fun entry otherEntry => entry.tags.equals otherEntry.tags)
      other.elements &&
    mapOfSetsEqual s.tombstones other.tombstones

end ORSet

section MapOfSets

/-- `tag` is in the bucket of `key`. -/
def InBucket (map : OrderedMap JsString (OrderedSet JsString)) (key tag : JsString) : Prop :=
  ∃ tags, map.get? key = some tags ∧ tag ∈ tags

variable (map : OrderedMap JsString (OrderedSet JsString))

lemma mem_getD_bucket (key tag : JsString) :
    tag ∈ (map.get? key).getD OrderedSet.empty ↔ InBucket map key tag := by
  unfold InBucket
  cases map.get? key with
  | none => simp
  | some tags => simp

lemma inBucket_unionMapOfSets (ours theirs : OrderedMap JsString (OrderedSet JsString))
    (key tag : JsString) :
    InBucket (unionMapOfSets ours theirs) key tag ↔
      InBucket ours key tag ∨ InBucket theirs key tag := by
  rw [InBucket]
  simp only [unionMapOfSets, get?_collect]
  have hkeys : ∀ h : InBucket ours key tag ∨ InBucket theirs key tag,
      key ∈ ((OrderedSet.empty.addAll ours.keys).addAll theirs.keys).elems := by
    rintro (⟨tags, h, -⟩ | ⟨tags, h, -⟩)
    · exact (mem_addAll _ _ _).2 (.inl ((mem_addAll _ _ _).2
        (.inr ((mem_keys_iff _ _).2 ⟨tags, h⟩))))
    · exact (mem_addAll _ _ _).2 (.inr ((mem_keys_iff _ _).2 ⟨tags, h⟩))
  have hmem : tag ∈ ((ours.get? key).getD OrderedSet.empty).addAll
        ((theirs.get? key).getD OrderedSet.empty).elems ↔
      InBucket ours key tag ∨ InBucket theirs key tag := by
    rw [mem_addAll, mem_getD_bucket, ← mem_def, mem_getD_bucket]
  constructor
  · rintro ⟨tags, htags, htag⟩
    split at htags
    · split at htags
      · rw [Option.some.injEq] at htags
        exact hmem.1 (htags ▸ htag)
      · cases htags
    · cases htags
  · intro h
    have hpos := (size_pos_iff _).2 ⟨tag, hmem.2 h⟩
    exact ⟨_, by rw [if_pos (hkeys h), if_pos hpos], hmem.2 h⟩

lemma mem_flattenMapOfSets (tag : JsString) :
    tag ∈ flattenMapOfSets map ↔ ∃ key, InBucket map key tag := by
  have hfold : ∀ (l : List (OrderedSet JsString)) (out : OrderedSet JsString),
      tag ∈ l.foldl (fun out tagSet => out.addAll tagSet.elems) out ↔
        tag ∈ out ∨ ∃ tags ∈ l, tag ∈ tags := by
    intro l
    induction l with
    | nil => simp
    | cons tags l ih =>
      intro out
      rw [List.foldl_cons, ih, mem_addAll]
      simp [or_assoc, mem_def]
  rw [flattenMapOfSets, hfold]
  simp only [not_mem_empty, false_or, values, List.mem_map, Prod.exists]
  constructor
  · rintro ⟨tags, ⟨key, tags', hmem, rfl⟩, htag⟩
    exact ⟨key, tags', (get?_eq_some_iff _ _ _).2 hmem, htag⟩
  · rintro ⟨key, tags, hget, htag⟩
    exact ⟨tags, ⟨key, tags, (get?_eq_some_iff _ _ _).1 hget, rfl⟩, htag⟩

end MapOfSets

namespace ORSet

variable {E : Type*}

/-- `tag` is filed live under `key`. -/
def Live (s : ORSet E) (key tag : JsString) : Prop :=
  ∃ entry, s.elements.get? key = some entry ∧ tag ∈ entry.tags

/-- `tag` is tombstoned under `key`. -/
def Removed (s : ORSet E) (key tag : JsString) : Prop := InBucket s.tombstones key tag

/-- No key is filed with an empty set of tags. -/
structure Trim (s : ORSet E) : Prop where
  live : ∀ key entry, s.elements.get? key = some entry → ∃ tag, tag ∈ entry.tags
  removed : ∀ key tags, s.tombstones.get? key = some tags → ∃ tag, tag ∈ tags

variable (s : ORSet E) (element : E)

lemma has_iff : s.has element = true ↔ ∃ tag, s.Live (s.identity element) tag := by
  unfold has Live
  cases s.elements.get? (s.identity element) with
  | none => simp
  | some entry => simp [size_pos_iff]

variable (identity : E → JsString) (key tag : JsString)

@[simp] lemma live_empty : ¬ (empty identity).Live key tag := by
  simp [Live, empty]

@[simp] lemma removed_empty : ¬ (empty identity).Removed key tag := by
  simp [Removed, InBucket, empty]

lemma trim_empty : (empty identity).Trim :=
  ⟨by simp [empty], by simp [empty]⟩

lemma live_addTag (key t : JsString) :
    (s.addTag element tag).Live key t ↔
      s.Live key t ∨ key = s.identity element ∧ t = tag := by
  unfold Live addTag
  simp only [get?_set]
  by_cases hkey : s.identity element = key
  · subst hkey
    cases s.elements.get? (s.identity element) with
    | none => simp
    | some entry => simp [or_comm]
  · have hne : key ≠ s.identity element := fun h => hkey h.symm
    simp [hkey, hne]

@[simp] lemma removed_addTag (key t : JsString) :
    (s.addTag element tag).Removed key t ↔ s.Removed key t := Iff.rfl

lemma trim_addTag {s : ORSet E} (h : s.Trim) (element : E) (tag : JsString) :
    (s.addTag element tag).Trim := by
  refine ⟨?_, h.removed⟩
  intro key entry hentry
  by_cases hkey : s.identity element = key
  · simp only [addTag, get?_set, hkey, if_true, Option.some.injEq] at hentry
    exact ⟨tag, by simp [← hentry]⟩
  · simp only [addTag, get?_set, hkey, if_false] at hentry
    exact h.live key entry hentry

lemma remove_cases : (s.remove element = s ∧ ∀ tag, ¬ s.Live (s.identity element) tag) ∨
      ∃ entry, s.elements.get? (s.identity element) = some entry ∧ 0 < entry.tags.size ∧
        s.remove element =
          { s with
            elements := s.elements.delete (s.identity element)
            tombstones := s.tombstones.set (s.identity element)
              (((s.tombstones.get? (s.identity element)).getD OrderedSet.empty).addAll
                entry.tags.elems) } := by
  unfold remove Live
  cases hentry : s.elements.get? (s.identity element) with
  | none => simp [hentry]
  | some entry =>
    by_cases hsize : entry.tags.size = 0
    · refine .inl ⟨by simp [hentry, hsize], ?_⟩
      rintro tag ⟨_, h, htag⟩
      rw [Option.some.injEq] at h
      have hpos := (size_pos_iff _).2 ⟨tag, h ▸ htag⟩
      omega
    · exact .inr ⟨entry, rfl, by omega, by simp [hentry, hsize]⟩

@[simp] lemma identity_remove : (s.remove element).identity = s.identity := by
  rcases remove_cases s element with ⟨h, -⟩ | ⟨entry, -, -, h⟩ <;> rw [h]

lemma live_remove :
    (s.remove element).Live key tag ↔ s.Live key tag ∧ key ≠ s.identity element := by
  rcases remove_cases s element with ⟨h, hdead⟩ | ⟨entry, -, -, h⟩
  · rw [h]
    constructor
    · intro hlive
      exact ⟨hlive, fun he => hdead tag (he ▸ hlive)⟩
    · exact And.left
  · rw [h]
    unfold Live
    simp only [get?_delete]
    by_cases hkey : s.identity element = key
    · simp [hkey]
    · have hne : key ≠ s.identity element := fun he => hkey he.symm
      simp [hkey, hne]

lemma removed_remove : (s.remove element).Removed key tag ↔
      s.Removed key tag ∨ key = s.identity element ∧ s.Live key tag := by
  rcases remove_cases s element with ⟨h, hdead⟩ | ⟨entry, hentry, -, h⟩
  · rw [h]
    constructor
    · exact .inl
    · rintro (hr | ⟨rfl, hlive⟩)
      · exact hr
      · exact absurd hlive (hdead tag)
  · rw [h]
    unfold Removed InBucket Live
    simp only [get?_set]
    by_cases hkey : s.identity element = key
    · subst hkey
      simp only [if_true, Option.some.injEq, exists_eq_left', mem_addAll,
        mem_getD_bucket, ← mem_def, hentry, true_and]
      exact Iff.rfl
    · have hne : key ≠ s.identity element := fun he => hkey he.symm
      simp [hkey, hne]

lemma trim_remove {s : ORSet E} (h : s.Trim) (element : E) : (s.remove element).Trim := by
  rcases remove_cases s element with ⟨he, -⟩ | ⟨entry, hentry, hsize, he⟩
  · rwa [he]
  · rw [he]
    constructor
    · intro key e hkey
      simp only [get?_delete] at hkey
      split at hkey
      · cases hkey
      · exact h.live key e hkey
    · intro key tags hkey
      simp only [get?_set] at hkey
      split at hkey
      · obtain ⟨tag, htag⟩ := (size_pos_iff _).1 hsize
        rw [Option.some.injEq] at hkey
        exact ⟨tag, hkey ▸ (mem_addAll _ _ _).2 (.inr htag)⟩
      · exact h.removed key tags hkey

variable (other : ORSet E)

@[simp] lemma removed_merge (key tag : JsString) :
    (s.merge other).Removed key tag ↔ s.Removed key tag ∨ other.Removed key tag :=
  inBucket_unionMapOfSets _ _ _ _

variable (vetoedTags : OrderedSet JsString)

lemma mem_survivingTags (entry : Option (ElementEntry E)) (tag : JsString) :
    tag ∈ survivingTags vetoedTags entry ↔
      (∃ e, entry = some e ∧ tag ∈ e.tags) ∧ tag ∉ vetoedTags := by
  cases entry with
  | none => simp [survivingTags]
  | some e => simp [survivingTags, mem_def, OrderedSet.has]

lemma mergeEntry_spec (ours theirs : Option (ElementEntry E)) :
    (mergeEntry vetoedTags ours theirs = none ∧
        ∀ tag, tag ∉ survivingTags vetoedTags ours ∧ tag ∉ survivingTags vetoedTags theirs) ∨
      ∃ e, mergeEntry vetoedTags ours theirs = some e ∧ (∃ tag, tag ∈ e.tags) ∧
        ∀ tag, tag ∈ e.tags ↔
          tag ∈ survivingTags vetoedTags ours ∨ tag ∈ survivingTags vetoedTags theirs := by
  have hmem : ∀ tag, tag ∈ (OrderedSet.empty.addAll (survivingTags vetoedTags ours)).addAll
      (survivingTags vetoedTags theirs) ↔
        tag ∈ survivingTags vetoedTags ours ∨ tag ∈ survivingTags vetoedTags theirs := by
    simp
  by_cases hsize : 0 < ((OrderedSet.empty.addAll (survivingTags vetoedTags ours)).addAll
      (survivingTags vetoedTags theirs)).size
  · obtain ⟨tag, htag⟩ := (size_pos_iff _).1 hsize
    right
    cases ours with
    | some e => exact ⟨⟨e.element, _⟩, if_pos hsize, ⟨tag, htag⟩, hmem⟩
    | none =>
      cases theirs with
      | some e => exact ⟨⟨e.element, _⟩, if_pos hsize, ⟨tag, htag⟩, hmem⟩
      | none => simp [survivingTags] at htag
  · left
    refine ⟨if_neg hsize, ?_⟩
    intro tag
    have hnot := (not_congr (size_pos_iff _)).1 hsize
    exact not_or.1 ((not_congr (hmem tag)).1 fun h => hnot ⟨tag, h⟩)

lemma get?_elements_merge (key : JsString) :
    (s.merge other).elements.get? key =
      mergeEntry (flattenMapOfSets (unionMapOfSets s.tombstones other.tombstones))
        (s.elements.get? key) (other.elements.get? key) := by
  simp only [merge, get?_collect]
  by_cases hmem : key ∈ ((OrderedSet.empty.addAll s.elements.keys).addAll other.elements.keys).elems
  · rw [if_pos hmem]
  · rw [if_neg hmem]
    have hnone := (not_congr (mem_addAll _ _ _)).1 hmem
    rw [not_or, mem_addAll, not_or, ← get?_eq_none_iff, ← get?_eq_none_iff] at hnone
    rw [hnone.1.2, hnone.2]
    simp [mergeEntry]

lemma live_merge (key tag : JsString) :
    (s.merge other).Live key tag ↔
      (s.Live key tag ∨ other.Live key tag) ∧
        ∀ k, ¬ s.Removed k tag ∧ ¬ other.Removed k tag := by
  have hveto : tag ∈ flattenMapOfSets (unionMapOfSets s.tombstones other.tombstones) ↔
      ∃ k, s.Removed k tag ∨ other.Removed k tag := by
    simp only [mem_flattenMapOfSets, inBucket_unionMapOfSets]
    exact Iff.rfl
  have hsurvive : tag ∈ survivingTags
        (flattenMapOfSets (unionMapOfSets s.tombstones other.tombstones)) (s.elements.get? key) ∨
      tag ∈ survivingTags (flattenMapOfSets (unionMapOfSets s.tombstones other.tombstones))
        (other.elements.get? key) ↔
      (s.Live key tag ∨ other.Live key tag) ∧
        ∀ k, ¬ s.Removed k tag ∧ ¬ other.Removed k tag := by
    rw [mem_survivingTags, mem_survivingTags, hveto]
    simp only [not_exists, not_or, Live]
    exact or_and_right.symm
  rw [← hsurvive, Live, get?_elements_merge]
  rcases mergeEntry_spec (flattenMapOfSets (unionMapOfSets s.tombstones other.tombstones))
    (s.elements.get? key) (other.elements.get? key) with ⟨h, hnone⟩ | ⟨e, h, -, htags⟩
  · simp [h, hnone tag]
  · simp [h, htags tag]

@[simp] lemma identity_merge : (s.merge other).identity = s.identity := rfl

lemma trim_merge : (s.merge other).Trim := by
  constructor
  · intro key entry hentry
    rw [get?_elements_merge] at hentry
    rcases mergeEntry_spec (flattenMapOfSets (unionMapOfSets s.tombstones other.tombstones))
      (s.elements.get? key) (other.elements.get? key) with ⟨h, -⟩ | ⟨e, h, hex, -⟩
    · rw [h] at hentry
      cases hentry
    · rw [h, Option.some.injEq] at hentry
      exact hentry ▸ hex
  · intro key tags htags
    simp only [merge, unionMapOfSets, get?_collect] at htags
    split at htags
    · split at htags
      · rename_i hsize
        rw [Option.some.injEq] at htags
        exact htags ▸ (size_pos_iff _).1 hsize
      · cases htags
    · cases htags

lemma equals_iff {s other : ORSet E} (hs : s.Trim) (ho : other.Trim) :
    s.equals other = true ↔
      (∀ key tag, s.Live key tag ↔ other.Live key tag) ∧
        ∀ key tag, s.Removed key tag ↔ other.Removed key tag := by
  rw [equals, Bool.and_eq_true, mapOfSetsEqual]
  exact and_congr (equalsBy_members_iff ElementEntry.tags hs.live ho.live)
    (equalsBy_members_iff id hs.removed ho.removed)

lemma equals_refl {s : ORSet E} (hs : s.Trim) : s.equals s = true :=
  (equals_iff hs hs).2 ⟨fun _ _ => Iff.rfl, fun _ _ => Iff.rfl⟩

/-! ### The merge laws

Commutativity and associativity hold of all sets: a merge unions what is live
and what is removed and drops the tags removed anywhere. Idempotence needs that
no live tag of the set is tombstoned, which is what the runs provide. -/

lemma merge_comm_equals : (s.merge other).equals (other.merge s) = true := by
  refine (equals_iff (trim_merge _ _) (trim_merge _ _)).2 ⟨?_, ?_⟩
  · intro key tag
    simp only [live_merge, and_comm, or_comm]
  · intro key tag
    simp only [removed_merge, or_comm]

lemma merge_assoc_equals (t u : ORSet E) :
    ((s.merge t).merge u).equals (s.merge (t.merge u)) = true := by
  refine (equals_iff (trim_merge _ _) (trim_merge _ _)).2 ⟨?_, ?_⟩
  · intro key tag
    simp only [live_merge, removed_merge, not_or, forall_and]
    tauto
  · intro key tag
    simp only [removed_merge, or_assoc]

lemma merge_self_equals {s : ORSet E} (hs : s.Trim)
    (hdisjoint : ∀ key key' tag, s.Live key tag → ¬ s.Removed key' tag) :
    (s.merge s).equals s = true := by
  refine (equals_iff (trim_merge _ _) hs).2 ⟨?_, ?_⟩
  · intro key tag
    simp only [live_merge, or_self, and_self, and_iff_left_iff_imp]
    exact fun hlive k => hdisjoint key k tag hlive
  · intro key tag
    simp only [removed_merge, or_self]

/-! ### Membership -/

lemma has_addTag (e : E) (tag : JsString) :
    (s.addTag element tag).has e = true ↔
      s.has e = true ∨ s.identity e = s.identity element := by
  simp only [has_iff, live_addTag, exists_or]
  exact or_congr Iff.rfl ⟨fun ⟨_, h, _⟩ => h, fun h => ⟨tag, h, rfl⟩⟩

lemma has_of_has_remove {s : ORSet E} {element e : E} (h : (s.remove element).has e = true) :
    s.has e = true := by
  obtain ⟨tag, htag⟩ := (has_iff _ _).1 h
  rw [identity_remove, live_remove] at htag
  exact (has_iff _ _).2 ⟨tag, htag.1⟩

lemma has_of_has_merge {s other : ORSet E} (hidentity : other.identity = s.identity) {e : E}
    (h : (s.merge other).has e = true) : s.has e = true ∨ other.has e = true := by
  obtain ⟨tag, htag⟩ := (has_iff _ _).1 h
  rw [identity_merge, live_merge] at htag
  rcases htag.1 with hlive | hlive
  · exact .inl ((has_iff _ _).2 ⟨tag, hlive⟩)
  · exact .inr ((has_iff _ _).2 ⟨tag, hidentity ▸ hlive⟩)

lemma has_of_equals {s other : ORSet E} (hs : s.Trim) (ho : other.Trim)
    (hidentity : other.identity = s.identity) (h : s.equals other = true) {e : E}
    (hhas : s.has e = true) : other.has e = true := by
  obtain ⟨tag, htag⟩ := (has_iff _ _).1 hhas
  refine (has_iff _ _).2 ⟨tag, ?_⟩
  rw [hidentity]
  exact (((equals_iff hs ho).1 h).1 _ tag).1 htag

/-! ### The elements of a set

A key files the element that was last added under it, so the elements listed by
`value` are those `has` reports, each once, as long as the identity function
tells elements apart. -/

/-- Every element is filed under its own key. -/
def Filed (s : ORSet E) : Prop :=
  ∀ key entry, s.elements.get? key = some entry → s.identity entry.element = key

lemma filed_empty : (empty identity).Filed := by
  simp [Filed, empty]

lemma filed_addTag {s : ORSet E} (h : s.Filed) (element : E) (tag : JsString) :
    (s.addTag element tag).Filed := by
  intro key entry hentry
  by_cases hkey : s.identity element = key
  · simp only [addTag, get?_set, hkey, if_true, Option.some.injEq] at hentry
    rw [← hentry]
    exact hkey
  · simp only [addTag, get?_set, hkey, if_false] at hentry
    exact h key entry hentry

lemma filed_remove {s : ORSet E} (h : s.Filed) (element : E) : (s.remove element).Filed := by
  rcases remove_cases s element with ⟨he, -⟩ | ⟨entry, -, -, he⟩
  · rwa [he]
  · rw [he]
    intro key e hkey
    simp only [get?_delete] at hkey
    split at hkey
    · cases hkey
    · exact h key e hkey

lemma mergeEntry_element {vetoedTags : OrderedSet JsString}
    {ours theirs : Option (ElementEntry E)} {entry : ElementEntry E}
    (h : mergeEntry vetoedTags ours theirs = some entry) :
    ∃ e, (ours = some e ∨ theirs = some e) ∧ e.element = entry.element := by
  simp only [mergeEntry] at h
  split at h
  · cases ours with
    | some e =>
      rw [Option.some.injEq] at h
      exact ⟨e, .inl rfl, by rw [← h]⟩
    | none =>
      cases theirs with
      | some e =>
        rw [Option.some.injEq] at h
        exact ⟨e, .inr rfl, by rw [← h]⟩
      | none => cases h
  · cases h

lemma filed_merge {s other : ORSet E} (hs : s.Filed) (ho : other.Filed)
    (hidentity : other.identity = s.identity) : (s.merge other).Filed := by
  intro key entry hentry
  rw [get?_elements_merge] at hentry
  obtain ⟨e, he | he, helement⟩ := mergeEntry_element hentry
  · rw [← helement]
    exact hs key e he
  · rw [← helement, identity_merge, ← hidentity]
    exact ho key e he

lemma mem_value_iff {s : ORSet E} (h : s.Filed) (hinj : Function.Injective s.identity)
    (element : E) : element ∈ s.value ↔ s.has element = true := by
  simp only [value, List.mem_map, List.mem_filter, values, Prod.exists,
    decide_eq_true_eq, has_iff, Live]
  constructor
  · rintro ⟨_, ⟨⟨key, entry, hmem, rfl⟩, hsize⟩, rfl⟩
    have hget := (get?_eq_some_iff _ _ _).2 hmem
    obtain ⟨tag, htag⟩ := (size_pos_iff _).1 hsize
    exact ⟨tag, entry, by rw [h key entry hget, hget], htag⟩
  · rintro ⟨tag, entry, hget, htag⟩
    refine ⟨entry, ⟨⟨_, _, (get?_eq_some_iff _ _ _).1 hget, rfl⟩, ?_⟩, ?_⟩
    · exact (size_pos_iff _).2 ⟨tag, htag⟩
    · exact hinj (h _ entry hget)

lemma nodup_value {s : ORSet E} (h : s.Filed) : s.value.Nodup := by
  have hkeys : s.value.map s.identity =
      (s.elements.entries.filter fun p => p.2.tags.size > 0).map Prod.fst := by
    simp only [value, values, List.filter_map, List.map_map]
    refine List.map_congr_left fun p hp => ?_
    exact h p.1 p.2 ((get?_eq_some_iff _ _ _).2 (List.mem_of_mem_filter hp))
  refine List.Nodup.of_map s.identity ?_
  rw [hkeys]
  exact s.elements.nodupKeys.sublist (List.Sublist.map Prod.fst List.filter_sublist)

end ORSet

end ActorTs
