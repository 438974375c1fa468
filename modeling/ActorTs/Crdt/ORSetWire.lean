import ActorTs.Crdt.KeyedFrames
import ActorTs.Crdt.ORSet

/-!
# The frame of an observed-remove set

A frame lists the tags of every key, the text of the element a key files, and the
buckets of tombstones. `fromJSON` reads the elements back and files each under the key
that the receiver's own identity function gives it, or under the sender's key where it
has none. Entries that come under one key are merged, and a bucket moves with the
element whose sender's key it has.

The only frames of a set that are refused are those that are too large or name a key `__proto__`;
`Sendable` says so over the set. The set that is read is `refile`.
-/

open List OrderedSet

namespace ActorTs

open OrderedMap WireElement

open Outcome

structure ORSetJson where
  elements : OrderedMap JsString (List JsString)
  elementValues : Option (OrderedMap JsString JsString)
  tombstones : OrderedMap JsString (List JsString)

def mapOfSetsToObject (map : OrderedMap JsString (OrderedSet JsString)) :
    OrderedMap JsString (List JsString) :=
  (map.mapValues fun _ tagSet => tagSet.elems).toObject

/-- The buckets of a frame, each under the key its element is filed under here. -/
def objectToMapOfSets (obj : OrderedMap JsString (List JsString))
    (localKeys : OrderedMap JsString JsString) : OrderedMap JsString (OrderedSet JsString) :=
  gather (fun bucket tagSet => bucket.addAll tagSet.elems)
    (obj.entries.map fun p => ((localKeys.get? p.1).getD p.1, OrderedSet.empty.addAll p.2))

namespace ORSet

variable {E : Type} [WireElement E]

def toJSON (s : ORSet E) : ORSetJson where
  elements := (s.elements.mapValues fun _ entry => entry.tags.elems).toObject
  elementValues :=
    some (s.elements.mapValues fun _ entry => stringify entry.element).toObject
  tombstones := mapOfSetsToObject s.tombstones

def decodeElement (elementValues : Option (OrderedMap JsString JsString))
    (custom : Option (E → JsString)) (p : JsString × List JsString) :
    Except CrdtDecodeError (Decoded (ElementEntry E)) := do
  let tags ← assertStringArray p.2 (propertyPath "ORSet.elements" p.1)
  let element ← parseElement (rawText elementValues p.1)
  pure ⟨p.1, keyUnder custom p.1 element, ⟨element, OrderedSet.empty.addAll tags⟩⟩

/-- Entries that collapse onto one key keep the element that was filed first. -/
def collapse (existing entry : ElementEntry E) : ElementEntry E :=
  ⟨existing.element, existing.tags.addAll entry.tags.elems⟩

/-- The set that the decoder returns at the end of its loop. -/
def assemble (custom : Option (E → JsString)) (tombstones : OrderedMap JsString (List JsString))
    (decoded : List (Decoded (ElementEntry E))) : ORSet E where
  elements := fileUnder collapse decoded
  tombstones := objectToMapOfSets tombstones (localKeys decoded)
  identity := custom.getD stringify

def fromJSON (json : ORSetJson) (custom : Option (E → JsString)) :
    Except CrdtDecodeError (ORSet E) := do
  let buckets ← safeEntries json.tombstones "ORSet.tombstones"
  let _ ← buckets.mapM fun p => assertStringArray p.2 (propertyPath "ORSet.tombstones" p.1)
  let decoded ← decodeAll json.elements "ORSet.elements"
    (decodeElement json.elementValues custom)
  pure (assemble custom json.tombstones decoded)

/-- The decoder takes the frame of the set: nothing in it is too large, and no key is
`__proto__`. -/
structure Sendable (s : ORSet E) : Prop where
  elements : Admissible s.elements
  tags : ∀ key entry, s.elements.get? key = some entry → entry.tags.size ≤ maxCrdtEntries
  tombstones : Admissible s.tombstones
  buckets : ∀ key tags, s.tombstones.get? key = some tags → tags.size ≤ maxCrdtEntries

/-- An entry of the set as the decoder reads it. -/
def decodedElement (custom : Option (E → JsString)) (wireKey : JsString)
    (entry : ElementEntry E) : Decoded (ElementEntry E) :=
  ⟨wireKey, keyUnder custom wireKey (normal entry.element),
    ⟨normal entry.element, entry.tags⟩⟩

/-- The entries of the set as the decoder reads them. -/
def decodedElements (s : ORSet E) (custom : Option (E → JsString)) :
    List (Decoded (ElementEntry E)) :=
  s.elements.toObject.entries.map fun p => decodedElement custom p.1 p.2

/-- The set as the decoder reads it. -/
def refile (s : ORSet E) (custom : Option (E → JsString)) : ORSet E :=
  assemble custom s.toJSON.tombstones (s.decodedElements custom)

lemma entries_tombstones_toJSON (s : ORSet E) : s.toJSON.tombstones.entries =
    s.tombstones.toObject.entries.map fun p => (p.1, p.2.elems) := by
  change (mapValues _ s.tombstones).toObject.entries = _
  rw [toObject_mapValues, entries_mapValues]

lemma yields_decodeElement {elementValues : Option (OrderedMap JsString JsString)}
    (custom : Option (E → JsString)) {key : JsString} {entry : ElementEntry E}
    (htext : rawText elementValues key = stringify entry.element) :
    Yields (decodeElement elementValues custom (key, entry.tags.elems))
      (entry.tags.size ≤ maxCrdtEntries) (decodedElement custom key entry) := by
  have hvalue : decodedElement custom key entry = ⟨key, keyUnder custom key (normal entry.element),
        ⟨normal entry.element, OrderedSet.empty.addAll entry.tags.elems⟩⟩ := by
    rw [addAll_empty]
    rfl
  rw [decodeElement, htext, hvalue]
  refine Yields.iff (Yields.bind (yields_assertBoundedArray _ _ _)
    (Yields.seq _ (yields_parseElement entry.element))) ?_
  exact and_iff_left trivial

lemma yields_fromJSON_of_texts (s : ORSet E) (custom : Option (E → JsString))
    {elementValues : Option (OrderedMap JsString JsString)}
    (htext : ∀ key entry, s.elements.get? key = some entry →
      rawText elementValues key = stringify entry.element) :
    Yields (fromJSON ⟨s.toJSON.elements, elementValues, s.toJSON.tombstones⟩ custom) s.Sendable
      (s.refile custom) := by
  have hbuckets : Yields (s.toJSON.tombstones.entries.mapM fun p =>
        assertStringArray p.2 (propertyPath "ORSet.tombstones" p.1))
      (∀ p ∈ s.tombstones.toObject.entries, p.2.size ≤ maxCrdtEntries)
      (s.tombstones.toObject.entries.map fun p => p.2.elems) := by
    rw [entries_tombstones_toJSON, mapM_map]
    exact Yields.mapM fun p _ => yields_assertBoundedArray p.2.elems _ _
  have helements : Yields (decodeAll
        (s.elements.mapValues fun _ entry => entry.tags.elems).toObject "ORSet.elements"
        (decodeElement elementValues custom))
      (Admissible s.elements ∧
        ∀ key entry, s.elements.get? key = some entry → entry.tags.size ≤ maxCrdtEntries)
      (s.decodedElements custom) :=
    yields_decodeAll (fun key entry h => yields_decodeElement custom (htext key entry h)) _
  refine Yields.iff (Yields.bind (yields_safeEntries s.toJSON.tombstones _)
    (Yields.bind hbuckets (Yields.seq _ helements))) ?_
  have hbucketsIff := forall_mem_toObject s.tombstones fun _ tags =>
    tags.size ≤ maxCrdtEntries
  constructor
  · rintro ⟨htombstones, hbuckets, helements, htags⟩
    exact ⟨helements, htags, (admissible_toObject _ _).1 htombstones, hbucketsIff.1 hbuckets⟩
  · rintro ⟨helements, htags, htombstones, hbuckets⟩
    exact ⟨(admissible_toObject _ _).2 htombstones, hbucketsIff.2 hbuckets, helements, htags⟩

lemma yields_fromJSON (s : ORSet E) (custom : Option (E → JsString)) :
    Yields (fromJSON s.toJSON custom) s.Sendable (s.refile custom) :=
  yields_fromJSON_of_texts s custom fun _ _ h =>
    rawText_toObject s.elements (fun entry => stringify entry.element) h

lemma eq_refile_of_fromJSON {s t : ORSet E} {custom : Option (E → JsString)}
    (h : fromJSON s.toJSON custom = .ok t) : t = s.refile custom :=
  ((yields_fromJSON s custom).eq_of_eq_ok h).2

/-- Tags filed under keys fit into a frame: the keys are few, the tags of each are few, and
none is filed under `__proto__`. -/
structure Fits (filed : JsString → JsString → Prop) : Prop where
  keys : { key | ∃ tag, filed key tag }.ncard ≤ maxCrdtEntries
  tags : ∀ key, { tag | filed key tag }.ncard ≤ maxCrdtEntries
  protoKey : ∀ tag, ¬ filed protoKey tag

lemma admissible_iff_fits {α : Type} (members : α → OrderedSet JsString)
    {m : OrderedMap JsString α} (hm : ∀ key a, m.get? key = some a → ∃ tag, tag ∈ members a) :
    (Admissible m ∧ ∀ key a, m.get? key = some a → (members a).size ≤ maxCrdtEntries) ↔
      Fits fun key tag => ∃ a, m.get? key = some a ∧ tag ∈ members a := by
  have hkeys : ∀ key, key ∈ m.keys ↔ ∃ tag a, m.get? key = some a ∧ tag ∈ members a := by
    intro key
    rw [mem_keys_iff]
    constructor
    · rintro ⟨a, ha⟩
      obtain ⟨tag, htag⟩ := hm key a ha
      exact ⟨tag, a, ha, htag⟩
    · rintro ⟨_, a, ha, -⟩
      exact ⟨a, ha⟩
  have hcard : { key | ∃ tag a, m.get? key = some a ∧ tag ∈ members a }.ncard = m.size := by
    rw [← ncard_keys]
    simp only [hkeys]
  have htags : ∀ key a, m.get? key = some a →
      { tag | ∃ a, m.get? key = some a ∧ tag ∈ members a }.ncard = (members a).size := by
    intro key a ha
    rw [← ncard_mem]
    simp [ha]
  constructor
  · rintro ⟨⟨hsize, hproto⟩, hmembers⟩
    refine ⟨hcard.le.trans hsize, ?_, fun tag h => hproto ((hkeys _).2 ⟨tag, h⟩)⟩
    intro key
    cases ha : m.get? key with
    | none => simp
    | some a => exact ha ▸ (htags key a ha).le.trans (hmembers key a ha)
  · rintro ⟨hsize, hmembers, hproto⟩
    refine ⟨⟨hcard.symm.le.trans hsize, ?_⟩, ?_⟩
    · intro hmem
      obtain ⟨tag, h⟩ := (hkeys _).1 hmem
      exact hproto tag h
    · intro key a ha
      exact (htags key a ha).symm.le.trans (hmembers key)

omit [WireElement E] in
lemma sendable_iff {s : ORSet E} (hs : s.Trim) :
    s.Sendable ↔ Fits s.Live ∧ Fits s.Removed := by
  have helements := admissible_iff_fits ElementEntry.tags hs.live
  have htombstones := admissible_iff_fits id hs.removed
  constructor
  · rintro ⟨h, htags, h', hbuckets⟩
    exact ⟨helements.1 ⟨h, htags⟩, htombstones.1 ⟨h', hbuckets⟩⟩
  · rintro ⟨hlive, hremoved⟩
    obtain ⟨h, htags⟩ := helements.2 hlive
    obtain ⟨h', hbuckets⟩ := htombstones.2 hremoved
    exact ⟨h, htags, h', hbuckets⟩

/-- A tag that is live after the two sets are merged. -/
def Survives (s other : ORSet E) (key tag : JsString) : Prop :=
  (s.Live key tag ∨ other.Live key tag) ∧ ∀ k, ¬ s.Removed k tag ∧ ¬ other.Removed k tag

omit [WireElement E] in
lemma sendable_merge_iff (s other : ORSet E) :
    (s.merge other).Sendable ↔
      Fits (s.Survives other) ∧ Fits fun key tag => s.Removed key tag ∨ other.Removed key tag := by
  rw [sendable_iff (trim_merge s other)]
  have hlive : (s.merge other).Live = s.Survives other := by
    funext key tag
    exact propext (live_merge s other key tag)
  have hremoved : (s.merge other).Removed =
      fun key tag => s.Removed key tag ∨ other.Removed key tag := by
    funext key tag
    exact propext (removed_merge s other key tag)
  rw [hlive, hremoved]

lemma inBucket_objectToMapOfSets (obj : OrderedMap JsString (List JsString))
    (localKeys : OrderedMap JsString JsString) (key tag : JsString) :
    InBucket (objectToMapOfSets obj localKeys) key tag ↔
      ∃ p ∈ obj.entries, (localKeys.get? p.1).getD p.1 = key ∧ tag ∈ p.2 := by
  have hmem : ∀ bucket tagSet : OrderedSet JsString,
      tag ∈ bucket.addAll tagSet.elems ↔ tag ∈ bucket ∨ tag ∈ tagSet := by
    intro bucket tagSet
    rw [mem_addAll, mem_def tagSet]
  rw [InBucket, objectToMapOfSets, exists_get?_gather hmem]
  constructor
  · rintro ⟨tags, hp, htag⟩
    obtain ⟨p, hp, heq⟩ := mem_map.1 hp
    rw [Prod.mk.injEq] at heq
    rw [← heq.2, mem_addAll] at htag
    exact ⟨p, hp, heq.1, htag.resolve_left (not_mem_empty tag)⟩
  · rintro ⟨p, hp, hkey, htag⟩
    refine ⟨OrderedSet.empty.addAll p.2, mem_map.2 ⟨p, hp, ?_⟩, ?_⟩
    · rw [hkey]
    · exact (mem_addAll _ _ _).2 (.inr htag)

lemma live_assemble (custom : Option (E → JsString))
    (tombstones : OrderedMap JsString (List JsString)) (decoded : List (Decoded (ElementEntry E)))
    (key tag : JsString) :
    (assemble custom tombstones decoded).Live key tag ↔
      ∃ d ∈ decoded, d.key = key ∧ tag ∈ d.entry.tags := by
  have hmem : ∀ existing entry : ElementEntry E,
      tag ∈ (collapse existing entry).tags ↔ tag ∈ existing.tags ∨ tag ∈ entry.tags := by
    intro existing entry
    rw [collapse, mem_addAll, mem_def entry.tags]
  exact exists_get?_fileUnder hmem key

variable (s : ORSet E) (custom : Option (E → JsString))

lemma mem_decodedElements {d : Decoded (ElementEntry E)} :
    d ∈ s.decodedElements custom ↔
      ∃ wireKey entry, s.elements.get? wireKey = some entry ∧
        decodedElement custom wireKey entry = d := by
  rw [decodedElements, mem_map]
  constructor
  · rintro ⟨p, hp, hd⟩
    exact ⟨p.1, p.2, (mem_toObject_iff _ _ _).1 hp, hd⟩
  · rintro ⟨wireKey, entry, hget, hd⟩
    exact ⟨(wireKey, entry), (mem_toObject_iff _ _ _).2 hget, hd⟩

lemma live_refile (key tag : JsString) :
    (s.refile custom).Live key tag ↔ ∃ wireKey entry, s.elements.get? wireKey = some entry ∧
      keyUnder custom wireKey (normal entry.element) = key ∧ tag ∈ entry.tags := by
  rw [refile, live_assemble]
  simp only [mem_decodedElements]
  constructor
  · rintro ⟨_, ⟨wireKey, entry, hget, rfl⟩, hkey, htag⟩
    exact ⟨wireKey, entry, hget, hkey, htag⟩
  · rintro ⟨wireKey, entry, hget, hkey, htag⟩
    exact ⟨_, ⟨wireKey, entry, hget, rfl⟩, hkey, htag⟩

lemma removed_refile (key tag : JsString) :
    (s.refile custom).Removed key tag ↔ ∃ wireKey,
      ((localKeys (s.decodedElements custom)).get? wireKey).getD wireKey = key ∧
        s.Removed wireKey tag := by
  rw [Removed, refile, assemble, inBucket_objectToMapOfSets, entries_tombstones_toJSON]
  constructor
  · rintro ⟨_, hp, hkey, htag⟩
    obtain ⟨⟨wireKey, tags⟩, hsent, rfl⟩ := mem_map.1 hp
    exact ⟨wireKey, hkey, tags, (mem_toObject_iff _ _ _).1 hsent, htag⟩
  · rintro ⟨wireKey, hkey, tags, hget, htag⟩
    have hp := (mem_toObject_iff _ _ _).2 hget
    exact ⟨_, mem_map.2 ⟨_, hp, rfl⟩, hkey, htag⟩

lemma vetoed_refile (tag : JsString) :
    (∃ key, (s.refile custom).Removed key tag) ↔ ∃ key, s.Removed key tag := by
  simp only [removed_refile]
  constructor
  · rintro ⟨_, wireKey, -, htag⟩
    exact ⟨wireKey, htag⟩
  · rintro ⟨wireKey, htag⟩
    exact ⟨_, wireKey, rfl, htag⟩

lemma element_refile {key : JsString} {entry : ElementEntry E}
    (h : (s.refile custom).elements.get? key = some entry) :
    ∃ wireKey sent, s.elements.get? wireKey = some sent ∧
      keyUnder custom wireKey (normal sent.element) = key ∧
        entry.element = normal sent.element := by
  refine forall_get?_fileUnder (P := fun key entry => ∃ wireKey sent,
    s.elements.get? wireKey = some sent ∧
      keyUnder custom wireKey (normal sent.element) = key ∧
        entry.element = normal sent.element) ?_ ?_ h
  · intro d hd
    obtain ⟨wireKey, sent, hget, rfl⟩ := (mem_decodedElements s custom).1 hd
    exact ⟨wireKey, sent, hget, rfl, rfl⟩
  · intro _ _ _ hexisting _
    exact hexisting

lemma trim_refile {s : ORSet E} (hs : s.Trim) (custom : Option (E → JsString)) :
    (s.refile custom).Trim := by
  constructor
  · intro key entry hentry
    refine forall_get?_fileUnder (P := fun _ entry => ∃ tag, tag ∈ entry.tags) ?_ ?_ hentry
    · intro d hd
      obtain ⟨wireKey, sent, hget, rfl⟩ := (mem_decodedElements s custom).1 hd
      exact hs.live wireKey sent hget
    · rintro _ existing entry ⟨tag, htag⟩ -
      exact ⟨tag, (mem_addAll _ _ _).2 (.inl htag)⟩
  · intro key tags htags
    refine forall_get?_gather (P := fun _ (tags : OrderedSet JsString) =>
      ∃ tag, tag ∈ tags) ?_ ?_ htags
    · intro key tags hmem
      rw [entries_tombstones_toJSON, map_map] at hmem
      obtain ⟨⟨wireKey, sent⟩, hp, heq⟩ := mem_map.1 hmem
      rw [Function.comp_apply, Prod.mk.injEq, addAll_empty] at heq
      rw [← heq.2]
      exact hs.removed wireKey sent ((mem_toObject_iff _ _ _).1 hp)
    · rintro _ bucket tagSet ⟨tag, htag⟩ -
      exact ⟨tag, (mem_addAll _ _ _).2 (.inl htag)⟩

/-- The sets file the same tags under the same keys. -/
structure SameTags (s other : ORSet E) : Prop where
  elements : OrderedMap.Alike (fun entry otherEntry : ElementEntry E =>
    ∀ tag, tag ∈ entry.tags ↔ tag ∈ otherEntry.tags) s.elements other.elements
  tombstones : OrderedMap.Alike (fun tags otherTags : OrderedSet JsString =>
    ∀ tag, tag ∈ tags ↔ tag ∈ otherTags) s.tombstones other.tombstones

section SameTags

omit [WireElement E]

variable {s s' : ORSet E}

lemma exists_mem_iff_of_alike {α β : Type} {R : α → β → Prop} {members : α → OrderedSet JsString}
    {members' : β → OrderedSet JsString}
    (hR : ∀ a b, R a b → ∀ tag, tag ∈ members a ↔ tag ∈ members' b) {m : OrderedMap JsString α}
    {m' : OrderedMap JsString β} (h : Alike R m m') (key tag : JsString) :
    (∃ a, m.get? key = some a ∧ tag ∈ members a) ↔ ∃ b, m'.get? key = some b ∧ tag ∈ members' b := by
  have hkey := h key
  revert hkey
  cases m.get? key with
  | none =>
    cases m'.get? key with
    | none => simp
    | some b => rintro ⟨⟩
  | some a =>
    cases m'.get? key with
    | none => rintro ⟨⟩
    | some b =>
      rintro ⟨hab⟩
      simpa using hR a b hab tag

lemma SameTags.live (h : s.SameTags s') (key tag : JsString) :
    s.Live key tag ↔ s'.Live key tag :=
  exists_mem_iff_of_alike (fun _ _ hab => hab) h.elements key tag

lemma SameTags.removed (h : s.SameTags s') (key tag : JsString) :
    s.Removed key tag ↔ s'.Removed key tag :=
  exists_mem_iff_of_alike (fun _ _ hab => hab) h.tombstones key tag

lemma alike_of_members {α : Type} (members : α → OrderedSet JsString)
    {m m' : OrderedMap JsString α} (hm : ∀ key a, m.get? key = some a → ∃ tag, tag ∈ members a)
    (hm' : ∀ key a, m'.get? key = some a → ∃ tag, tag ∈ members a)
    (h : ∀ key tag, (∃ a, m.get? key = some a ∧ tag ∈ members a) ↔
      ∃ a, m'.get? key = some a ∧ tag ∈ members a) :
    Alike (fun a b => ∀ tag, tag ∈ members a ↔ tag ∈ members b) m m' := by
  have hequals := (equalsBy_members_iff members hm hm').2 h
  intro key
  rcases (equalsBy_iff _ _ _).1 hequals key with ⟨ha, hb⟩ | ⟨a, b, ha, hb, hab⟩
  · rw [ha, hb]
    exact .none
  · rw [ha, hb]
    exact .some ((OrderedSet.equals_iff _ _).1 hab)

lemma sameTags_of_trim (hs : s.Trim) (hs' : s'.Trim)
    (hlive : ∀ key tag, s.Live key tag ↔ s'.Live key tag)
    (hremoved : ∀ key tag, s.Removed key tag ↔ s'.Removed key tag) : s.SameTags s' :=
  ⟨alike_of_members ElementEntry.tags hs.live hs'.live hlive,
    alike_of_members id hs.removed hs'.removed hremoved⟩

lemma SameTags.refl (s : ORSet E) : s.SameTags s :=
  ⟨Alike.refl (fun _ _ => Iff.rfl) s.elements, Alike.refl (fun _ _ => Iff.rfl) s.tombstones⟩

lemma SameTags.merge (h : s.SameTags s') (other : ORSet E) :
    (s.merge other).SameTags (s'.merge other) := by
  refine sameTags_of_trim (trim_merge _ _) (trim_merge _ _) ?_ ?_
  · intro key tag
    simp only [live_merge, h.live, h.removed]
  · intro key tag
    simp only [removed_merge, h.removed]

lemma SameTags.equals (h : s.SameTags s') : s.equals s' = true := by
  rw [ORSet.equals, Bool.and_eq_true]
  exact ⟨h.elements.equalsBy fun _ _ htags => (OrderedSet.equals_iff _ _).2 htags,
    h.tombstones.equalsBy fun _ _ htags => (OrderedSet.equals_iff _ _).2 htags⟩

end SameTags

lemma sameTags_refile_none : (s.refile none).SameTags s := by
  have helements : (s.refile none).elements = (s.elements.mapValues fun _ entry =>
      ⟨normal entry.element, entry.tags⟩).toObject :=
    fileUnder_of_keyed collapse s.elements fun _ entry =>
      ⟨normal entry.element, entry.tags⟩
  have hlocal : localKeys (s.decodedElements none) = OrderedMap.empty := by
    refine localKeys_eq_empty fun d hd => ?_
    obtain ⟨wireKey, entry, -, rfl⟩ := (mem_decodedElements s none).1 hd
    rfl
  have htombstones : (s.refile none).tombstones = s.tombstones.toObject := by
    ext1
    change (objectToMapOfSets _ (localKeys (s.decodedElements none))).entries = _
    rw [hlocal, objectToMapOfSets, entries_tombstones_toJSON, map_map]
    have hlist : s.tombstones.toObject.entries.map ((fun p : JsString × List JsString =>
        (((OrderedMap.empty : OrderedMap JsString JsString).get? p.1).getD p.1,
          OrderedSet.empty.addAll p.2)) ∘ fun p => (p.1, p.2.elems)) =
        s.tombstones.toObject.entries := by
      refine (map_congr_left fun p _ => ?_).trans (map_id _)
      exact Prod.ext rfl (addAll_empty p.2)
    rw [hlist]
    exact entries_gather s.tombstones.toObject.nodupKeys _
  constructor
  · rw [helements]
    exact alike_toObject fun _ _ _ _ => Iff.rfl
  · rw [htombstones]
    intro key
    rw [get?_toObject]
    exact (SameTags.refl s).tombstones key

lemma live_refile_none (key tag : JsString) : (s.refile none).Live key tag ↔ s.Live key tag :=
  (sameTags_refile_none s).live key tag

lemma removed_refile_none (key tag : JsString) :
    (s.refile none).Removed key tag ↔ s.Removed key tag :=
  (sameTags_refile_none s).removed key tag

end ORSet

end ActorTs
