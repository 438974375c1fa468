import ActorTs.Crdt.KeyedFrames

/-!
# The grow-only set

The elements are filed under the keys their identity function gives them, and a merge is the union
of the keys. The frame lists the texts of the elements alone, so a decoder has to find the keys
again.
-/

open List Option

namespace ActorTs

open OrderedMap WireElement

open Outcome

structure GSet (E : Type) where
  elements : OrderedMap JsString E
  identity : E → JsString

structure GSetJson where
  elements : List JsString

namespace GSet

variable {E : Type}

def empty (identity : E → JsString) : GSet E := ⟨OrderedMap.empty, identity⟩

/-- The instance that was added first is kept. -/
def add (s : GSet E) (element : E) : GSet E :=
  let key := s.identity element
  if s.elements.has key then s else { s with elements := s.elements.set key element }

def has (s : GSet E) (element : E) : Bool := s.elements.has (s.identity element)

def value (s : GSet E) : List E := s.elements.values

def merge (s other : GSet E) : GSet E :=
  if other.elements.size = 0 then s
  else if s.elements.size = 0 then other
  else { s with elements := s.elements.mergeInto (fun ours _ => ours) other.elements }

def equals (s other : GSet E) : Bool :=
  s.elements.equalsBy (fun _ _ => true) other.elements

lemma equals_iff (s other : GSet E) :
    s.equals other = true ↔ ∀ key, key ∈ s.elements.keys ↔ key ∈ other.elements.keys := by
  rw [equals, equalsBy_iff]
  refine forall_congr' fun key => ?_
  rw [mem_keys_iff, mem_keys_iff]
  cases s.elements.get? key <;> cases other.elements.get? key <;> simp

lemma keys_eq_nil {s : GSet E} (h : s.elements.size = 0) (key : JsString) :
    key ∉ s.elements.keys := by
  rw [← length_keys, length_eq_zero_iff] at h
  simp [h]

lemma mem_keys_merge (s other : GSet E) (key : JsString) :
    key ∈ (s.merge other).elements.keys ↔
      key ∈ s.elements.keys ∨ key ∈ other.elements.keys := by
  unfold merge
  split
  · next hother => simp [keys_eq_nil hother key]
  · split
    · next hs => simp [keys_eq_nil hs key]
    · simp only [mem_keys_iff, get?_mergeInto]
      cases s.elements.get? key <;> cases other.elements.get? key <;> simp

lemma get?_merge {s other : GSet E} {key : JsString} {element : E}
    (h : (s.merge other).elements.get? key = some element) :
    s.elements.get? key = some element ∨ other.elements.get? key = some element := by
  unfold merge at h
  split at h
  · exact .inl h
  · split at h
    · exact .inr h
    · simp only [get?_mergeInto] at h
      cases hours : s.elements.get? key with
      | none =>
        rw [hours, merge_none_left] at h
        exact .inr h
      | some ours =>
        cases htheirs : other.elements.get? key with
        | none => simpa [hours, htheirs] using h
        | some theirs =>
          rw [hours, htheirs, merge_some_some] at h
          exact .inl h

lemma size_merge (s other : GSet E) : (s.merge other).elements.size =
    { key | key ∈ s.elements.keys ∨ key ∈ other.elements.keys }.ncard := by
  rw [← ncard_keys]
  simp only [mem_keys_merge]

section Wire

variable [WireElement E]

def toJSON (s : GSet E) : GSetJson := ⟨s.elements.values.map stringify⟩

/-- The set of the elements that were read. -/
def assemble (identity : E → JsString) (elements : List E) : GSet E :=
  ⟨gather (fun _ element => element)
    (elements.map fun element => (identity element, element)), identity⟩

def fromJSON (json : GSetJson) (custom : Option (E → JsString)) :
    Except CrdtDecodeError (GSet E) := do
  let texts ← assertStringArray json.elements "GSet.elements"
  let elements ← texts.mapM parseElement
  pure (assemble (custom.getD stringify) elements)

/-- The set as the decoder reads it. -/
def refile (s : GSet E) (custom : Option (E → JsString)) : GSet E :=
  assemble (custom.getD stringify) (s.elements.values.map normal)

lemma yields_fromJSON (s : GSet E) (custom : Option (E → JsString)) :
    Yields (fromJSON s.toJSON custom) (s.elements.size ≤ maxCrdtEntries) (s.refile custom) := by
  have hlength : s.toJSON.elements.length = s.elements.size := by
    simp [toJSON, values, size]
  have helements : Yields (s.toJSON.elements.mapM parseElement)
      (∀ element ∈ s.elements.values, True) (s.elements.values.map normal) := by
    rw [toJSON, mapM_map]
    exact Yields.mapM fun element _ => yields_parseElement element
  refine Yields.iff (Yields.bind (yields_assertBoundedArray s.toJSON.elements _ _)
    (Yields.seq _ helements)) ?_
  rw [hlength]
  simp

/-- Every element is filed under its own text. -/
structure TextFiled (s : GSet E) : Prop where
  identity : s.identity = stringify
  filed : ∀ key element, s.elements.get? key = some element →
    stringify (normal element) = key

lemma textFiled_empty : (empty stringify : GSet E).TextFiled :=
  ⟨rfl, by simp [empty]⟩

lemma TextFiled.add {s : GSet E} (hs : s.TextFiled) {element : E}
    (helement : Representable element) : (s.add element).TextFiled := by
  unfold GSet.add
  simp only
  split
  · exact hs
  · refine ⟨hs.identity, ?_⟩
    intro key e he
    rcases get?_set_cases he with ⟨hkey, rfl⟩ | he
    · rw [hkey, hs.identity]
      exact helement
    · exact hs.filed key e he

lemma TextFiled.merge {s other : GSet E} (hs : s.TextFiled) (ho : other.TextFiled) :
    (s.merge other).TextFiled := by
  refine ⟨?_, ?_⟩
  · unfold GSet.merge
    split_ifs
    · exact hs.identity
    · exact ho.identity
    · exact hs.identity
  · intro key element h
    rcases get?_merge h with h | h
    · exact hs.filed key element h
    · exact ho.filed key element h

lemma textFiled_refile_none (s : GSet E) : (s.refile none).TextFiled := by
  refine ⟨rfl, ?_⟩
  intro key element h
  refine forall_get?_gather (P := fun key element =>
    stringify (normal element) = key) ?_ (fun _ _ _ _ h => h) h
  intro key element hmem
  obtain ⟨_, hsent, heq⟩ := mem_map.1 hmem
  obtain ⟨sent, -, rfl⟩ := mem_map.1 hsent
  rw [Prod.mk.injEq] at heq
  rw [← heq.1, ← heq.2, normal_normal]
  rfl

lemma TextFiled.mem_keys_refile {s : GSet E} (hs : s.TextFiled) (key : JsString) :
    key ∈ (s.refile none).elements.keys ↔ key ∈ s.elements.keys := by
  have hgather := exists_get?_gather (f := fun _ element : E => element)
    (P := fun _ => True) (by simp)
    ((s.elements.values.map normal).map fun element =>
      (stringify element, element)) key
  simp only [and_true] at hgather
  rw [mem_keys_iff, mem_keys_iff]
  refine hgather.trans ?_
  constructor
  · rintro ⟨element, hmem⟩
    obtain ⟨_, hsent, heq⟩ := mem_map.1 hmem
    obtain ⟨sent, hvalue, rfl⟩ := mem_map.1 hsent
    obtain ⟨p, hp, rfl⟩ := mem_map.1 hvalue
    have hget := (get?_eq_some_iff _ _ _).2 hp
    rw [Prod.mk.injEq, hs.filed p.1 p.2 hget] at heq
    exact ⟨p.2, heq.1 ▸ hget⟩
  · rintro ⟨element, hget⟩
    have hvalue : element ∈ s.elements.values :=
      mem_map.2 ⟨(key, element), (get?_eq_some_iff _ _ _).1 hget, rfl⟩
    refine ⟨normal element, mem_map.2 ⟨_, mem_map_of_mem hvalue, ?_⟩⟩
    rw [hs.filed key element hget]

end Wire

end GSet

end ActorTs
