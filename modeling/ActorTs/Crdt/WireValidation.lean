import ActorTs.Library.JsArithmetic
import ActorTs.Library.JsObject
import ActorTs.Library.Outcome

/-!
# Checks on what comes off the wire

A frame is decoded only where its collections are small enough, no property is named `__proto__`,
and its numbers are plausible. Every check is a computation that fails or hands on what it checked,
under the name of the field it looks at. A frame is typed as its `kind` promises.
-/

namespace ActorTs

open OrderedMap

open Outcome JsNumber

def maxSafeInteger : ℕ := 2 ^ 53 - 1

def maxCrdtEntries : ℕ := 4096

/-- The largest slot for which a counter with the most slots has an exact sum. -/
def maxCounterSlot : ℕ := maxSafeInteger / maxCrdtEntries

def maxMvRegisterEntries : ℕ := 256

def maxTimestampSkewMs : ℕ := 5 * 60000

def maxCrdtNestingDepth : ℕ := 32

/-- Why a frame is refused. `what` is the field that was looked at. -/
inductive CrdtDecodeError where
  | tooManyEntries (what : JsString) (count limit : ℕ)
  | protoKey (what : JsString)
  | notSafeInteger (what : JsString) (value : ℚ)
  | overCeiling (what : JsString) (value : ℚ)
  | implausibleTimestamp (what : JsString) (value : ℚ)
  | notJson (text : JsString)
  | tooDeep

def protoKey : JsString := "__proto__"

def propertyPath (field key : JsString) : JsString := field ++ "['" ++ key ++ "']"

variable {α : Type}

/-- A decoder takes the object: it is small enough, and all its properties are encoded. -/
structure Admissible (source : OrderedMap JsString α) : Prop where
  size_le : source.size ≤ maxCrdtEntries
  protoKey_notMem : protoKey ∉ source.keys

def safeEntries (source : OrderedMap JsString α) (what : JsString) :
    Except CrdtDecodeError (List (JsString × α)) :=
  if maxCrdtEntries < source.size then .error (.tooManyEntries what source.size maxCrdtEntries)
  else if protoKey ∈ source.keys then .error (.protoKey what)
  else .ok source.entries

lemma yields_safeEntries (source : OrderedMap JsString α) (what : JsString) :
    Yields (safeEntries source what) (Admissible source) source.entries := by
  refine (Yields.guard _ (Yields.guard _ (Yields.ok _))).iff ?_
  constructor
  · rintro ⟨hsize, hproto, -⟩
    exact ⟨not_lt.1 hsize, hproto⟩
  · rintro ⟨hsize, hproto⟩
    exact ⟨not_lt.2 hsize, hproto, trivial⟩

lemma admissible_toObject {β : Type} (encode : JsString → α → β) (m : OrderedMap JsString α) :
    Admissible (m.mapValues encode).toObject ↔ Admissible m := by
  constructor
  · rintro ⟨hsize, hproto⟩
    rw [size_toObject, size_mapValues] at hsize
    rw [mem_keys_toObject, mem_keys_mapValues] at hproto
    exact ⟨hsize, hproto⟩
  · rintro ⟨hsize, hproto⟩
    refine ⟨?_, ?_⟩
    · rwa [size_toObject, size_mapValues]
    · rwa [mem_keys_toObject, mem_keys_mapValues]

/-- A decoder takes an object with the properties of both. -/
structure AdmissibleUnion {β : Type} (source : OrderedMap JsString α)
    (other : OrderedMap JsString β) : Prop where
  size_le : { key | key ∈ source.keys ∨ key ∈ other.keys }.ncard ≤ maxCrdtEntries
  protoKey_notMem : protoKey ∉ source.keys ∧ protoKey ∉ other.keys

lemma admissible_iff_union {β γ : Type} {source : OrderedMap JsString α}
    {other : OrderedMap JsString β} {merged : OrderedMap JsString γ}
    (h : ∀ key, key ∈ merged.keys ↔ key ∈ source.keys ∨ key ∈ other.keys) :
    Admissible merged ↔ AdmissibleUnion source other := by
  have hsize : { key | key ∈ source.keys ∨ key ∈ other.keys }.ncard = merged.size := by
    rw [← ncard_keys]
    simp only [h]
  constructor
  · rintro ⟨hle, hproto⟩
    exact ⟨hsize.le.trans hle, not_or.1 fun hmem => hproto ((h _).2 hmem)⟩
  · rintro ⟨hle, hproto⟩
    exact ⟨hsize.symm.le.trans hle, fun hmem => not_or.2 hproto ((h _).1 hmem)⟩

section DecodeEntries

variable {β γ : Type} (decode : JsString × γ → Except CrdtDecodeError (JsString × β))
  (combine : β → β → β)

/-- The loop of the decoders: every property is decoded, together with the key it is filed
under, and what comes under one key is combined. -/
def decodeEntries (source : OrderedMap JsString γ) (what : JsString) :
    Except CrdtDecodeError (OrderedMap JsString β) := do
  let entries ← safeEntries source what
  let decoded ← entries.mapM decode
  pure (gather combine decoded)

variable {decode} {source : OrderedMap JsString γ}

lemma yields_decodeEntries {m : OrderedMap JsString α} {encode : JsString → α → γ}
    {P : JsString → α → Prop} {g : JsString → α → β}
    (h : ∀ k a, m.get? k = some a → Yields (decode (k, encode k a)) (P k a) (k, g k a))
    (what : JsString) :
    Yields (decodeEntries decode combine (m.mapValues encode).toObject what)
      (Admissible m ∧ ∀ k a, m.get? k = some a → P k a) (m.mapValues g).toObject := by
  have hobject := toObject_mapValues encode m
  have hmem : ∀ p ∈ m.toObject.entries, m.get? p.1 = some p.2 := fun p hp =>
    (get?_eq_some_iff _ _ _).2 ((mem_entries_toObject m p).1 hp)
  have hmap : Yields ((m.mapValues encode).toObject.entries.mapM decode)
      (∀ p ∈ m.toObject.entries, P p.1 p.2) (m.toObject.entries.map fun p => (p.1, g p.1 p.2)) := by
    rw [hobject, entries_mapValues, List.mapM_map]
    exact Yields.mapM fun p hp => h p.1 p.2 (hmem p hp)
  have hgather : gather combine (m.toObject.entries.map fun p => (p.1, g p.1 p.2)) =
      (m.mapValues g).toObject := by
    ext1
    rw [toObject_mapValues]
    exact entries_gather (m.toObject.mapValues g).nodupKeys combine
  have hall : Yields (decodeEntries decode combine (m.mapValues encode).toObject what) _ _ :=
    Yields.bind (yields_safeEntries (m.mapValues encode).toObject what) (hmap.seq (gather combine))
  rw [hgather] at hall
  exact hall.iff (and_congr (admissible_toObject encode m) (forall_mem_toObject m P))

variable {what : JsString}

lemma decodeEntries_eq_ok {m : OrderedMap JsString β}
    (h : decodeEntries decode combine source what = .ok m) :
    Admissible source ∧ ∃ decoded,
      List.Forall₂ (fun p q => decode p = .ok q) source.entries decoded ∧
        m = gather combine decoded := by
  obtain ⟨entries, hentries, h⟩ := bind_eq_ok h
  obtain ⟨decoded, hdecoded, h⟩ := bind_eq_ok h
  cases h
  by_cases hadmissible : Admissible source
  · cases hentries.symm.trans ((yields_safeEntries source what).1 hadmissible)
    exact ⟨hadmissible, decoded, forall₂_of_mapM_eq_ok hdecoded, rfl⟩
  · obtain ⟨e, he⟩ := (yields_safeEntries source what).2 hadmissible
    cases hentries.symm.trans he

lemma decodeEntries_of_keyed (hkey : ∀ p q, decode p = .ok q → q.1 = p.1)
    {m : OrderedMap JsString β} (h : decodeEntries decode combine source what = .ok m) :
    Admissible m ∧ ∀ k b, m.get? k = some b →
      ∃ c, source.get? k = some c ∧ decode (k, c) = .ok (k, b) := by
  obtain ⟨hadmissible, decoded, hdecoded, rfl⟩ := decodeEntries_eq_ok combine h
  have hkeys : decoded.map Prod.fst = source.keys := map_eq_of_forall₂ hkey hdecoded
  have hentries : (gather combine decoded).entries = decoded :=
    entries_gather (hkeys ▸ source.nodup_keys) combine
  have hkeys' : (gather combine decoded).keys = source.keys := by
    rw [← hkeys, OrderedMap.keys, hentries]
  refine ⟨⟨?_, ?_⟩, ?_⟩
  · rw [← length_keys, hkeys', length_keys]
    exact hadmissible.size_le
  · rw [hkeys']
    exact hadmissible.protoKey_notMem
  · intro k b hk
    rw [get?_eq_some_iff, hentries] at hk
    obtain ⟨⟨k', c⟩, hmem, hdecode⟩ := exists_of_forall₂ hdecoded hk
    obtain rfl : k = k' := hkey _ _ hdecode
    exact ⟨c, (get?_eq_some_iff _ _ _).2 hmem, hdecode⟩

end DecodeEntries

def assertBoundedArray (value : List α) (what : JsString) (limit : ℕ) :
    Except CrdtDecodeError (List α) :=
  if limit < value.length then .error (.tooManyEntries what value.length limit) else .ok value

lemma yields_assertBoundedArray (value : List α) (what : JsString) (limit : ℕ) :
    Yields (assertBoundedArray value what limit) (value.length ≤ limit) value :=
  (Yields.guard _ (Yields.ok _)).iff (by simp)

/-- The tags or tombstones of a key; that they are strings is in their type. -/
def assertStringArray (value : List JsString) (what : JsString) :
    Except CrdtDecodeError (List JsString) :=
  assertBoundedArray value what maxCrdtEntries

/-- The value of a counter's slot: at most the ceiling, whoever put it there. -/
def Slot : Type := { q : ℚ // 0 ≤ q ∧ q ≤ maxCounterSlot }
  deriving DecidableEq

namespace Slot

def val (s : Slot) : ℚ := Subtype.val s

lemma nonneg (s : Slot) : 0 ≤ s.val := s.property.1

lemma le_ceiling (s : Slot) : s.val ≤ maxCounterSlot := s.property.2

/-- The slot holds a whole number. -/
def IsWhole (s : Slot) : Prop := s.val.den = 1

instance (s : Slot) : Decidable s.IsWhole := inferInstanceAs (Decidable (_ = _))

end Slot

def isSafeInteger (value : ℚ) : Bool := decide (value.den = 1 ∧ |value| ≤ maxSafeInteger)

def assertCounterValue (value : ℚ) (what : JsString) : Except CrdtDecodeError Slot :=
  if h : isSafeInteger value = false ∨ value < 0 then .error (.notSafeInteger what value)
  else if h' : maxCounterSlot < value then .error (.overCeiling what value)
  else .ok ⟨value, not_lt.1 (not_or.1 h).2, not_lt.1 h'⟩

lemma maxCounterSlot_le : maxCounterSlot ≤ maxSafeInteger := Nat.div_le_self _ _

lemma yields_assertCounterValue (s : Slot) (what : JsString) :
    Yields (assertCounterValue s.val what) s.IsWhole s := by
  have habs : |s.val| ≤ maxSafeInteger := by
    rw [abs_of_nonneg s.nonneg]
    exact s.le_ceiling.trans (Nat.cast_le.2 maxCounterSlot_le)
  by_cases hwhole : s.IsWhole
  · have hsafe : ¬ (isSafeInteger s.val = false ∨ s.val < 0) := by
      rw [not_or, Bool.not_eq_false]
      exact ⟨decide_eq_true ⟨hwhole, habs⟩, not_lt.2 s.nonneg⟩
    refine Yields.of_eq_ok ?_ hwhole
    rw [assertCounterValue, dif_neg hsafe, dif_neg (not_lt.2 s.le_ceiling)]
    rfl
  · have hunsafe : isSafeInteger s.val = false ∨ s.val < 0 :=
      .inl (decide_eq_false fun h => hwhole h.1)
    rw [assertCounterValue, dif_pos hunsafe]
    exact (Yields.error _ s).iff (by simp [hwhole])

lemma isWhole_of_assertCounterValue {value : ℚ} {s : Slot}
    (h : assertCounterValue value what = .ok s) : s.val = value ∧ s.IsWhole := by
  unfold assertCounterValue at h
  split at h
  · cases h
  next hsafe =>
    split at h
    · cases h
    · cases h
      rw [not_or, Bool.not_eq_false, isSafeInteger, decide_eq_true_eq] at hsafe
      exact ⟨rfl, hsafe.1.1⟩

end ActorTs
