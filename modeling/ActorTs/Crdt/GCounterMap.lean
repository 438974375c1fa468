import ActorTs.Crdt.GCounter
import ActorTs.Crdt.KeyedFrames

/-!
# The map of grow-only counters

Every id has a counter of its own, and a merge merges the counters id by id. The
counters keep within their bounds under merges, so all that a merge of maps can outgrow
is the number of ids.
-/

namespace ActorTs

open Outcome WireElement

structure GCounterMapEntry (K : Type) where
  key : K
  counter : GCounter

structure GCounterMap (K : Type) where
  entries : OrderedMap JsString (GCounterMapEntry K)
  identity : K → JsString

structure GCounterMapJson where
  counters : OrderedMap JsString GCounter.Json
  keyValues : Option (OrderedMap JsString JsString)

namespace GCounterMap

variable {K : Type}

def empty (identity : K → JsString) : GCounterMap K := ⟨OrderedMap.empty, identity⟩

def increment (m : GCounterMap K) (replica : ReplicaId) (key : K) (delta : JsNumber) :
    Except IncrementError (GCounterMap K) :=
  if delta.isNegative then .error (.negativeDelta "GCounterMap.increment" delta)
  else match delta with
    | .finite _ => do
        let id := m.identity key
        let existing := m.entries.get? id
        let counter ← ((existing.map GCounterMapEntry.counter).getD GCounter.empty).increment
          replica delta
        pure { m with
          entries := m.entries.set id ⟨(existing.map GCounterMapEntry.key).getD key, counter⟩ }
    | _ => .error .infiniteDelta

/-- The first instance of the key is kept. -/
def mergeEntry (ours theirs : GCounterMapEntry K) : GCounterMapEntry K :=
  ⟨ours.key, ours.counter.merge theirs.counter⟩

def merge (m other : GCounterMap K) : GCounterMap K :=
  { m with entries := m.entries.mergeInto mergeEntry other.entries }

def equals (m other : GCounterMap K) : Bool :=
  m.entries.equalsBy (fun entry otherEntry => entry.counter.equals otherEntry.counter) other.entries

/-- The decoder takes every counter of the map. -/
def Sound (m : GCounterMap K) : Prop :=
  ∀ id entry, m.entries.get? id = some entry → entry.counter.Decodable

lemma sound_merge {m other : GCounterMap K} (hm : m.Sound) (ho : other.Sound) :
    (m.merge other).Sound := by
  intro id entry h
  refine OrderedMap.forall_get?_mergeInto
    (P := fun entry : GCounterMapEntry K => entry.counter.Decodable) hm ho ?_ h
  intro _ _ ha hb
  exact ha.merge hb

section Wire

variable [WireElement K]

def toJSON (m : GCounterMap K) : GCounterMapJson where
  counters := (m.entries.mapValues fun _ entry => entry.counter.toJSON).toObject
  keyValues := some (m.entries.mapValues fun _ entry => WireElement.stringify entry.key).toObject

def fromJSON (json : GCounterMapJson) (custom : Option (K → JsString)) :
    Except CrdtDecodeError (GCounterMap K) := do
  let decoded ← decodeAll json.counters "GCounterMap.counters"
    (decodeKeyed json.keyValues custom GCounter.fromJSON GCounterMapEntry.mk)
  pure ⟨fileUnder mergeEntry decoded, custom.getD WireElement.stringify⟩

/-- The map as the decoder reads it. -/
def refile (m : GCounterMap K) (custom : Option (K → JsString)) : GCounterMap K where
  entries := fileUnder mergeEntry (m.entries.toObject.entries.map fun p =>
    decodedKeyed custom GCounterMapEntry.mk p.1 p.2.key p.2.counter.reread)
  identity := custom.getD WireElement.stringify

lemma yields_fromJSON (m : GCounterMap K) (custom : Option (K → JsString)) :
    Yields (fromJSON m.toJSON custom) (Admissible m.entries ∧ m.Sound) (m.refile custom) := by
  have htext : ∀ id entry, m.entries.get? id = some entry →
      rawText m.toJSON.keyValues id = stringify entry.key :=
    fun _ _ h => rawText_toObject m.entries (fun entry => stringify entry.key) h
  exact Yields.seq _ (yields_decodeAll (fun id entry h =>
    yields_decodeKeyed custom _ (htext id entry h) entry.counter.yields_fromJSON_toJSON) _)

lemma sound_of_fromJSON {json : GCounterMapJson} {custom : Option (K → JsString)}
    {m : GCounterMap K} (h : fromJSON json custom = .ok m) : m.Sound := by
  obtain ⟨decoded, hdecoded, h⟩ := bind_eq_ok h
  cases h
  intro id entry hentry
  refine forall_get?_fileUnder (P := fun _ entry => entry.counter.Decodable) ?_ ?_ hentry
  · intro d hd
    obtain ⟨p, hp⟩ := exists_of_decodeAll hdecoded hd
    obtain ⟨key, counter, hcounter, rfl⟩ := decodeKeyed_eq_ok hp
    exact GCounter.decodable_of_fromJSON hcounter
  · intro _ a b ha hb
    exact ha.merge hb

end Wire

/-- The maps have counters with the same slots under the same ids. -/
def SameCounters (m other : GCounterMap K) : Prop :=
  OrderedMap.Alike (fun entry otherEntry => entry.counter.SameSlots otherEntry.counter) m.entries
    other.entries

lemma sameCounters_refile_none [WireElement K] (m : GCounterMap K) :
    (m.refile none).SameCounters m := by
  have hentries : (m.refile none).entries = (m.entries.mapValues fun _ entry =>
      ⟨normal entry.key, entry.counter.reread⟩).toObject :=
    fileUnder_of_keyed mergeEntry m.entries fun _ entry =>
      ⟨normal entry.key, entry.counter.reread⟩
  rw [SameCounters, hentries]
  exact OrderedMap.alike_toObject fun _ entry _ => entry.counter.sameSlots_reread

lemma SameCounters.merge {m m' : GCounterMap K} (h : m.SameCounters m') (other : GCounterMap K) :
    (m.merge other).SameCounters (m'.merge other) :=
  OrderedMap.Alike.mergeInto (fun _ _ b hslots => hslots.merge b.counter) (fun _ _ => rfl) h
    other.entries

lemma SameCounters.equals {m m' : GCounterMap K} (h : m.SameCounters m') : m.equals m' = true :=
  OrderedMap.Alike.equalsBy h fun _ _ hslots => (GCounter.equals_iff _ _).2 hslots

end GCounterMap

end ActorTs
