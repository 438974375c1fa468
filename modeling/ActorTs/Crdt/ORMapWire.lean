import ActorTs.Crdt.ORMap
import ActorTs.Crdt.ORSetWire

/-!
# The frame of an observed-remove map

The frame has the frame of the keyset, the frames of the values under their ids, and the
texts of the keys. A receiver with an identity of its own files the entries under its own
ids, and then the ids inside the keyset have to move with them: `remapKeysetIds` rewrites
the texts of the keyset's elements, and the decoder of the set re-keys the rest.

The values are of any type with a frame.
-/

open Option

namespace ActorTs

open OrderedMap WireElement

open Outcome

structure ORMapJson (F : Type) where
  keyset : ORSetJson
  values : OrderedMap JsString F
  keyValues : Option (OrderedMap JsString JsString)

/-- The identity of the keyset, spelled out so that its elements are filed anew. -/
def keysetIdentity (id : JsString) : JsString := JsonText.quote id

/-- The text of a keyset's element, with the id this replica gives the entry. -/
def remapText (localIds : OrderedMap JsString JsString) (encoded : JsString) : JsString :=
  match (parseIdString encoded).bind localIds.get? with
  | none => encoded
  | some localId => JsonText.quote localId

/-- A keyset over the ceiling is handed back as it is; its decoder refuses it. -/
def remapKeysetIds (keyset : ORSetJson) (localIds : OrderedMap JsString JsString) : ORSetJson :=
  if maxCrdtEntries < keyset.elements.size then keyset
  else
    { keyset with
      elementValues := some (keyset.elements.mapValues fun elementKey _ =>
        remapText localIds (rawText keyset.elementValues elementKey)).toObject }

/-- The keyset of a frame whose entries were filed under other ids here. -/
def decodeKeyset (keyset : ORSetJson) (localIds : OrderedMap JsString JsString) :
    Except CrdtDecodeError (ORSet JsString) :=
  if localIds.size = 0 then ORSet.fromJSON keyset none
  else ORSet.fromJSON (remapKeysetIds keyset localIds) (some keysetIdentity)

namespace ORMap

variable {K V F : Type} [WireElement K] [Crdt V]

section Wire

variable (valueJSON : V → F) (decodeValue : F → Except CrdtDecodeError V)

def toJSON (m : ORMap K V) : ORMapJson F where
  keyset := m.keyset.toJSON
  values := (m.entries.mapValues fun _ entry => valueJSON entry.value).toObject
  keyValues := some (m.entries.mapValues fun _ entry => WireElement.stringify entry.key).toObject

def fromJSON (json : ORMapJson F) (custom : Option (K → JsString)) :
    Except CrdtDecodeError (ORMap K V) := do
  let decoded ← decodeAll json.values "ORMap.values"
    (decodeKeyed json.keyValues custom decodeValue MapEntry.mk)
  let keyset ← decodeKeyset json.keyset (localKeys decoded)
  pure ⟨keyset, fileUnder mergeMapEntry decoded, custom.getD WireElement.stringify⟩

end Wire

/-- The keyset with its ids rewritten, filed as it was. -/
def relabel (localIds : OrderedMap JsString JsString) (keyset : ORSet JsString) :
    ORSet JsString :=
  { keyset with
    elements := keyset.elements.mapValues fun _ entry =>
      ⟨(localIds.get? entry.element).getD entry.element, entry.tags⟩ }

lemma get?_relabel {localIds : OrderedMap JsString JsString} {keyset : ORSet JsString}
    {key : JsString} {entry : ElementEntry JsString}
    (h : (relabel localIds keyset).elements.get? key = some entry) :
    ∃ sent, keyset.elements.get? key = some sent ∧ entry.tags = sent.tags ∧
      entry.element = (localIds.get? sent.element).getD sent.element := by
  rw [relabel, get?_mapValues, map_eq_some_iff] at h
  obtain ⟨sent, hsent, rfl⟩ := h
  exact ⟨sent, hsent, rfl, rfl⟩

variable (localIds : OrderedMap JsString JsString) (keyset : ORSet JsString)

lemma sendable_relabel : (relabel localIds keyset).Sendable ↔ keyset.Sendable := by
  have helements : Admissible (relabel localIds keyset).elements ↔ Admissible keyset.elements := by
    constructor
    · rintro ⟨hsize, hproto⟩
      exact ⟨(size_mapValues _ _).symm.le.trans hsize,
        fun hmem => hproto ((mem_keys_mapValues _ _ _).2 hmem)⟩
    · rintro ⟨hsize, hproto⟩
      exact ⟨(size_mapValues _ _).le.trans hsize,
        fun hmem => hproto ((mem_keys_mapValues _ _ _).1 hmem)⟩
  constructor
  · rintro ⟨h, htags, htombstones, hbuckets⟩
    refine ⟨helements.1 h, ?_, htombstones, hbuckets⟩
    intro key entry hentry
    refine htags key ⟨(localIds.get? entry.element).getD entry.element, entry.tags⟩ ?_
    rw [relabel, get?_mapValues, hentry, map_some]
  · rintro ⟨h, htags, htombstones, hbuckets⟩
    refine ⟨helements.2 h, ?_, htombstones, hbuckets⟩
    intro key entry hentry
    obtain ⟨sent, hsent, hsame, -⟩ := get?_relabel hentry
    rw [hsame]
    exact htags key sent hsent

lemma elements_toJSON_relabel :
    (relabel localIds keyset).toJSON.elements = keyset.toJSON.elements := by
  rw [ORSet.toJSON, ORSet.toJSON, relabel]
  simp only
  congr 1
  ext1
  rw [entries_mapValues, entries_mapValues, entries_mapValues, List.map_map]
  rfl

lemma yields_remapKeysetIds :
    Yields (ORSet.fromJSON (remapKeysetIds keyset.toJSON localIds) (some keysetIdentity))
      keyset.Sendable ((relabel localIds keyset).refile (some keysetIdentity)) := by
  have hsize : keyset.toJSON.elements.size = keyset.elements.size := by
    rw [ORSet.toJSON, size_toObject, size_mapValues]
  rw [remapKeysetIds, hsize]
  split
  · next hlarge =>
    have hnot : ¬ keyset.Sendable := fun h => absurd h.elements.size_le (not_le.2 hlarge)
    exact ⟨fun h => absurd h hnot,
      fun _ => (ORSet.yields_fromJSON keyset (some keysetIdentity)).2 hnot⟩
  · have htext : ∀ key entry, (relabel localIds keyset).elements.get? key = some entry →
        rawText (some (keyset.toJSON.elements.mapValues fun elementKey _ =>
          remapText localIds (rawText keyset.toJSON.elementValues elementKey)).toObject) key =
            WireElement.stringify entry.element := by
      intro key entry hentry
      obtain ⟨sent, hsent, -, helement⟩ := get?_relabel hentry
      have hraw : rawText keyset.toJSON.elementValues key = JsonText.quote sent.element :=
        rawText_toObject keyset.elements (fun entry => WireElement.stringify entry.element) hsent
      have hparse : parseIdString (JsonText.quote sent.element) = some sent.element :=
        WireElement.parse_stringify sent.element
      have htags : keyset.toJSON.elements.get? key = some sent.tags.elems := by
        rw [ORSet.toJSON, get?_toObject, get?_mapValues, hsent, map_some]
      rw [rawText, bind_some, get?_toObject, get?_mapValues, htags,
        map_some, getD_some, hraw, remapText, hparse, bind_some, helement]
      cases localIds.get? sent.element <;> rfl
    have hframe := ORSet.yields_fromJSON_of_texts (relabel localIds keyset) (some keysetIdentity)
      htext
    rw [elements_toJSON_relabel] at hframe
    exact hframe.iff (sendable_relabel localIds keyset)

/-- The keyset as the decoder reads it. -/
def refileKeyset (localIds : OrderedMap JsString JsString) (keyset : ORSet JsString) :
    ORSet JsString :=
  if localIds.size = 0 then keyset.refile none
  else (relabel localIds keyset).refile (some keysetIdentity)

lemma yields_decodeKeyset :
    Yields (decodeKeyset keyset.toJSON localIds) keyset.Sendable
      (refileKeyset localIds keyset) := by
  rw [decodeKeyset, refileKeyset]
  split
  · exact ORSet.yields_fromJSON keyset none
  · exact yields_remapKeysetIds localIds keyset

section Values

variable {valueJSON : V → F} {decodeValue : F → Except CrdtDecodeError V} {P : V → Prop}
  {readValue : V → V}

/-- The entries of the map as the decoder reads them. -/
def decodedEntries (readValue : V → V) (m : ORMap K V) (custom : Option (K → JsString)) :
    List (Decoded (MapEntry K V)) :=
  m.entries.toObject.entries.map fun p =>
    decodedKeyed custom MapEntry.mk p.1 p.2.key (readValue p.2.value)

/-- The map as the decoder reads it. -/
def refile (readValue : V → V) (m : ORMap K V) (custom : Option (K → JsString)) : ORMap K V :=
  let decoded := m.decodedEntries readValue custom
  let localIds := localKeys decoded
  { keyset := refileKeyset localIds m.keyset
    entries := fileUnder mergeMapEntry decoded
    identity := custom.getD WireElement.stringify }

/-- Every value of the map, live or not, has the property. -/
def AllValues (P : V → Prop) (m : ORMap K V) : Prop :=
  ∀ id entry, m.entries.get? id = some entry → P entry.value

lemma yields_fromJSON
    (hvalue : ∀ v, Yields (decodeValue (valueJSON v)) (P v) (readValue v)) (m : ORMap K V)
    (custom : Option (K → JsString)) :
    Yields (fromJSON decodeValue (m.toJSON valueJSON) custom)
      ((Admissible m.entries ∧ m.AllValues P) ∧ m.keyset.Sendable)
      (m.refile readValue custom) := by
  have htext : ∀ id entry, m.entries.get? id = some entry →
      rawText (m.toJSON valueJSON).keyValues id = stringify entry.key :=
    fun _ _ h => rawText_toObject m.entries (fun entry => stringify entry.key) h
  have hentries : Yields (decodeAll (m.toJSON valueJSON).values "ORMap.values"
        (decodeKeyed (m.toJSON valueJSON).keyValues custom decodeValue MapEntry.mk))
      (Admissible m.entries ∧ m.AllValues P) (m.decodedEntries readValue custom) :=
    yields_decodeAll (fun id entry h =>
      yields_decodeKeyed custom _ (htext id entry h) (hvalue entry.value)) _
  exact Yields.bind hentries (Yields.seq _ (yields_decodeKeyset _ m.keyset))

lemma allValues_of_fromJSON (hdecode : ∀ json v, decodeValue json = .ok v → P v)
    (hmerge : ∀ v w, P v → P w → P (Crdt.merge v w)) {json : ORMapJson F}
    {custom : Option (K → JsString)} {m : ORMap K V}
    (h : fromJSON decodeValue json custom = .ok m) : m.AllValues P := by
  obtain ⟨decoded, hdecoded, h⟩ := bind_eq_ok h
  obtain ⟨keyset, -, h⟩ := bind_eq_ok h
  cases h
  intro id entry hentry
  refine forall_get?_fileUnder (P := fun _ entry => P entry.value) ?_ ?_ hentry
  · intro d hd
    obtain ⟨p, hp⟩ := exists_of_decodeAll hdecoded hd
    obtain ⟨key, value, hvalue, rfl⟩ := decodeKeyed_eq_ok hp
    exact hdecode p.2 value hvalue
  · intro _ a b ha hb
    exact hmerge a.value b.value ha hb

end Values

omit [WireElement K] in
lemma mem_keys_entries_merge (m other : ORMap K V) (id : JsString) :
    id ∈ (m.merge other).entries.keys ↔ id ∈ m.entries.keys ∨ id ∈ other.entries.keys := by
  simp only [mem_keys_iff, get?_entries_merge]
  cases m.entries.get? id <;> cases other.entries.get? id <;> simp

/-- The value a merge has for an id: one of the two, or their merge. -/
def MergedValues (P : V → Prop) (Q : V → V → Prop) (m other : ORMap K V) : Prop :=
  ∀ id, (∀ entry, m.entries.get? id = some entry → other.entries.get? id = none → P entry.value) ∧
    (∀ entry, m.entries.get? id = none → other.entries.get? id = some entry → P entry.value) ∧
    ∀ entry entry', m.entries.get? id = some entry → other.entries.get? id = some entry' →
      Q entry.value entry'.value

variable {m : ORMap K V} {P : V → Prop} {other : ORMap K V}

omit [WireElement K] in
lemma allValues_merge_iff {Q : V → V → Prop}
    (hQ : ∀ id entry entry', m.entries.get? id = some entry → other.entries.get? id = some entry' →
      (P (Crdt.merge entry.value entry'.value) ↔ Q entry.value entry'.value)) :
    (m.merge other).AllValues P ↔ MergedValues P Q m other := by
  refine forall_congr' fun id => ?_
  rw [get?_entries_merge]
  cases hm : m.entries.get? id with
  | none => cases ho : other.entries.get? id <;> simp
  | some entry =>
    cases ho : other.entries.get? id with
    | none => simp
    | some entry' => simpa [mergeMapEntry] using hQ id entry entry' hm ho

omit [WireElement K] in
lemma allValues_merge (hmerge : ∀ v w, P v → P w → P (Crdt.merge v w)) (hm : m.AllValues P)
    (ho : other.AllValues P) : (m.merge other).AllValues P := by
  refine (allValues_merge_iff (Q := fun v w => P (Crdt.merge v w)) fun _ _ _ _ _ => Iff.rfl).2 ?_
  intro id
  refine ⟨fun entry h _ => hm id entry h, fun entry _ h => ho id entry h, ?_⟩
  intro entry entry' h h'
  exact hmerge _ _ (hm id entry h) (ho id entry' h')

/-- The keysets hold the same tags, and the ids have related values. -/
structure SameMap (R : V → V → Prop) (m other : ORMap K V) : Prop where
  keyset : m.keyset.SameTags other.keyset
  values : OrderedMap.Alike (fun entry otherEntry => R entry.value otherEntry.value) m.entries
    other.entries

lemma entries_refile_none (readValue : V → V) (m : ORMap K V) :
    (m.refile readValue none).entries = (m.entries.mapValues fun _ entry =>
      ⟨normal entry.key, readValue entry.value⟩).toObject :=
  fileUnder_of_keyed mergeMapEntry m.entries fun _ entry =>
    ⟨normal entry.key, readValue entry.value⟩

lemma allValues_refile_none {readValue : V → V} (h : m.AllValues fun v => P (readValue v)) :
    (m.refile readValue none).AllValues P := by
  intro id entry hentry
  rw [entries_refile_none, get?_toObject, get?_mapValues, map_eq_some_iff] at hentry
  obtain ⟨sent, hsent, rfl⟩ := hentry
  exact h id sent hsent

variable {R : V → V → Prop} {m' : ORMap K V}

lemma sameMap_refile_none {readValue : V → V} (hread : m.AllValues fun v => R (readValue v) v) :
    SameMap R (m.refile readValue none) m := by
  have hlocal : localKeys (m.decodedEntries readValue none) = OrderedMap.empty := by
    refine localKeys_eq_empty fun d hd => ?_
    obtain ⟨p, -, rfl⟩ := List.mem_map.1 hd
    rfl
  have hkeyset : (m.refile readValue none).keyset = m.keyset.refile none := by
    rw [refile]
    simp only [hlocal]
    rfl
  constructor
  · rw [hkeyset]
    exact ORSet.sameTags_refile_none m.keyset
  · rw [entries_refile_none]
    exact alike_toObject hread

omit [WireElement K]

lemma SameMap.merge (h : SameMap R m m')
    (hmerge : ∀ v v' w, R v v' → R (Crdt.merge v w) (Crdt.merge v' w)) (hrefl : ∀ v, R v v)
    (other : ORMap K V) : SameMap R (m.merge other) (m'.merge other) := by
  refine ⟨h.keyset.merge other.keyset, fun id => ?_⟩
  rw [get?_entries_merge, get?_entries_merge]
  refine rel_merge ?_ ?_ (h.values id) _
  · intro entry entry' theirs hR
    exact hmerge _ _ theirs.value hR
  · exact fun entry => hrefl entry.value

lemma entriesEqual_of_alike (hR : ∀ v v', R v v' → Crdt.same v v' = true)
    {ours theirs : OrderedMap JsString (MapEntry K V)}
    (h : OrderedMap.Alike (fun entry otherEntry => R entry.value otherEntry.value) ours theirs)
    (ids : List JsString) : entriesEqual ours theirs ids = true := by
  induction ids with
  | nil => rfl
  | cons id ids ih =>
    rw [entriesEqual]
    have hid := h id
    revert hid
    cases ours.get? id with
    | none =>
      cases theirs.get? id with
      | some entry' => rintro ⟨⟩
      | none => exact fun _ => rfl
    | some entry =>
      cases theirs.get? id with
      | none => rintro ⟨⟩
      | some entry' =>
        rintro ⟨hvalue⟩
        simp only [hR _ _ hvalue, if_true]
        exact ih

lemma SameMap.equals (h : SameMap R m m') (hR : ∀ v v', R v v' → Crdt.same v v' = true) :
    m.equals m' = true := by
  rw [ORMap.equals, h.keyset.equals, Bool.true_and]
  exact entriesEqual_of_alike hR h.values _

end ORMap

end ActorTs
