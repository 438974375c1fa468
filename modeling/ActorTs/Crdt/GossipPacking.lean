import ActorTs.Cluster.Member
import ActorTs.Cluster.Protocol
import ActorTs.Library.Float64
import ActorTs.Library.JsObject
import ActorTs.Library.JsonBytes
import ActorTs.Serialization.EncodePaths

/-!
# A gossip frame within its budget

A tick of gossip sends as many keys as fit one frame, from a cursor on. What an entry takes is
measured by itself, with the comma behind it, and summed on top of a frame without entries. The
frame is encoded as one tree, though: where the object of its entries has one key, and that key is a
tag of the encoder, it is wrapped, and the frame is longer than what was measured.
-/

open List Option Nat JsonText

namespace ActorTs.DistributedData

open Serialization ActorTs.Cluster

/-- What a key and its value take in a frame, and the value as it is sent. -/
structure MeasuredGossipEntry where
  json : Value
  bytes : ℕ

structure GossipSkipTally where
  oversize : ℕ := 0
  unserialisable : ℕ := 0
  largest : Option (JsString × ℕ) := none

structure LargeGossipEntryTally where
  count : ℕ := 0
  largest : Option (JsString × ℕ) := none

/-- The larger of the entries seen, and the earlier of two alike. -/
def noteLargest (largest : Option (JsString × ℕ)) (key : JsString) (bytes : ℕ) :
    Option (JsString × ℕ) :=
  match largest with
  | none => some (key, bytes)
  | some (other, most) => if most < bytes then some (key, bytes) else some (other, most)

/-- What the replicator packs a frame from. A throw of `toJSON` is `none`; a transport that
frames nothing has no cap, and a maximum of zero is none. -/
structure Gossiper (C : Type) where
  runtime : Runtime
  selfAddress : NodeAddress
  state : OrderedMap JsString C
  toJSON : C → Option Value
  gossipCursor : ℕ
  maxGossipBytes : ℕ
  maxFrameBytes : Option ℕ
  logDataSizeExceeding : ℕ

/-- `NodeAddress.toJSON`. -/
def addressData (a : NodeAddress) : Value :=
  .object ([("systemName".toJs, .string a.systemName), ("host".toJs, .string a.host),
    ("port".toJs, .number (JsNumber.ofInt a.port))] ++
    a.incarnation.toList.map fun incarnation => ("incarnation".toJs, .string incarnation))

/-- The gossip message that carries some entries. -/
def gossipMessage (from' : NodeAddress) (entries : List (JsString × Value)) : Value :=
  .object [("kind", .string "ddata-gossip"), ("from", addressData from'),
    ("entries", .object entries)]

/-- What the loop over the keys has packed and passed. -/
structure Packing where
  used : ℕ
  advance : ℕ := 0
  packed : List (JsString × MeasuredGossipEntry) := []
  skips : GossipSkipTally := {}
  large : LargeGossipEntryTally := {}

structure PackedGossip where
  entries : Option (List (JsString × Value))
  gossipCursor : ℕ
  skips : GossipSkipTally := {}
  large : LargeGossipEntryTally := {}

namespace Gossiper

variable {C : Type} (g : Gossiper C)

def measureGossipEntry (key : JsString) : Option MeasuredGossipEntry := do
  let crdt ← g.state.get? key
  let json ← g.toJSON crdt
  let encoded ← (encodeJsonTree g.runtime .omit json).toOption
  return ⟨json, (Utf8.encode (JsonText.quote key)).length + 1 +
    (Utf8.encode encoded.stringify).length + 1⟩

def gossipBudgetBytes : ℕ∞ :=
  @min ℕ∞ LinearOrder.toMin (if g.maxGossipBytes = 0 then ⊤ else g.maxGossipBytes)
    (match g.maxFrameBytes with
      | none => ⊤
      | some cap => cap)

def gossipEnvelopeBytes : Except SerializationError ℕ := do
  let encoded ← encodeJsonTree g.runtime .omit (gossipMessage g.selfAddress [])
  return (Utf8.encode encoded.stringify).length

/-- Reported before either decision on the size. -/
def noteLarge (key : JsString) (measured : MeasuredGossipEntry) (p : Packing) : Packing :=
  if 0 < g.logDataSizeExceeding ∧ g.logDataSizeExceeding < measured.bytes then
    { p with large := ⟨p.large.count + 1, noteLargest p.large.largest key measured.bytes⟩ }
  else p

/-- The loop over the keys. One that is too large for a frame of its own is stepped over, and
one that only does not fit any more ends it. -/
def packKeys (envelopeBytes : ℕ) : List JsString → Packing → Packing
  | [], p => p
  | key :: keys, p =>
    match g.measureGossipEntry key with
    | none =>
      packKeys envelopeBytes keys { p with
        skips := { p.skips with unserialisable := p.skips.unserialisable + 1 }
        advance := p.advance + 1 }
    | some measured =>
      let p := g.noteLarge key measured p
      if g.gossipBudgetBytes < ↑(envelopeBytes + measured.bytes) then
        packKeys envelopeBytes keys { p with
          skips := { p.skips with
            oversize := p.skips.oversize + 1
            largest := noteLargest p.skips.largest key measured.bytes }
          advance := p.advance + 1 }
      else if g.gossipBudgetBytes < ↑(p.used + measured.bytes) then p
      else
        packKeys envelopeBytes keys { p with
          used := p.used + measured.bytes
          packed := p.packed ++ [(key, measured)]
          advance := p.advance + 1 }

/-- The keys in the order in which a tick visits them. -/
def sweep : List JsString := g.state.keys.rotate (g.gossipCursor % g.state.keys.length)

/-- No key is listed twice, so the object that is made of the entries has all of them, in the
order in which an object lists its properties. -/
def packGossipEntries : Except SerializationError PackedGossip :=
  if g.state.keys = [] then .ok ⟨none, g.gossipCursor, {}, {}⟩
  else do
    let envelopeBytes ← g.gossipEnvelopeBytes
    let p := g.packKeys envelopeBytes g.sweep { used := envelopeBytes }
    return {
      entries :=
        if p.packed = [] then none
        else some (propertyOrder (p.packed.map fun entry => (entry.1, entry.2.json)))
      gossipCursor := (g.gossipCursor % g.state.keys.length + p.advance) % g.state.keys.length
      skips := p.skips
      large := p.large }

/-- The frame for some entries, and its payload within the budget. -/
def FrameFits (entries : List (JsString × Value)) : Prop :=
  ∃ frame, encodeFrame g.runtime (gossipMessage g.selfAddress entries) = .ok frame ∧
    ↑(frame.length - headerSize) ≤ g.gossipBudgetBytes

/-- The keys of a sweep that fit a frame of their own, as they are measured. -/
def fitting (envelopeBytes : ℕ) (keys : List JsString) : List (JsString × MeasuredGossipEntry) :=
  keys.filterMap fun key =>
    match g.measureGossipEntry key with
    | none => none
    | some measured =>
      if g.gossipBudgetBytes < ↑(envelopeBytes + measured.bytes) then none
      else some (key, measured)

/-- The first key of the sweep that fits is a tag of the encoder, the next one does not fit
beside it, and the frame has no room for the wrapper. -/
def TagAlone : Prop :=
  ∃ envelopeBytes first rest, g.gossipEnvelopeBytes = .ok envelopeBytes ∧
    g.fitting envelopeBytes g.sweep = first :: rest ∧
    (∀ next ∈ rest.head?,
      g.gossipBudgetBytes < ↑(envelopeBytes + first.2.bytes + next.2.bytes)) ∧
    (Tag.ofName? first.1).isSome = true ∧
    g.gossipBudgetBytes < ↑(envelopeBytes + first.2.bytes + 15)

end Gossiper

/-! ## What the entries take -/

section Bytes

variable {runtime : Runtime} {path : List PathSegment}

/-- What an entry takes in a frame, its comma included. -/
def entryBytes (runtime : Runtime) (entry : JsString × Value) : ℕ :=
  match encodeNode runtime .omit [] true entry.2 with
  | .ok (some t) => Json.memberBytes (entry.1, t) + 1
  | _ => 0

lemma exists_encodeProperties (path : List PathSegment) {entries : List (JsString × Value)}
    (h : ∀ entry ∈ entries, ∃ t, encodeNode runtime .omit [] true entry.2 = .ok (some t)) :
    ∃ members, encodeProperties runtime .omit path entries = .ok members ∧
      members.map Prod.fst = entries.map Prod.fst ∧
      (members.map fun m => Json.memberBytes m + 1).sum =
        (entries.map (entryBytes runtime)).sum := by
  induction entries with
  | nil => exact ⟨[], rfl, rfl, rfl⟩
  | cons entry entries ih =>
    obtain ⟨t, ht⟩ := h entry mem_cons_self
    obtain ⟨members, hmembers, hkeys, hsum⟩ :=
      ih fun other hother => h other (mem_cons_of_mem _ hother)
    refine ⟨(entry.1, t) :: members, ?_, ?_, ?_⟩
    · rw [encodeProperties, encodeNode_path entry.2 ht, hmembers]
      rfl
    · rw [map_cons, map_cons, hkeys]
    · rw [map_cons, map_cons, sum_cons, sum_cons, hsum, entryBytes, ht]

/-- What the wrapper takes around an object that has a tag for its sole key. -/
def wrapperBytes : List JsString → ℕ
  | [key] => if (Tag.ofName? key).isSome then 16 else 0
  | _ => 0

lemma wrapperBytes_perm {keys keys' : List JsString} (h : keys.Perm keys') :
    wrapperBytes keys = wrapperBytes keys' := by
  match keys, keys', h.length_eq with
  | [], [], _ => rfl
  | [key], [key'], _ => rw [singleton_perm_singleton.1 h]
  | _ :: _ :: _, _ :: _ :: _, _ => rfl

lemma byteLength_escapeObject {members : List (JsString × Json)} (h : members ≠ []) :
    (escapeObject members).byteLength = (members.map fun m => Json.memberBytes m + 1).sum + 1 +
      wrapperBytes (members.map Prod.fst) := by
  match members with
  | [(key, t)] =>
    by_cases hkey : (Tag.ofName? key).isSome = true
    · have hname : (Utf8.encode (quote Tag.literal.name)).length = 13 := by decide
      rw [escapeObject, if_pos hkey, Tag.wrap, Json.byteLength_obj (cons_ne_nil _ _),
        map_singleton, sum_singleton, Json.memberBytes, hname,
        Json.byteLength_obj (cons_ne_nil _ _), map_singleton, map_singleton,
        wrapperBytes, if_pos hkey, sum_singleton]
      omega
    · rw [escapeObject, if_neg hkey, Json.byteLength_obj (cons_ne_nil _ _),
        map_singleton, map_singleton, wrapperBytes, if_neg hkey, add_zero]
  | first :: second :: rest =>
    rw [escapeObject, Json.byteLength_obj (cons_ne_nil _ _)]
    · rfl
    · rintro _ _ ⟨⟩

lemma exists_encode_addressData (a : NodeAddress) : ∃ t, ∀ path,
    encodeNode runtime .omit path true (addressData a) = .ok (some t) := by
  suffices h : ∃ t, encodeNode runtime .omit [] true (addressData a) = .ok (some t) by
    obtain ⟨t, ht⟩ := h
    exact ⟨t, fun path => encodeNode_path _ ht⟩
  cases hincarnation : a.incarnation <;>
    simp only [addressData, hincarnation, encodeNode] <;>
    exact ⟨_, rfl⟩

/-- The tree of a gossip message, around that of its entries. -/
def messageTree (sender entries : Json) : Json :=
  .obj [("kind", .str "ddata-gossip"), ("from", sender), ("entries", entries)]

lemma exists_byteLength_messageTree (sender : Json) : ∃ base, ∀ entries : Json,
    (messageTree sender entries).byteLength = base + entries.byteLength := by
  refine ⟨(Json.memberBytes ("kind", .str "ddata-gossip") + 1) +
    (Json.memberBytes ("from", sender) + 1) +
    ((Utf8.encode (quote "entries")).length + 1) + 2, fun entries => ?_⟩
  rw [messageTree, Json.byteLength_obj (cons_ne_nil _ _), map_cons, map_cons,
    map_singleton, sum_cons, sum_cons, sum_singleton,
    Json.memberBytes.eq_def ("entries", entries)]
  ring

lemma encodeJsonTree_gossipMessage {a : NodeAddress} {sender : Json}
    {entries : List (JsString × Value)} {members : List (JsString × Json)}
    (hsender : ∀ path, encodeNode runtime .omit path true (addressData a) = .ok (some sender))
    (hmembers : ∀ path, encodeProperties runtime .omit path entries = .ok members) :
    encodeJsonTree runtime .omit (gossipMessage a entries) =
      .ok (messageTree sender (escapeObject members)) := by
  rw [encodeJsonTree, gossipMessage, encodeNode, encodeProperties, encodeProperties,
    encodeProperties, encodeProperties, hsender, encodeNode, encodeNode, hmembers]
  rfl

end Bytes

namespace Gossiper

variable {C : Type} (g : Gossiper C)

lemma exists_frame : ∃ envelopeBytes, g.gossipEnvelopeBytes = .ok envelopeBytes ∧
    ∀ entries, entries ≠ [] →
      (∀ entry ∈ entries, ∃ t, encodeNode g.runtime .omit [] true entry.2 = .ok (some t)) →
      ∃ frame, encodeFrame g.runtime (gossipMessage g.selfAddress entries) = .ok frame ∧
        frame.length - headerSize + 1 = envelopeBytes + (entries.map (entryBytes g.runtime)).sum +
          wrapperBytes (entries.map Prod.fst) := by
  obtain ⟨sender, hsender⟩ : ∃ sender, ∀ path,
      encodeNode g.runtime .omit path true (addressData g.selfAddress) = .ok (some sender) :=
    exists_encode_addressData g.selfAddress
  obtain ⟨base, hbase⟩ := exists_byteLength_messageTree sender
  refine ⟨base + 2, ?_, fun entries hne hentries => ?_⟩
  · rw [gossipEnvelopeBytes, encodeJsonTree_gossipMessage hsender fun _ => rfl]
    change Except.ok (messageTree sender (.obj [])).byteLength = _
    rw [hbase, Json.byteLength_obj_nil]
  · obtain ⟨members, hmembers, hkeys, hsum⟩ := exists_encodeProperties [] hentries
    have hne' : members ≠ [] := by
      rintro rfl
      exact hne (map_eq_nil_iff.1 hkeys.symm)
    have hencoded := encodeJsonTree_gossipMessage (a := g.selfAddress) hsender fun _ =>
      encodeProperties_path entries hmembers
    refine ⟨uint32Bytes (messageTree sender (escapeObject members)).byteLength ++
      Utf8.encode (messageTree sender (escapeObject members)).stringify, ?_, ?_⟩
    · rw [encodeFrame, hencoded]
      rfl
    · rw [length_append]
      change 4 + (messageTree sender (escapeObject members)).byteLength - 4 + 1 = _
      rw [hbase, byteLength_escapeObject hne', hkeys, hsum]
      omega

end Gossiper

/-! ## What is packed -/

/-- The entries that fit one after the other, up to the first that does not. -/
def takeFitting (budget : ℕ∞) : ℕ → List (JsString × MeasuredGossipEntry) →
    List (JsString × MeasuredGossipEntry)
  | _, [] => []
  | used, entry :: entries =>
    if budget < ↑(used + entry.2.bytes) then []
    else entry :: takeFitting budget (used + entry.2.bytes) entries

lemma takeFitting_sublist (budget : ℕ∞) (used : ℕ)
    (entries : List (JsString × MeasuredGossipEntry)) :
    (takeFitting budget used entries).Sublist entries := by
  induction entries generalizing used with
  | nil => exact .slnil
  | cons entry entries ih =>
    rw [takeFitting]
    split
    · exact nil_sublist _
    · exact (ih _).cons_cons _

lemma takeFitting_le {budget : ℕ∞} {used : ℕ} (hused : ↑used ≤ budget)
    (entries : List (JsString × MeasuredGossipEntry)) :
    ↑(used + ((takeFitting budget used entries).map fun entry => entry.2.bytes).sum) ≤ budget := by
  induction entries generalizing used with
  | nil => simpa [takeFitting] using hused
  | cons entry entries ih =>
    rw [takeFitting]
    split
    · simpa using hused
    · next hfits =>
      have hrest := ih (not_lt.1 hfits)
      rw [map_cons, sum_cons, ← add_assoc]
      exact hrest

lemma takeFitting_eq_singleton_iff {budget : ℕ∞} {used : ℕ}
    {entries : List (JsString × MeasuredGossipEntry)} {first : JsString × MeasuredGossipEntry}
    (hfits : ∀ entry ∈ entries, ¬ budget < ↑(used + entry.2.bytes)) :
    takeFitting budget used entries = [first] ↔ ∃ rest, entries = first :: rest ∧
      ∀ next ∈ rest.head?, budget < ↑(used + first.2.bytes + next.2.bytes) := by
  cases entries with
  | nil => exact ⟨fun h => (nomatch h), fun ⟨_, h, _⟩ => (nomatch h)⟩
  | cons entry entries =>
    rw [takeFitting, if_neg (hfits entry mem_cons_self)]
    constructor
    · intro h
      obtain ⟨rfl, hnil⟩ := cons.inj h
      refine ⟨entries, rfl, fun next hnext => ?_⟩
      cases entries with
      | nil => cases hnext
      | cons other entries =>
        cases hnext
        rw [takeFitting] at hnil
        by_contra hnot
        rw [if_neg hnot] at hnil
        cases hnil
    · rintro ⟨rest, heq, hnext⟩
      obtain ⟨rfl, rfl⟩ := cons.inj heq
      cases entries with
      | nil => rfl
      | cons other entries =>
        rw [takeFitting, if_pos (hnext other rfl)]

namespace Gossiper

variable {C : Type} (g : Gossiper C)

lemma noteLarge_rest (key : JsString) (measured : MeasuredGossipEntry) (p : Packing) :
    (g.noteLarge key measured p).packed = p.packed ∧
      (g.noteLarge key measured p).used = p.used := by
  rw [noteLarge]
  split <;> exact ⟨rfl, rfl⟩

lemma packKeys_packed (envelopeBytes : ℕ) (keys : List JsString) (p : Packing) :
    (g.packKeys envelopeBytes keys p).packed = p.packed ++
      takeFitting g.gossipBudgetBytes p.used (g.fitting envelopeBytes keys) := by
  induction keys generalizing p with
  | nil => exact (append_nil _).symm
  | cons key keys ih =>
    rw [packKeys]
    cases hmeasured : g.measureGossipEntry key with
    | none =>
      rw [fitting, filterMap_cons_none (by rw [hmeasured])]
      exact ih _
    | some measured =>
      obtain ⟨hpacked, hused⟩ := g.noteLarge_rest key measured p
      dsimp only
      rw [hused, hpacked]
      by_cases halone : g.gossipBudgetBytes < ↑(envelopeBytes + measured.bytes)
      · rw [if_pos halone, fitting,
          filterMap_cons_none (by rw [hmeasured]; exact if_pos halone), ih]
        rfl
      · rw [if_neg halone, fitting,
          filterMap_cons_some (by rw [hmeasured]; exact if_neg halone), takeFitting]
        by_cases hnow : g.gossipBudgetBytes < ↑(p.used + measured.bytes)
        · rw [if_pos hnow, if_pos hnow, hpacked, append_nil]
        · rw [if_neg hnow, if_neg hnow, ih, append_assoc]
          rfl

variable {envelopeBytes : ℕ}

lemma of_mem_fitting {keys : List JsString} {entry : JsString × MeasuredGossipEntry}
    (h : entry ∈ g.fitting envelopeBytes keys) :
    g.measureGossipEntry entry.1 = some entry.2 ∧
      ¬ g.gossipBudgetBytes < ↑(envelopeBytes + entry.2.bytes) := by
  obtain ⟨key, -, hkey⟩ := mem_filterMap.1 h
  split at hkey
  · cases hkey
  · next measured hmeasured =>
    split at hkey
    · cases hkey
    · next hfits =>
      cases hkey
      exact ⟨hmeasured, hfits⟩

lemma measured_bytes {key : JsString} {measured : MeasuredGossipEntry}
    (h : g.measureGossipEntry key = some measured) :
    (∃ t, encodeNode g.runtime .omit [] true measured.json = .ok (some t)) ∧
      measured.bytes = entryBytes g.runtime (key, measured.json) := by
  rw [measureGossipEntry, bind_eq_bind, bind_eq_some_iff] at h
  obtain ⟨crdt, -, h⟩ := h
  rw [bind_eq_bind, bind_eq_some_iff] at h
  obtain ⟨json, -, h⟩ := h
  rw [bind_eq_bind, bind_eq_some_iff] at h
  obtain ⟨t, ht, h⟩ := h
  cases h
  rw [encodeJsonTree] at ht
  cases hencoded : encodeNode g.runtime .omit [] true json with
  | error e =>
    rw [hencoded] at ht
    cases ht
  | ok r =>
    cases r with
    | none =>
      rw [hencoded] at ht
      cases ht
    | some t' =>
      rw [hencoded] at ht
      cases ht
      refine ⟨⟨_, rfl⟩, ?_⟩
      rw [entryBytes, hencoded]
      rfl

lemma packGossipEntries_eq {packed : PackedGossip} (h : g.packGossipEntries = .ok packed)
    {entries : List (JsString × Value)} (hentries : packed.entries = some entries)
    (henvelope : g.gossipEnvelopeBytes = .ok envelopeBytes) :
    takeFitting g.gossipBudgetBytes envelopeBytes (g.fitting envelopeBytes g.sweep) ≠ [] ∧
      entries = propertyOrder ((takeFitting g.gossipBudgetBytes envelopeBytes
        (g.fitting envelopeBytes g.sweep)).map fun entry => (entry.1, entry.2.json)) := by
  rw [packGossipEntries] at h
  split at h
  · cases h
    cases hentries
  · rw [henvelope] at h
    cases h
    have hpacked := g.packKeys_packed envelopeBytes g.sweep { used := envelopeBytes }
    rw [hpacked] at hentries
    split at hentries
    · cases hentries
    · next hne => exact ⟨hne, (some.inj hentries).symm⟩

lemma packGossipEntries_of_fitting (henvelope : g.gossipEnvelopeBytes = .ok envelopeBytes)
    (hne : takeFitting g.gossipBudgetBytes envelopeBytes (g.fitting envelopeBytes g.sweep) ≠ []) :
    ∃ packed, g.packGossipEntries = .ok packed ∧
      packed.entries = some (propertyOrder ((takeFitting g.gossipBudgetBytes envelopeBytes
        (g.fitting envelopeBytes g.sweep)).map fun entry => (entry.1, entry.2.json))) := by
  have hkeys : g.state.keys ≠ [] := by
    intro hnil
    refine hne ?_
    rw [sweep, hnil]
    rfl
  have hpacked := g.packKeys_packed envelopeBytes g.sweep { used := envelopeBytes }
  rw [nil_append] at hpacked
  refine ⟨_, by rw [packGossipEntries, if_neg hkeys, henvelope]; rfl, ?_⟩
  rw [hpacked, if_neg hne]

lemma frameFits_packed_iff (henvelope : g.gossipEnvelopeBytes = .ok envelopeBytes)
    {taken : List (JsString × MeasuredGossipEntry)} (hne : taken ≠ [])
    (htaken : ∀ entry ∈ taken, g.measureGossipEntry entry.1 = some entry.2) :
    g.FrameFits (propertyOrder (taken.map fun entry => (entry.1, entry.2.json))) ↔
      ↑(envelopeBytes + (taken.map fun entry => entry.2.bytes).sum +
        wrapperBytes (taken.map Prod.fst) - 1) ≤ g.gossipBudgetBytes := by
  have hperm := propertyOrder_perm (taken.map fun entry => (entry.1, entry.2.json))
  obtain ⟨bytes, hbytes, hframes⟩ := g.exists_frame
  cases henvelope.symm.trans hbytes
  have hsum : ((propertyOrder (taken.map fun entry => (entry.1, entry.2.json))).map
      (entryBytes g.runtime)).sum = (taken.map fun entry => entry.2.bytes).sum := by
    rw [(hperm.map _).sum_eq, List.map_map]
    refine congrArg sum (map_congr_left fun entry hentry => ?_)
    exact (g.measured_bytes (htaken entry hentry)).2.symm
  have hwrapper : wrapperBytes ((propertyOrder
      (taken.map fun entry => (entry.1, entry.2.json))).map Prod.fst) =
      wrapperBytes (taken.map Prod.fst) := by
    have hkeys := hperm.map Prod.fst
    rw [List.map_map] at hkeys
    exact wrapperBytes_perm hkeys
  have hne' : propertyOrder (taken.map fun entry => (entry.1, entry.2.json)) ≠ [] := by
    intro hnil
    rw [hnil] at hperm
    exact hne (map_eq_nil_iff.1 hperm.nil_eq.symm)
  obtain ⟨frame, hframe, hlength⟩ := hframes _ hne' fun entry hentry => by
      obtain ⟨measured, hmem, rfl⟩ := mem_map.1 (hperm.mem_iff.1 hentry)
      exact (g.measured_bytes (htaken measured hmem)).1
  rw [hsum, hwrapper] at hlength
  rw [← hlength, Nat.add_sub_cancel]
  constructor
  · rintro ⟨frame', hframe', hfits⟩
    cases hframe.symm.trans hframe'
    exact hfits
  · exact fun hfits => ⟨frame, hframe, hfits⟩

lemma measured_of_mem_taken {entry : JsString × MeasuredGossipEntry}
    (h : entry ∈ takeFitting g.gossipBudgetBytes envelopeBytes
      (g.fitting envelopeBytes g.sweep)) : g.measureGossipEntry entry.1 = some entry.2 :=
  (g.of_mem_fitting ((takeFitting_sublist _ _ _).subset h)).1

lemma exists_not_frameFits (h : g.TagAlone) : ∃ packed entries,
    g.packGossipEntries = .ok packed ∧ packed.entries = some entries ∧
      ¬ g.FrameFits entries := by
  obtain ⟨envelopeBytes, first, rest, henvelope, hfirst, hnext, htag, hover⟩ := h
  have htaken : takeFitting g.gossipBudgetBytes envelopeBytes
      (g.fitting envelopeBytes g.sweep) = [first] :=
    (takeFitting_eq_singleton_iff fun entry hentry => (g.of_mem_fitting hentry).2).2
      ⟨rest, hfirst, hnext⟩
  have hne := htaken ▸ cons_ne_nil first []
  obtain ⟨packed, hpacked, hentries⟩ := g.packGossipEntries_of_fitting henvelope hne
  refine ⟨packed, _, hpacked, hentries, fun hfits => ?_⟩
  rw [g.frameFits_packed_iff henvelope hne fun _ => g.measured_of_mem_taken, htaken,
    map_singleton, sum_singleton, map_singleton, wrapperBytes, if_pos htag] at hfits
  exact absurd hfits (not_le.2 hover)

lemma frameFits_of_not_tagAlone (h : ¬ g.TagAlone) {packed : PackedGossip}
    {entries : List (JsString × Value)} (hpacked : g.packGossipEntries = .ok packed)
    (hentries : packed.entries = some entries) : g.FrameFits entries := by
  obtain ⟨envelopeBytes, henvelope, -⟩ := g.exists_frame
  obtain ⟨hne, rfl⟩ := g.packGossipEntries_eq hpacked hentries henvelope
  rw [g.frameFits_packed_iff henvelope hne fun _ => g.measured_of_mem_taken]
  set taken := takeFitting g.gossipBudgetBytes envelopeBytes
    (g.fitting envelopeBytes g.sweep) with htaken
  by_cases halone : ∃ first, taken = [first] ∧ (Tag.ofName? first.1).isSome = true
  · obtain ⟨first, hfirst, htag⟩ := halone
    obtain ⟨rest, hrest, hnext⟩ := (takeFitting_eq_singleton_iff fun entry hentry =>
      (g.of_mem_fitting hentry).2).1 (htaken.symm.trans hfirst)
    rw [hfirst, map_singleton, sum_singleton, map_singleton, wrapperBytes, if_pos htag]
    by_contra hover
    exact h ⟨envelopeBytes, first, rest, henvelope, hrest, hnext, htag, not_le.1 hover⟩
  · have hwrapper : wrapperBytes (taken.map Prod.fst) = 0 := by
      match taken, halone with
      | [], _ => rfl
      | [first], halone =>
        exact if_neg fun htag => halone ⟨first, rfl, htag⟩
      | _ :: _ :: _, _ => rfl
    obtain ⟨first, hfirst⟩ := exists_mem_of_ne_nil _ hne
    have hroom : ↑envelopeBytes ≤ g.gossipBudgetBytes := by
      have hfits := not_lt.1 (g.of_mem_fitting ((takeFitting_sublist _ _ _).subset hfirst)).2
      exact le_trans (cast_le.2 (le_add_right _ _)) hfits
    rw [hwrapper, add_zero]
    exact le_trans (cast_le.2 (sub_le _ _)) (takeFitting_le hroom _)

/-- A frame of gossip is within its budget whatever the store holds, unless the one entry of
it has a tag of the encoder for its key and leaves no room for the wrapper. -/
theorem gossip_fits_iff : (∀ packed entries, g.packGossipEntries = .ok packed →
    packed.entries = some entries → g.FrameFits entries) ↔ ¬ g.TagAlone := by
  constructor
  · intro h halone
    obtain ⟨packed, entries, hpacked, hentries, hnot⟩ := g.exists_not_frameFits halone
    exact hnot (h packed entries hpacked hentries)
  · exact fun h packed entries hpacked hentries =>
      g.frameFits_of_not_tagAlone h hpacked hentries

/-- A store of one counter under a tag of the encoder, and a budget for just that entry. -/
def dated : Gossiper Value where
  runtime := ⟨true, fun _ => [], fun _ => none, fun source flags => some (source, flags), some⟩
  selfAddress := ⟨"app", "node-a", 2552, none⟩
  state := OrderedMap.empty.set "__date__"
    (.object [("kind", .string "GCounter"), ("state", .object [])])
  toJSON := some
  gossipCursor := 0
  maxGossipBytes := 134
  maxFrameBytes := none
  logDataSizeExceeding := 0

theorem not_gossip_fits_dated : ¬ ∀ packed entries, dated.packGossipEntries = .ok packed →
    packed.entries = some entries → dated.FrameFits entries := by
  intro h
  have henvelope : dated.gossipEnvelopeBytes.toOption = some 92 := by decide +kernel
  have hbytes : (dated.measureGossipEntry "__date__".toJs).map MeasuredGossipEntry.bytes =
      some 42 := by decide +kernel
  obtain ⟨envelopeBytes, hok, -⟩ := dated.exists_frame
  obtain ⟨measured, hmeasured, h42⟩ := map_eq_some_iff.1 hbytes
  rw [hok] at henvelope
  cases henvelope
  have hbudget : dated.gossipBudgetBytes = 134 := rfl
  have hfitting : dated.fitting 92 dated.sweep = [("__date__".toJs, measured)] := by
    refine filterMap_cons_some ?_
    rw [hmeasured, hbudget]
    refine if_neg ?_
    rw [h42]
    decide
  have htag : (Tag.ofName? "__date__".toJs).isSome = true := by decide
  obtain ⟨packed, entries, hpacked, hentries, hnot⟩ := dated.exists_not_frameFits
    ⟨92, ("__date__".toJs, measured), [], hok, hfitting, nofun, htag, by
      rw [hbudget, h42]
      decide⟩
  exact hnot (h packed entries hpacked hentries)

end Gossiper

end ActorTs.DistributedData
