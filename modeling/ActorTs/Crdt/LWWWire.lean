import ActorTs.Crdt.KeyedFrames
import ActorTs.Crdt.LWW

/-!
# The frames of last-writer-wins registers and of their maps

A register is sent as it is, and taken where its timestamp is plausible at the time it
arrives. A merge keeps one of two registers, so it is as plausible as they are, then and
at any later time.
-/

namespace ActorTs

open Outcome WireElement LWWRegister

namespace LWWRegister

variable {V : Type}

/-- The timestamp of the register passes the check at the time `now`. -/
structure Plausible (now : ℚ) (r : LWWRegister V) : Prop where
  nonneg : 0 ≤ r.timestamp
  not_late : r.timestamp ≤ now + maxTimestampSkewMs

variable {r : LWWRegister V}

lemma Plausible.later {now now' : ℚ} (h : r.Plausible now) (hnow : now ≤ now') :
    r.Plausible now' :=
  ⟨h.nonneg, h.not_late.trans (add_le_add hnow le_rfl)⟩

variable {now : ℚ}

lemma Plausible.merge {other : LWWRegister V} (hr : r.Plausible now) (ho : other.Plausible now) :
    (r.merge other).Plausible now := by
  rcases merge_eq_or r other with h | h
  · rwa [h]
  · rwa [h]

/-- `fromJSON` at the time `now`, with its error. -/
def decode (now : ℚ) (json : Json V) : Except CrdtDecodeError (LWWRegister V) :=
  match fromJSON (now + maxTimestampSkewMs) json with
  | none => .error (.implausibleTimestamp "LWWRegister.timestamp" json.timestamp)
  | some r => .ok r

lemma yields_decode (now : ℚ) (r : LWWRegister V) :
    Yields (decode now r.toJSON) (r.Plausible now) r := by
  by_cases h : r.Plausible now
  · refine Yields.of_eq_ok ?_ h
    rw [decode, fromJSON_toJSON h.nonneg h.not_late]
  · have hrefused : r.toJSON.timestamp < 0 ∨ r.toJSON.timestamp > now + maxTimestampSkewMs := by
      by_contra hnot
      rw [not_or, not_lt, gt_iff_lt, not_lt] at hnot
      exact h ⟨hnot.1, hnot.2⟩
    refine ⟨fun h' => absurd h' h, fun _ => ?_⟩
    rw [decode, fromJSON, if_pos hrefused]
    exact ⟨_, rfl⟩

lemma plausible_of_decode {json : Json V} (h : decode now json = .ok r) : r.Plausible now := by
  unfold decode fromJSON at h
  split at h
  · cases h
  · next hr =>
    split at hr
    · cases hr
    · next htaken =>
      cases hr
      cases h
      rw [not_or, not_lt, gt_iff_lt, not_lt] at htaken
      exact ⟨htaken.1, htaken.2⟩

end LWWRegister

structure LWWMapJson (V : Type) where
  registers : OrderedMap JsString (LWWRegister.Json V)
  keyValues : Option (OrderedMap JsString JsString)

namespace LWWMap

variable {K V : Type}

/-- Every register of the map passes the check. -/
def Plausible (now : ℚ) (m : LWWMap K V) : Prop :=
  ∀ id entry, m.entries.get? id = some entry → entry.register.Plausible now

lemma Plausible.later {now now' : ℚ} {m : LWWMap K V} (h : m.Plausible now)
    (hnow : now ≤ now') : m.Plausible now' :=
  fun id entry hentry => (h id entry hentry).later hnow

lemma Plausible.merge {m other : LWWMap K V} (hm : m.Plausible now) (ho : other.Plausible now) :
    (m.merge other).Plausible now := by
  intro id entry h
  refine OrderedMap.forall_get?_mergeInto
    (P := fun entry : LWWMapEntry K V => entry.register.Plausible now) hm ho ?_ h
  intro _ _ ha hb
  exact ha.merge hb

section Wire

variable [WireElement K]

def toJSON (m : LWWMap K V) : LWWMapJson V where
  registers := (m.entries.mapValues fun _ entry => entry.register.toJSON).toObject
  keyValues := some (m.entries.mapValues fun _ entry => WireElement.stringify entry.key).toObject

def fromJSON (now : ℚ) (json : LWWMapJson V) (custom : Option (K → JsString)) :
    Except CrdtDecodeError (LWWMap K V) := do
  let decoded ← decodeAll json.registers "LWWMap.registers"
    (decodeKeyed json.keyValues custom (LWWRegister.decode now) LWWMapEntry.mk)
  pure ⟨fileUnder mergeLWWMapEntry decoded, custom.getD WireElement.stringify⟩

/-- The map as the decoder reads it. -/
def refile (m : LWWMap K V) (custom : Option (K → JsString)) : LWWMap K V where
  entries := fileUnder mergeLWWMapEntry (m.entries.toObject.entries.map fun p =>
    decodedKeyed custom LWWMapEntry.mk p.1 p.2.key p.2.register)
  identity := custom.getD WireElement.stringify

lemma yields_fromJSON (now : ℚ) (m : LWWMap K V) (custom : Option (K → JsString)) :
    Yields (fromJSON now m.toJSON custom) (Admissible m.entries ∧ m.Plausible now)
      (m.refile custom) := by
  have htext : ∀ id entry, m.entries.get? id = some entry →
      rawText m.toJSON.keyValues id = stringify entry.key :=
    fun _ _ h => rawText_toObject m.entries (fun entry => stringify entry.key) h
  exact Yields.seq _ (yields_decodeAll (fun id entry h =>
    yields_decodeKeyed custom _ (htext id entry h) (entry.register.yields_decode now)) _)

lemma plausible_of_fromJSON {json : LWWMapJson V} {custom : Option (K → JsString)}
    {m : LWWMap K V} (h : fromJSON now json custom = .ok m) : m.Plausible now := by
  obtain ⟨decoded, hdecoded, h⟩ := bind_eq_ok h
  cases h
  intro id entry hentry
  refine forall_get?_fileUnder (P := fun _ entry => entry.register.Plausible now) ?_ ?_ hentry
  · intro d hd
    obtain ⟨p, hp⟩ := exists_of_decodeAll hdecoded hd
    obtain ⟨key, register, hregister, rfl⟩ := decodeKeyed_eq_ok hp
    exact plausible_of_decode hregister
  · intro _ a b ha hb
    exact ha.merge hb

end Wire

/-- The maps have the same registers under the same ids. -/
def SameRegisters (m other : LWWMap K V) : Prop :=
  OrderedMap.Alike (fun entry otherEntry => entry.register = otherEntry.register) m.entries
    other.entries

lemma sameRegisters_refile_none [WireElement K] (m : LWWMap K V) :
    (m.refile none).SameRegisters m := by
  have hentries : (m.refile none).entries = (m.entries.mapValues fun _ entry =>
      ⟨normal entry.key, entry.register⟩).toObject :=
    fileUnder_of_keyed mergeLWWMapEntry m.entries fun _ entry =>
      ⟨normal entry.key, entry.register⟩
  rw [SameRegisters, hentries]
  exact OrderedMap.alike_toObject fun _ _ _ => rfl

lemma SameRegisters.merge {m m' : LWWMap K V} (h : m.SameRegisters m') (other : LWWMap K V) :
    (m.merge other).SameRegisters (m'.merge other) := by
  refine OrderedMap.Alike.mergeInto (R := fun entry otherEntry : LWWMapEntry K V =>
    entry.register = otherEntry.register) ?_ ?_ h other.entries
  · intro a a' b hregister
    exact congrArg (fun r => r.merge b.register) hregister
  · exact fun _ => rfl

lemma SameRegisters.equals {m m' : LWWMap K V} (h : m.SameRegisters m')
    (stringify : Option V → Option JsString) : m.equals stringify m' = true := by
  refine OrderedMap.Alike.equalsBy h ?_
  intro entry otherEntry hregister
  rw [hregister]
  exact equals_self stringify _

end LWWMap

end ActorTs
