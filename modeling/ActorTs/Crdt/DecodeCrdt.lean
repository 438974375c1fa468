import ActorTs.Crdt.GCounterMap
import ActorTs.Crdt.GSet
import ActorTs.Crdt.LWWWire
import ActorTs.Crdt.MVRegisterWire
import ActorTs.Crdt.ORMapWire

/-!
# The nine kinds and their decoder

The values of a kind, their frames, and what can be done with them are families over `Kind`. A map
has values of one kind, which may be a map again; `decodeCrdtAtDepth` follows the kind down and
refuses a frame that is nested too deep. Only the outermost value is filed under the receiver's
identity.

Elements and the keys of maps are JSON values. The values of registers are of any type
`V`: they travel as they are.
-/

namespace ActorTs

open Outcome LWWRegister GCounterMap MVRegister

inductive Kind where
  | gCounter
  | pnCounter
  | gSet
  | orSet
  | lwwRegister
  | gCounterMap
  | lwwMap
  | mvRegister
  | orMap (value : Kind)

namespace Kind

@[reducible] def Value (V : Type) : Kind → Type
  | gCounter => GCounter
  | pnCounter => PNCounter
  | gSet => GSet Json
  | orSet => ORSet Json
  | lwwRegister => LWWRegister V
  | gCounterMap => GCounterMap Json
  | lwwMap => LWWMap Json V
  | mvRegister => MVRegister V
  | orMap k => ORMap Json (k.Value V)

@[reducible] def Frame (V : Type) : Kind → Type
  | gCounter => GCounter.Json
  | pnCounter => PNCounter.Json
  | gSet => GSetJson
  | orSet => ORSetJson
  | lwwRegister => Json V
  | gCounterMap => GCounterMapJson
  | lwwMap => LWWMapJson V
  | mvRegister => MVRegisterJson V
  | orMap k => ORMapJson (k.Frame V)

variable {V : Type}

def toJSON : (k : Kind) → k.Value V → k.Frame V
  | gCounter, c => GCounter.toJSON c
  | pnCounter, c => PNCounter.toJSON c
  | gSet, s => GSet.toJSON s
  | orSet, s => ORSet.toJSON s
  | lwwRegister, r => LWWRegister.toJSON r
  | gCounterMap, m => GCounterMap.toJSON m
  | lwwMap, m => LWWMap.toJSON m
  | mvRegister, s => MVRegister.toJSON s
  | orMap k, m => ORMap.toJSON k.toJSON m

end Kind

/-- What `JSON.stringify` makes of the values of registers, and of frames: `toTree` is what JSON can
say of a value, `none` for `undefined`. -/
structure JsonTexts (V : Type) where
  toTree : V → Option Json
  frameText : (k : Kind) → k.Frame V → JsString

namespace Kind

variable {V : Type} (texts : JsonTexts V)

/-- The text of the value of a register, where `none` is `null`. -/
def registerText (value : Option V) : Option JsString :=
  match value with
  | none => some "null"
  | some v => (texts.toTree v).map Json.stringify

/-- The merge and the comparison of a kind, as a map uses them on its values. -/
@[reducible] def crdt : (k : Kind) → Crdt (k.Value V)
  | gCounter => ⟨GCounter.merge, some GCounter.equals, fun c => texts.frameText _ (toJSON _ c)⟩
  | pnCounter => ⟨PNCounter.merge, some PNCounter.equals, fun c => texts.frameText _ (toJSON _ c)⟩
  | gSet => ⟨GSet.merge, some GSet.equals, fun s => texts.frameText gSet (toJSON gSet s)⟩
  | orSet => ⟨ORSet.merge, some ORSet.equals, fun s => texts.frameText orSet (toJSON orSet s)⟩
  | lwwRegister => ⟨merge, some (equals (registerText texts)),
      fun r => texts.frameText lwwRegister (toJSON lwwRegister r)⟩
  | gCounterMap => ⟨merge, some equals,
      fun m => texts.frameText gCounterMap (toJSON gCounterMap m)⟩
  | lwwMap => ⟨LWWMap.merge, some (LWWMap.equals (registerText texts)),
      fun m => texts.frameText lwwMap (toJSON lwwMap m)⟩
  | mvRegister => ⟨merge texts.toTree, some (equals texts.toTree),
      fun s => texts.frameText mvRegister (toJSON mvRegister s)⟩
  | orMap k =>
    let := crdt k
    ⟨ORMap.merge, some ORMap.equals, fun m => texts.frameText (orMap k) (toJSON (orMap k) m)⟩

def merge (k : Kind) (x y : k.Value V) : k.Value V := (crdt texts k).merge x y

def equals (k : Kind) (x y : k.Value V) : Bool := @Crdt.same _ (crdt texts k) x y

/-- A computation at a depth of nesting, refused where it is too deep. -/
def atDepth {α : Type} (depth : ℕ) (x : Except CrdtDecodeError α) : Except CrdtDecodeError α :=
  if maxCrdtNestingDepth < depth then .error .tooDeep else x

def decodeCrdtAtDepth (now : ℚ) :
    (k : Kind) → k.Frame V → ℕ → Option (Json → JsString) → Except CrdtDecodeError (k.Value V)
  | gCounter, json, depth, _ => atDepth depth (GCounter.fromJSON json)
  | pnCounter, json, depth, _ => atDepth depth (PNCounter.fromJSON json)
  | gSet, json, depth, identity => atDepth depth (GSet.fromJSON json identity)
  | orSet, json, depth, identity => atDepth depth (ORSet.fromJSON json identity)
  | lwwRegister, json, depth, _ => atDepth depth (LWWRegister.decode now json)
  | gCounterMap, json, depth, identity => atDepth depth (GCounterMap.fromJSON json identity)
  | lwwMap, json, depth, identity => atDepth depth (LWWMap.fromJSON now json identity)
  | mvRegister, json, depth, _ => atDepth depth (MVRegister.fromJSON json)
  | orMap k, json, depth, identity =>
    let := crdt texts k
    atDepth depth (ORMap.fromJSON
      (fun inner => decodeCrdtAtDepth now k inner (depth + 1) none) json identity)

def decodeCrdt (now : ℚ) (k : Kind) (json : k.Frame V) (identity : Option (Json → JsString)) :
    Except CrdtDecodeError (k.Value V) :=
  decodeCrdtAtDepth texts now k json 0 identity

/-- The value as the decoder reads its frame. -/
def refile : (k : Kind) → Option (Json → JsString) → k.Value V → k.Value V
  | gCounter, _, c => GCounter.reread c
  | pnCounter, _, c => ⟨c.p.reread, c.n.reread⟩
  | gSet, identity, s => GSet.refile s identity
  | orSet, identity, s => ORSet.refile s identity
  | lwwRegister, _, r => r
  | gCounterMap, identity, m => GCounterMap.refile m identity
  | lwwMap, identity, m => LWWMap.refile m identity
  | mvRegister, _, s => MVRegister.reread s
  | orMap k, identity, m =>
    let := crdt texts k
    ORMap.refile (k.refile none) m identity

/-- The part of what the decoder asks for that every merge keeps: the numbers of counters
and clocks, the timestamps, and the sizes of counters and clocks. -/
def Sound (now : ℚ) : (k : Kind) → k.Value V → Prop
  | gCounter, c => GCounter.Decodable c
  | pnCounter, c => c.p.Decodable ∧ c.n.Decodable
  | gSet, _ => True
  | orSet, _ => True
  | lwwRegister, r => LWWRegister.Plausible now r
  | gCounterMap, m => GCounterMap.Sound m
  | lwwMap, m => LWWMap.Plausible now m
  | mvRegister, s => MVRegister.Sound s
  | orMap k, m => ORMap.AllValues (k.Sound now) m

/-- The part that a merge may break: how many there are of what a merge unites. -/
def Small : (k : Kind) → ℕ → k.Value V → Prop
  | gCounter, depth, _ => depth ≤ maxCrdtNestingDepth
  | pnCounter, depth, _ => depth ≤ maxCrdtNestingDepth
  | gSet, depth, s => depth ≤ maxCrdtNestingDepth ∧ s.elements.size ≤ maxCrdtEntries
  | orSet, depth, s => depth ≤ maxCrdtNestingDepth ∧ ORSet.Sendable s
  | lwwRegister, depth, _ => depth ≤ maxCrdtNestingDepth
  | gCounterMap, depth, m => depth ≤ maxCrdtNestingDepth ∧ Admissible m.entries
  | lwwMap, depth, m => depth ≤ maxCrdtNestingDepth ∧ Admissible m.entries
  | mvRegister, depth, s =>
    depth ≤ maxCrdtNestingDepth ∧ s.entries.length ≤ maxMvRegisterEntries
  | orMap k, depth, m => depth ≤ maxCrdtNestingDepth ∧ Admissible m.entries ∧
      m.keyset.Sendable ∧ ORMap.AllValues (k.Small (depth + 1)) m

lemma yields_atDepth {α : Type} {x : Except CrdtDecodeError α} {p : Prop} {a : α}
    (h : Yields x p a) (depth : ℕ) :
    Yields (atDepth depth x) (depth ≤ maxCrdtNestingDepth ∧ p) a :=
  (Yields.guard _ h).iff (and_congr_left fun _ => not_lt)

lemma yields_decodeCrdtAtDepth (now : ℚ) (k : Kind) (x : k.Value V) (depth : ℕ)
    (identity : Option (Json → JsString)) :
    Yields (decodeCrdtAtDepth texts now k (toJSON k x) depth identity)
      (Sound now k x ∧ Small k depth x) (refile texts k identity x) := by
  induction k generalizing depth identity with
  | gCounter =>
    exact (yields_atDepth (GCounter.yields_fromJSON_toJSON x) depth).iff and_comm
  | pnCounter =>
    exact (yields_atDepth ((GCounter.yields_fromJSON_toJSON x.p).bind
      ((GCounter.yields_fromJSON_toJSON x.n).seq (PNCounter.mk x.p.reread))) depth).iff and_comm
  | gSet =>
    exact (yields_atDepth (GSet.yields_fromJSON x identity) depth).iff (and_iff_right trivial).symm
  | orSet =>
    exact (yields_atDepth (ORSet.yields_fromJSON x identity) depth).iff (and_iff_right trivial).symm
  | lwwRegister =>
    exact (yields_atDepth (yields_decode now x) depth).iff and_comm
  | gCounterMap =>
    refine (yields_atDepth (yields_fromJSON x identity) depth).iff ?_
    exact and_assoc.symm.trans and_comm
  | lwwMap =>
    refine (yields_atDepth (LWWMap.yields_fromJSON now x identity) depth).iff ?_
    exact and_assoc.symm.trans and_comm
  | mvRegister =>
    refine (yields_atDepth (yields_fromJSON x) depth).iff ?_
    exact and_assoc.symm.trans and_comm
  | orMap k ih =>
    let := crdt texts k
    have hvalue : ∀ v, Yields (decodeCrdtAtDepth texts now k (toJSON k v) (depth + 1) none)
        (Sound now k v ∧ Small k (depth + 1) v) (refile texts k none v) :=
      fun v => ih v (depth + 1) none
    have hmap : Yields (ORMap.fromJSON (fun inner =>
        decodeCrdtAtDepth texts now k inner (depth + 1) none) (ORMap.toJSON k.toJSON x) identity)
        _ _ := ORMap.yields_fromJSON hvalue x identity
    refine (yields_atDepth hmap depth).iff ?_
    constructor
    · rintro ⟨hdepth, ⟨hids, hvalues⟩, hkeyset⟩
      exact ⟨fun id entry h => (hvalues id entry h).1, hdepth, hids, hkeyset,
        fun id entry h => (hvalues id entry h).2⟩
    · rintro ⟨hsound, hdepth, hids, hkeyset, hsmall⟩
      exact ⟨hdepth, ⟨hids, fun id entry h => ⟨hsound id entry h, hsmall id entry h⟩⟩, hkeyset⟩

end Kind

end ActorTs
