import ActorTs.Crdt.CounterRuns
import ActorTs.Crdt.MergeClosure

/-!
# Values that survive the wire

A value that is built on the default identity keeps its keys on the way: the decoder files
everything under the sender's key, and a grow-only set, whose frame has no keys, has filed
its elements under their texts. What is read back may list its keys in another order and
hold other instances of elements; `Same` is what remains, and every merge and comparison
respects it.

So a value that the decoder takes comes back as good as it was. That it takes it is a matter of
sizes, timestamps and numbers: an increment may be by a half, and a write may raise a clock over the
ceiling.
-/

namespace ActorTs

open ORSet.SameTags ORMap

namespace Kind

open Outcome

variable {V : Type} (texts : JsonTexts V)

/-- The values that the operations of the kinds reach on the default identity. The frames
that are read here are those of other such values. -/
inductive Reachable : (k : Kind) → k.Value V → Prop
  | gCounterEmpty : Reachable gCounter GCounter.empty
  | gCounterIncrement {c c' : GCounter} {replica : ReplicaId} {delta : JsNumber}
      (hc : Reachable gCounter c) (h : c.increment replica delta = .ok c') : Reachable gCounter c'
  | pnCounterEmpty : Reachable pnCounter PNCounter.empty
  | pnCounterIncrement {c c' : PNCounter} {replica : ReplicaId} {delta : JsNumber}
      (hc : Reachable pnCounter c) (h : c.increment replica delta = .ok c') :
      Reachable pnCounter c'
  | pnCounterDecrement {c c' : PNCounter} {replica : ReplicaId} {delta : JsNumber}
      (hc : Reachable pnCounter c) (h : c.decrement replica delta = .ok c') :
      Reachable pnCounter c'
  | gSetEmpty : Reachable gSet (GSet.empty Json.stringify)
  | gSetAdd {s : GSet Json} (hs : Reachable gSet s) {element : Json}
      (helement : Representable element) : Reachable gSet (s.add element)
  | orSetEmpty : Reachable orSet (ORSet.empty Json.stringify)
  | orSetAdd {s s' : ORSet Json} {replica : ReplicaId} {element : Json} {draws : ℕ → JsString}
      (hs : Reachable orSet s) (h : s.add replica element draws = some s') : Reachable orSet s'
  | orSetRemove {s : ORSet Json} (hs : Reachable orSet s) (element : Json) :
      Reachable orSet (s.remove element)
  | lwwRegisterEmpty : Reachable lwwRegister LWWRegister.empty
  | lwwRegisterAssign {r : LWWRegister V} (hr : Reachable lwwRegister r) (replica : ReplicaId)
      (value : Option V) (timestamp : ℚ) :
      Reachable lwwRegister (r.assign replica value timestamp)
  | gCounterMapEmpty : Reachable gCounterMap (GCounterMap.empty Json.stringify)
  | gCounterMapIncrement {m m' : GCounterMap Json} {replica : ReplicaId} {key : Json}
      {delta : JsNumber} (hm : Reachable gCounterMap m)
      (h : m.increment replica key delta = .ok m') : Reachable gCounterMap m'
  | lwwMapEmpty : Reachable lwwMap (LWWMap.empty Json.stringify)
  | lwwMapPut {m : LWWMap Json V} (hm : Reachable lwwMap m) (replica : ReplicaId) (key : Json)
      (value : V) (timestamp : ℚ) : Reachable lwwMap (m.put replica key value timestamp)
  | lwwMapRemove {m : LWWMap Json V} (hm : Reachable lwwMap m) (replica : ReplicaId) (key : Json)
      (timestamp : ℚ) : Reachable lwwMap (m.remove replica key timestamp)
  | mvRegisterEmpty : Reachable mvRegister MVRegister.empty
  | mvRegisterAssign {s : MVRegister V} (hs : Reachable mvRegister s) (replica : ReplicaId)
      (value : V) : Reachable mvRegister (s.assign replica value)
  | orMapEmpty (k : Kind) : Reachable (orMap k) (ORMap.empty Json.stringify)
  | orMapPut {k : Kind} {m m' : ORMap Json (k.Value V)} {replica : ReplicaId} {key : Json}
      {value : k.Value V} {draws : ℕ → JsString} (hm : Reachable (orMap k) m)
      (hvalue : Reachable k value) (h : m.put replica key value draws = some m') :
      Reachable (orMap k) m'
  | orMapUpdate {k : Kind} {m m' : ORMap Json (k.Value V)} {replica : ReplicaId} {key : Json}
      {factory : Unit → k.Value V} {mutator : k.Value V → k.Value V} {draws : ℕ → JsString}
      (hm : Reachable (orMap k) m)
      (hvalue : Reachable k (mutator ((m.get key).getD (factory ()))))
      (h : m.update replica key factory mutator draws = some m') : Reachable (orMap k) m'
  | orMapRemove {k : Kind} {m : ORMap Json (k.Value V)} (hm : Reachable (orMap k) m)
      (key : Json) : Reachable (orMap k) (m.remove key)
  | merge {k : Kind} {x y : k.Value V} (hx : Reachable k x) (hy : Reachable k y) :
      Reachable k (merge texts k x y)
  | decode {k : Kind} {x x' : k.Value V} {now : ℚ} (hx : Reachable k x)
      (h : decodeCrdt texts now k (toJSON k x) none = .ok x') : Reachable k x'

/-- Grow-only sets file their elements under their texts, also where they are the values of
maps. -/
def Tidy : (k : Kind) → k.Value V → Prop
  | gSet, s => GSet.TextFiled s
  | orMap k, m => ORMap.AllValues k.Tidy m
  | _, _ => True

variable (k : Kind)

lemma tidy_merge {x y : k.Value V} (hx : Tidy k x) (hy : Tidy k y) :
    Tidy k (merge texts k x y) := by
  induction k with
  | gSet => exact GSet.TextFiled.merge hx hy
  | orMap k ih =>
    let := crdt texts k
    exact allValues_merge (fun v w hv hw => ih hv hw) hx hy
  | _ => exact trivial

lemma tidy_refile {x : k.Value V} (hx : Tidy k x) : Tidy k (refile texts k none x) := by
  induction k with
  | gSet => exact GSet.textFiled_refile_none x
  | orMap k ih =>
    let := crdt texts k
    exact allValues_refile_none fun id entry hentry => ih (hx id entry hentry)
  | _ => exact trivial

lemma tidy_put {k : Kind} {m m' : ORMap Json (k.Value V)} {replica : ReplicaId} {key : Json}
    {value : k.Value V} {draws : ℕ → JsString} (hm : Tidy (orMap k) m) (hvalue : Tidy k value)
    (h : m.put replica key value draws = some m') : Tidy (orMap k) m' := by
  obtain ⟨keyset, -, rfl⟩ := Option.map_eq_some_iff.1 h
  intro id entry hentry
  rcases OrderedMap.get?_set_cases hentry with ⟨-, rfl⟩ | hentry
  · exact hvalue
  · exact hm id entry hentry

lemma Reachable.tidy {k : Kind} {x : k.Value V} (h : Reachable texts k x) : Tidy k x := by
  induction h with
  | gSetEmpty => exact GSet.textFiled_empty
  | gSetAdd _ helement ih => exact GSet.TextFiled.add ih helement
  | orMapEmpty k =>
    intro id entry hentry
    cases hentry
  | orMapPut _ _ h ihm ihvalue => exact tidy_put ihm ihvalue h
  | orMapUpdate _ _ h ihm ihvalue => exact tidy_put ihm ihvalue h
  | orMapRemove _ _ ih => exact ih
  | merge _ _ ihx ihy => exact tidy_merge texts _ ihx ihy
  | decode _ h ih =>
    rw [((yields_decodeCrdtAtDepth texts _ _ _ 0 none).eq_of_eq_ok h).2]
    exact tidy_refile texts _ ih
  | _ => exact trivial

/-- The values differ at most in the order of their keys and in the instances of the
elements they hold. -/
def Same : (k : Kind) → k.Value V → k.Value V → Prop
  | gCounter, c, c' => GCounter.SameSlots c c'
  | pnCounter, c, c' => c.p.SameSlots c'.p ∧ c.n.SameSlots c'.n
  | gSet, s, s' => ∀ key, key ∈ s.elements.keys ↔ key ∈ s'.elements.keys
  | orSet, s, s' => ORSet.SameTags s s'
  | lwwRegister, r, r' => r = r'
  | gCounterMap, m, m' => GCounterMap.SameCounters m m'
  | lwwMap, m, m' => LWWMap.SameRegisters m m'
  | mvRegister, s, s' => MVRegister.SameEntries s s'
  | orMap k, m, m' => ORMap.SameMap k.Same m m'

lemma same_refl (x : k.Value V) : Same k x x := by
  induction k with
  | gCounter => exact fun _ => rfl
  | pnCounter => exact ⟨fun _ => rfl, fun _ => rfl⟩
  | gSet => exact fun _ => Iff.rfl
  | orSet => exact refl x
  | lwwRegister => exact rfl
  | gCounterMap => exact OrderedMap.Alike.refl (fun _ _ => rfl) x.entries
  | lwwMap =>
    exact OrderedMap.Alike.refl (R := fun entry otherEntry : LWWMapEntry Json V =>
      entry.register = otherEntry.register) (fun _ => rfl) x.entries
  | mvRegister => exact List.forall₂_same.2 fun e _ => MVRegister.SameEntry.refl e
  | orMap k ih =>
    exact ⟨refl x.keyset, OrderedMap.Alike.refl (fun entry => ih entry.value) _⟩

lemma same_merge {x x' : k.Value V} (h : Same k x x') (y : k.Value V) :
    Same k (merge texts k x y) (merge texts k x' y) := by
  induction k with
  | gCounter => exact GCounter.SameSlots.merge h y
  | pnCounter => exact ⟨h.1.merge y.p, h.2.merge y.n⟩
  | gSet =>
    intro key
    exact (GSet.mem_keys_merge x y key).trans
      ((or_congr_left (h key)).trans (GSet.mem_keys_merge x' y key).symm)
  | orSet => exact ORSet.SameTags.merge h y
  | lwwRegister => exact congrArg (fun r => LWWRegister.merge r y) h
  | gCounterMap => exact GCounterMap.SameCounters.merge h y
  | lwwMap => exact LWWMap.SameRegisters.merge h y
  | mvRegister => exact MVRegister.SameEntries.merge h texts.toTree y
  | orMap k ih =>
    let := crdt texts k
    exact SameMap.merge h (fun v v' w hv => ih hv w) (same_refl k) y

lemma equals_of_same {x x' : k.Value V} (h : Same k x x') : equals texts k x x' = true := by
  induction k with
  | gCounter => exact (GCounter.equals_iff x x').2 h
  | pnCounter =>
    exact Bool.and_eq_true_iff.2
      ⟨(GCounter.equals_iff x.p x'.p).2 h.1, (GCounter.equals_iff x.n x'.n).2 h.2⟩
  | gSet => exact (GSet.equals_iff x x').2 h
  | orSet => exact ORSet.SameTags.equals h
  | lwwRegister =>
    obtain rfl : x = x' := h
    exact LWWRegister.equals_self (registerText texts) x
  | gCounterMap => exact GCounterMap.SameCounters.equals h
  | lwwMap => exact LWWMap.SameRegisters.equals h (registerText texts)
  | mvRegister => exact MVRegister.SameEntries.equals h texts.toTree
  | orMap k ih =>
    let := crdt texts k
    exact SameMap.equals h fun v v' hv => ih hv

lemma Tidy.same_refile {x : k.Value V} (hx : Tidy k x) : Same k (refile texts k none x) x := by
  induction k with
  | gCounter => exact GCounter.sameSlots_reread x
  | pnCounter => exact ⟨x.p.sameSlots_reread, x.n.sameSlots_reread⟩
  | gSet => exact GSet.TextFiled.mem_keys_refile hx
  | orSet => exact ORSet.sameTags_refile_none x
  | lwwRegister => exact rfl
  | gCounterMap => exact GCounterMap.sameCounters_refile_none x
  | lwwMap => exact LWWMap.sameRegisters_refile_none x
  | mvRegister => exact MVRegister.sameEntries_reread x
  | orMap k ih =>
    let := crdt texts k
    exact sameMap_refile_none fun id entry hentry => ih (hx id entry hentry)

/-- Every collection is within its cap, no id is `__proto__`, the timestamps are plausible
and the maps are not nested too deep. -/
def WithinCaps (now : ℚ) : (k : Kind) → ℕ → k.Value V → Prop
  | gCounter, depth, c => depth ≤ maxCrdtNestingDepth ∧ Admissible c.state
  | pnCounter, depth, c =>
    depth ≤ maxCrdtNestingDepth ∧ Admissible c.p.state ∧ Admissible c.n.state
  | gSet, depth, s => depth ≤ maxCrdtNestingDepth ∧ s.elements.size ≤ maxCrdtEntries
  | orSet, depth, s => depth ≤ maxCrdtNestingDepth ∧ ORSet.Sendable s
  | lwwRegister, depth, r => depth ≤ maxCrdtNestingDepth ∧ LWWRegister.Plausible now r
  | gCounterMap, depth, m => depth ≤ maxCrdtNestingDepth ∧ Admissible m.entries ∧
      ∀ id entry, m.entries.get? id = some entry → Admissible entry.counter.state
  | lwwMap, depth, m =>
    depth ≤ maxCrdtNestingDepth ∧ Admissible m.entries ∧ LWWMap.Plausible now m
  | mvRegister, depth, s => depth ≤ maxCrdtNestingDepth ∧
      s.entries.length ≤ maxMvRegisterEntries ∧ ∀ e ∈ s.entries, Admissible e.vc
  | orMap k, depth, m => depth ≤ maxCrdtNestingDepth ∧ Admissible m.entries ∧
      m.keyset.Sendable ∧ ORMap.AllValues (k.WithinCaps now (depth + 1)) m

/-- Every slot of a counter is a whole number, and no version of a clock is over the
ceiling. -/
def Exact : (k : Kind) → k.Value V → Prop
  | gCounter, c => GCounter.Whole c
  | pnCounter, c => c.p.Whole ∧ c.n.Whole
  | gCounterMap, m => ∀ id entry, m.entries.get? id = some entry → entry.counter.Whole
  | mvRegister, s => ∀ e ∈ s.entries, MVRegister.UnderCeiling e.vc
  | orMap k, m => ORMap.AllValues k.Exact m
  | _, _ => True

lemma sound_and_small_iff {now : ℚ} {depth : ℕ} {x : k.Value V} (h : WithinCaps now k depth x) :
    Sound now k x ∧ Small k depth x ↔ Exact k x := by
  induction k generalizing depth with
  | gCounter => exact ⟨fun hx => hx.1.whole, fun hx => ⟨⟨h.2, hx⟩, h.1⟩⟩
  | pnCounter =>
    exact ⟨fun hx => ⟨hx.1.1.whole, hx.1.2.whole⟩, fun hx => ⟨⟨⟨h.2.1, hx.1⟩, h.2.2, hx.2⟩, h.1⟩⟩
  | gSet | orSet => exact ⟨fun _ => trivial, fun _ => ⟨trivial, h⟩⟩
  | lwwRegister => exact ⟨fun _ => trivial, fun _ => ⟨h.2, h.1⟩⟩
  | gCounterMap =>
    constructor
    · exact fun hx id entry hentry => (hx.1 id entry hentry).whole
    · exact fun hx => ⟨fun id entry hentry => ⟨h.2.2 id entry hentry, hx id entry hentry⟩,
        h.1, h.2.1⟩
  | lwwMap => exact ⟨fun _ => trivial, fun _ => ⟨h.2.2, h.1, h.2.1⟩⟩
  | mvRegister =>
    constructor
    · exact fun hx e he => (hx.1 e he).2
    · exact fun hx => ⟨fun e he => ⟨h.2.2 e he, hx e he⟩, h.1, h.2.1⟩
  | orMap k ih =>
    obtain ⟨hdepth, hids, hkeyset, hvalues⟩ := h
    constructor
    · rintro ⟨hsound, -, -, -, hsmall⟩ id entry hentry
      exact (ih (hvalues id entry hentry)).1 ⟨hsound id entry hentry, hsmall id entry hentry⟩
    · intro hx
      have hboth : ∀ id entry, x.entries.get? id = some entry →
          Sound now k entry.value ∧ Small k (depth + 1) entry.value :=
        fun id entry hentry => (ih (hvalues id entry hentry)).2 (hx id entry hentry)
      exact ⟨fun id entry hentry => (hboth id entry hentry).1, hdepth, hids, hkeyset,
        fun id entry hentry => (hboth id entry hentry).2⟩

/-- The frame of the value is read, and what is read equals the value, also after any
merge. -/
def SurvivesWire (now : ℚ) (k : Kind) (x : k.Value V) : Prop :=
  ∃ x', decodeCrdt texts now k (toJSON k x) none = .ok x' ∧ equals texts k x' x = true ∧
    ∀ y, equals texts k (merge texts k x' y) (merge texts k x y) = true

/-- Within the caps, a value of the operations survives the wire exactly where its counters
hold whole numbers and its clocks are under the ceiling. -/
theorem survivesWire_iff {now : ℚ} {k : Kind} {x : k.Value V} (hx : Reachable texts k x)
    (hcaps : WithinCaps now k 0 x) : SurvivesWire texts now k x ↔ Exact k x := by
  rw [← sound_and_small_iff k hcaps]
  have hdecode := yields_decodeCrdtAtDepth texts now k x 0 none
  constructor
  · rintro ⟨x', hx', -⟩
    exact (hdecode.eq_of_eq_ok hx').1
  · intro htaken
    have hsame := hx.tidy.same_refile texts k
    refine ⟨_, hdecode.1 htaken, equals_of_same texts k hsame, fun y => ?_⟩
    exact equals_of_same texts k (same_merge texts k hsame y)

lemma withinCaps_set (now : ℚ) (slot : Slot) :
    WithinCaps (V := JsString) now gCounter 0 ⟨GCounter.empty.state.set "a" slot⟩ := by
  refine ⟨Nat.zero_le _, ?_, ?_⟩
  · change 1 ≤ maxCrdtEntries
    decide
  · change protoKey ∉ ["a".toJs]
    decide

lemma whole_set_iff (slot : Slot) :
    GCounter.Whole ⟨GCounter.empty.state.set "a" slot⟩ ↔ slot.IsWhole := by
  constructor
  · intro h
    exact h "a" slot (OrderedMap.get?_set_self _ _ _)
  · intro h r s hs
    rcases OrderedMap.get?_set_cases hs with ⟨-, rfl⟩ | hs
    · exact h
    · cases hs

/-- An increment by one survives. -/
theorem survivesWire_one : ∃ c, GCounter.empty.increment "a" (.finite GCounter.one) = .ok c ∧
    SurvivesWire stringTexts 0 gCounter c := by
  obtain ⟨slot, hc, hval⟩ := GCounter.increment_one "a"
  refine ⟨_, hc, (survivesWire_iff stringTexts (.gCounterIncrement .gCounterEmpty hc)
    (withinCaps_set 0 slot)).2 ((whole_set_iff slot).2 ?_)⟩
  rw [Slot.IsWhole, hval]
  rfl

/-- An increment by a half is within the caps, and does not survive. -/
theorem not_survivesWire_half :
    ∃ c, GCounter.empty.increment "a" (.finite GCounter.half) = .ok c ∧
      Reachable stringTexts gCounter c ∧ WithinCaps (V := JsString) 0 gCounter 0 c ∧
      ¬ SurvivesWire stringTexts 0 gCounter c := by
  obtain ⟨slot, hc, hval⟩ := GCounter.increment_half "a"
  refine ⟨_, hc, .gCounterIncrement .gCounterEmpty hc, withinCaps_set 0 slot, ?_⟩
  rintro ⟨c', hc', -⟩
  have hsound : GCounter.Decodable ⟨GCounter.empty.state.set "a" slot⟩ :=
    ((yields_decodeCrdtAtDepth stringTexts 0 gCounter _ 0 none).eq_of_eq_ok hc').1.1
  obtain ⟨n, hn, -⟩ := GCounter.exists_natCast ((whole_set_iff slot).1 hsound.whole)
  exact GCounter.half_ne_natCast n (hval.symm.trans hn)

end Kind

end ActorTs
