import ActorTs.Crdt.ORSet
import ActorTs.Crdt.WireValidation

/-!
# The grow-only counter and the counter that goes both ways

A counter has a slot for every replica; its value is the sum of them. A merge takes the
larger slot where both sides have one and never drops a slot it holds; of the slots that
are new to it, it takes as many as there is room for, in the order of their ids.

That a slot lies between zero and the ceiling is part of its type. That it is whole and that there
are not too many is not: `increment` tests neither.
-/

open List Option Nat

namespace ActorTs

open OrderedMap

open Outcome JsNumber

structure GCounter where
  state : OrderedMap ReplicaId Slot

/-- Why an update is refused, under the name of the operation. -/
inductive IncrementError where
  | negativeDelta (operation : JsString) (delta : JsNumber)
  | infiniteDelta
  | overCeiling (replica : ReplicaId) (count : ℚ)

namespace GCounter

def empty : GCounter := ⟨OrderedMap.empty⟩

/-- The count of a replica, zero where it has no slot. -/
def count (c : GCounter) (replica : ReplicaId) : ℚ := ((c.state.get? replica).map Slot.val).getD 0

lemma count_nonneg (c : GCounter) (replica : ReplicaId) : 0 ≤ c.count replica := by
  unfold count
  cases c.state.get? replica with
  | none => exact le_rfl
  | some s => exact s.nonneg

lemma next_nonneg (c : GCounter) (replica : ReplicaId) {d : ℚ} (h : ¬ d < 0) :
    0 ≤ nearest (c.count replica + d) :=
  nearest_nonneg (add_nonneg (c.count_nonneg replica) (not_lt.1 h))

def increment (c : GCounter) (replica : ReplicaId) (delta : JsNumber) :
    Except IncrementError GCounter :=
  match delta with
  | .nan => .error .infiniteDelta
  | .infinity negative =>
    .error (if negative then .negativeDelta "GCounter.increment" delta else .infiniteDelta)
  | .finite d =>
    if h : d.toRat < 0 then .error (.negativeDelta "GCounter.increment" delta)
    else if h' : maxCounterSlot < nearest (c.count replica + d.toRat) then
      .error (.overCeiling replica (nearest (c.count replica + d.toRat)))
    else .ok ⟨c.state.set replica ⟨_, c.next_nonneg replica h, not_lt.1 h'⟩⟩

def value (c : GCounter) : ℚ :=
  c.state.values.foldl (fun total count => nearest (total + count.val)) 0

/-- One slot of the other side: it raises a slot that is held, and is noted where there is
none. -/
def mergeSlot (next : OrderedMap ReplicaId Slot × List ReplicaId) (p : ReplicaId × Slot) :
    OrderedMap ReplicaId Slot × List ReplicaId :=
  match next.1.get? p.1 with
  | none => (next.1, next.2 ++ [p.1])
  | some ours => (if ours.val < p.2.val then next.1.set p.1 p.2 else next.1, next.2)

/-- Take newcomers as long as there is room. -/
def takeNewcomers (other : GCounter) (next : OrderedMap ReplicaId Slot) :
    List ReplicaId → OrderedMap ReplicaId Slot
  | [] => next
  | replica :: newcomers =>
    if maxCrdtEntries ≤ next.size then next
    else match other.state.get? replica with
      | none => takeNewcomers other next newcomers
      | some count => takeNewcomers other (next.set replica count) newcomers

def merge (c other : GCounter) : GCounter :=
  let (next, newcomers) := other.state.entries.foldl mergeSlot (c.state, [])
  ⟨takeNewcomers other next (newcomers.mergeSort fun a b => decide (a ≤ b))⟩

/-- The JSON form, less its `kind`. -/
structure Json where
  state : OrderedMap ReplicaId ℚ

def toJSON (c : GCounter) : Json := ⟨(c.state.mapValues fun _ s => s.val).toObject⟩

def decodeSlot (p : ReplicaId × ℚ) : Except CrdtDecodeError (ReplicaId × Slot) := do
  let slot ← assertCounterValue p.2 (propertyPath "GCounter.state" p.1)
  pure (p.1, slot)

def fromJSON (json : Json) : Except CrdtDecodeError GCounter := do
  let state ← decodeEntries decodeSlot (fun _ count => count) json.state "GCounter.state"
  pure ⟨state⟩

def equals (c other : GCounter) : Bool := c.state.equalsBy (fun a b => decide (a = b)) other.state

/-- The larger of two slots, the first where they are alike. -/
def larger (a b : Slot) : Slot := if a.val < b.val then b else a

variable (a b : Slot)

lemma le_larger : a.val ≤ (larger a b).val := by
  unfold larger
  split
  · exact le_of_lt ‹_›
  · exact le_rfl

lemma val_larger : (larger a b).val = max a.val b.val := by
  unfold larger
  split
  · rw [max_eq_right (le_of_lt ‹_›)]
  · rw [max_eq_left (not_lt.1 ‹_›)]

lemma larger_eq_or : larger a b = a ∨ larger a b = b := by
  unfold larger
  split
  · exact .inr rfl
  · exact .inl rfl

lemma get?_foldl_mergeSlot {l : List (ReplicaId × Slot)} (hl : (l.map Prod.fst).Nodup)
    (next : OrderedMap ReplicaId Slot × List ReplicaId) (r : ReplicaId) :
    (l.foldl mergeSlot next).1.get? r =
      (next.1.get? r).map fun ours => ((OrderedMap.lookup r l).map (larger ours)).getD ours := by
  induction l generalizing next with
  | nil => simp [OrderedMap.lookup]
  | cons p l ih =>
    rw [map_cons, nodup_cons] at hl
    rw [foldl_cons, ih hl.2, OrderedMap.lookup]
    by_cases hr : p.1 = r
    · subst hr
      have hnone := lookup_eq_none_of_notMem hl.1
      cases hours : next.1.get? p.1 with
      | none => simp [mergeSlot, hours]
      | some ours =>
        by_cases hlt : ours.val < p.2.val
        · simp [mergeSlot, hours, hlt, hnone, larger]
        · simp [mergeSlot, hours, hlt, hnone, larger]
    · rw [if_neg hr]
      congr 1
      unfold mergeSlot
      cases next.1.get? p.1 with
      | none => rfl
      | some ours =>
        simp only
        split
        · rw [get?_set, if_neg hr]
        · rfl

lemma newcomers_foldl_mergeSlot (l : List (ReplicaId × Slot))
    (next : OrderedMap ReplicaId Slot × List ReplicaId) :
    (l.foldl mergeSlot next).2 =
      next.2 ++ (l.map Prod.fst).filter fun r => decide (r ∉ next.1.keys) := by
  induction l generalizing next with
  | nil => simp
  | cons p l ih =>
    have hkeys : ∀ r, r ∈ (mergeSlot next p).1.keys ↔ r ∈ next.1.keys := by
      intro r
      unfold mergeSlot
      cases hours : next.1.get? p.1 with
      | none => rfl
      | some ours =>
        simp only
        split
        · rw [mem_keys_set]
          refine ⟨?_, .inr⟩
          rintro (rfl | hr)
          · exact (mem_keys_iff _ _).2 ⟨ours, hours⟩
          · exact hr
        · rfl
    rw [foldl_cons, ih]
    simp only [hkeys, map_cons]
    unfold mergeSlot
    cases hours : next.1.get? p.1 with
    | none =>
      have hnew : p.1 ∉ next.1.keys := (get?_eq_none_iff _ _).1 hours
      simp [hnew]
    | some ours =>
      have hheld : p.1 ∈ next.1.keys := (mem_keys_iff _ _).2 ⟨ours, hours⟩
      simp [hheld]

section Newcomers

variable {other : GCounter} {next : OrderedMap ReplicaId Slot} {newcomers : List ReplicaId}
  {r : ReplicaId}

lemma get?_takeNewcomers_of_notMem (h : r ∉ newcomers) :
    (takeNewcomers other next newcomers).get? r = next.get? r := by
  induction newcomers generalizing next with
  | nil => rfl
  | cons replica newcomers ih =>
    rw [mem_cons, not_or] at h
    unfold takeNewcomers
    split
    · rfl
    · split
      · exact ih h.2
      · rw [ih h.2, get?_set, if_neg (Ne.symm h.1)]

lemma get?_takeNewcomers_cases (other : GCounter) (next : OrderedMap ReplicaId Slot)
    (newcomers : List ReplicaId) (r : ReplicaId) :
    (takeNewcomers other next newcomers).get? r = next.get? r ∨
      (takeNewcomers other next newcomers).get? r = other.state.get? r := by
  induction newcomers generalizing next with
  | nil => exact .inl rfl
  | cons replica newcomers ih =>
    unfold takeNewcomers
    split
    · exact .inl rfl
    · split
      · exact ih next
      · rename_i count hcount
        rcases ih (next.set replica count) with h | h
        · by_cases hr : replica = r
          · rw [h, get?_set, if_pos hr, ← hr, hcount]
            exact .inr rfl
          · rw [h, get?_set, if_neg hr]
            exact .inl rfl
        · exact .inr h

lemma size_takeNewcomers_le (h : next.size ≤ maxCrdtEntries) :
    (takeNewcomers other next newcomers).size ≤ maxCrdtEntries := by
  induction newcomers generalizing next with
  | nil => exact h
  | cons replica newcomers ih =>
    unfold takeNewcomers
    split
    · exact h
    · rename_i hroom
      split
      · exact ih h
      · exact ih ((size_set_le _ _ _).trans (not_le.1 hroom))

lemma get?_takeNewcomers_of_room (hroom : next.size + newcomers.length ≤ maxCrdtEntries)
    (hr : r ∈ newcomers) (hother : r ∈ other.state.keys) :
    (takeNewcomers other next newcomers).get? r = other.state.get? r := by
  induction newcomers generalizing next with
  | nil => cases hr
  | cons replica newcomers ih =>
    rw [length_cons] at hroom
    unfold takeNewcomers
    rw [if_neg (by omega)]
    by_cases hmem : r ∈ newcomers
    · split
      · exact ih (by omega) hmem
      · rename_i count _
        refine ih ?_ hmem
        have hset := size_set_le next replica count
        omega
    · obtain rfl : r = replica := (mem_cons.1 hr).resolve_right hmem
      obtain ⟨count, hcount⟩ := (mem_keys_iff _ _).1 hother
      rw [hcount]
      rw [get?_takeNewcomers_of_notMem hmem, get?_set_self]

end Newcomers

/-- The replicas that only the other side has a slot for. -/
def newcomers (c other : GCounter) : List ReplicaId :=
  other.state.keys.filter fun r => decide (r ∉ c.state.keys)

/-- The slots held, each raised to the other side's. -/
def raised (c other : GCounter) : OrderedMap ReplicaId Slot :=
  (other.state.entries.foldl mergeSlot (c.state, [])).1

variable (c other : GCounter)

lemma merge_eq : c.merge other = ⟨takeNewcomers other (c.raised other)
      ((c.newcomers other).mergeSort fun a b => decide (a ≤ b))⟩ := by
  have hnewcomers : (other.state.entries.foldl mergeSlot (c.state, [])).2 = c.newcomers other :=
    newcomers_foldl_mergeSlot other.state.entries (c.state, [])
  rw [← hnewcomers]
  rfl

lemma get?_raised (r : ReplicaId) :
    (c.raised other).get? r = (c.state.get? r).map fun ours =>
      ((other.state.get? r).map (larger ours)).getD ours :=
  get?_foldl_mergeSlot other.state.nodupKeys (c.state, []) r

lemma size_raised : (c.raised other).size = c.state.size := by
  refine size_eq_of_keys fun r => ?_
  rw [mem_keys_iff, mem_keys_iff, get?_raised]
  simp

variable {c : GCounter} {r : ReplicaId} {c' : GCounter}

lemma get?_merge_of_some (other : GCounter) {ours : Slot} (h : c.state.get? r = some ours) :
    (c.merge other).state.get? r = some (((other.state.get? r).map (larger ours)).getD ours) := by
  have hheld : r ∈ c.state.keys := (mem_keys_iff _ _).2 ⟨ours, h⟩
  rw [merge_eq]
  rw [get?_takeNewcomers_of_notMem, get?_raised, h, map_some]
  rw [mem_mergeSort, newcomers, mem_filter]
  exact fun hmem => of_decide_eq_true hmem.2 hheld

lemma get?_merge_of_none (other : GCounter) (h : c.state.get? r = none) :
    (c.merge other).state.get? r = none ∨
      (c.merge other).state.get? r = other.state.get? r := by
  have hraised : (c.raised other).get? r = none := by
    rw [get?_raised, h, map_none]
  rw [merge_eq]
  rcases get?_takeNewcomers_cases other (c.raised other)
    ((c.newcomers other).mergeSort fun a b => decide (a ≤ b)) r with hold | hnew
  · exact .inl (hold.trans hraised)
  · exact .inr hnew

variable {other : GCounter}

lemma get?_merge_of_room (hroom : c.state.size + (c.newcomers other).length ≤ maxCrdtEntries)
    (h : c.state.get? r = none) : (c.merge other).state.get? r = other.state.get? r := by
  by_cases hother : r ∈ other.state.keys
  · rw [merge_eq]
    refine get?_takeNewcomers_of_room ?_ ?_ hother
    · rwa [size_raised, length_mergeSort]
    · rw [mem_mergeSort, newcomers, mem_filter, decide_eq_true_eq]
      exact ⟨hother, (get?_eq_none_iff _ _).1 h⟩
  · rw [(get?_eq_none_iff _ _).2 hother]
    rcases get?_merge_of_none other h with hnone | hsome
    · exact hnone
    · rw [hsome, get?_eq_none_iff]
      exact hother

lemma size_merge_le (other : GCounter) (h : c.state.size ≤ maxCrdtEntries) :
    (c.merge other).state.size ≤ maxCrdtEntries := by
  rw [merge_eq]
  refine size_takeNewcomers_le ?_
  rwa [size_raised]

lemma get?_merge_mem {s : Slot} (h : (c.merge other).state.get? r = some s) :
    c.state.get? r = some s ∨ other.state.get? r = some s := by
  cases hours : c.state.get? r with
  | none =>
    rcases get?_merge_of_none other hours with hnone | hnew
    · rw [hnone] at h
      cases h
    · exact .inr (hnew ▸ h)
  | some ours =>
    rw [get?_merge_of_some other hours, some.injEq] at h
    cases htheirs : other.state.get? r with
    | none =>
      rw [htheirs] at h
      exact .inl (congrArg some h)
    | some theirs =>
      rw [htheirs, map_some, getD_some] at h
      rcases larger_eq_or ours theirs with heq | heq
      · exact .inl (congrArg some (heq.symm.trans h))
      · exact .inr (congrArg some (heq.symm.trans h))

/-- Every slot holds a whole number. -/
def Whole (c : GCounter) : Prop := ∀ r s, c.state.get? r = some s → s.IsWhole

/-- What the decoder asks of a counter. -/
structure Decodable (c : GCounter) : Prop where
  admissible : Admissible c.state
  whole : c.Whole

/-- The exact sum of the slots. -/
def total (c : GCounter) : ℚ := (c.state.values.map Slot.val).sum

lemma exists_natCast {s : Slot} (h : s.IsWhole) :
    ∃ n : ℕ, s.val = n ∧ n ≤ maxCounterSlot := by
  have hint : s.val = s.val.num := ((Rat.den_eq_one_iff _).1 h).symm
  obtain ⟨n, hn⟩ := Int.eq_ofNat_of_zero_le (Rat.num_nonneg.2 s.nonneg)
  have hval : s.val = n := by
    rw [hint, hn]
    norm_cast
  refine ⟨n, hval, ?_⟩
  have hle := s.le_ceiling
  rw [hval] at hle
  exact_mod_cast hle

lemma foldl_nearest {l : List Slot} (hl : ∀ s ∈ l, s.IsWhole) (n : ℕ)
    (hroom : n + l.length * maxCounterSlot ≤ maxSafeInteger) :
    l.foldl (fun total count => nearest (total + count.val)) (n : ℚ) = n + (l.map Slot.val).sum ∧
      ∃ m : ℕ, (n : ℚ) + (l.map Slot.val).sum = m ∧ m ≤ maxSafeInteger := by
  induction l generalizing n with
  | nil =>
    simp only [foldl_nil, map_nil, sum_nil, add_zero, true_and]
    exact ⟨n, rfl, by simpa using hroom⟩
  | cons s l ih =>
    obtain ⟨k, hk, hle⟩ := exists_natCast (hl s mem_cons_self)
    have hroom' : (n + k) + l.length * maxCounterSlot ≤ maxSafeInteger := by
      rw [length_cons, succ_mul] at hroom
      omega
    have hexact : nearest ((n : ℚ) + s.val) = ((n + k : ℕ) : ℚ) := by
      have hlt : ((n + k : ℕ) : ℤ).natAbs < 2 ^ 53 := by
        have hmax : maxSafeInteger < 2 ^ 53 := by decide
        omega
      rw [hk, ← cast_add]
      exact_mod_cast nearest_intCast hlt
    obtain ⟨hfold, m, hm, hmle⟩ := ih (fun t ht => hl t (mem_cons_of_mem _ ht)) _ hroom'
    have hsum : ((n + k : ℕ) : ℚ) + (l.map Slot.val).sum = n + ((s :: l).map Slot.val).sum := by
      rw [map_cons, sum_cons, hk, cast_add, add_assoc]
    rw [foldl_cons, hexact, hfold, hsum]
    exact ⟨rfl, m, hsum ▸ hm, hmle⟩

lemma isWhole_of_mem_values (h : c.Whole) : ∀ s ∈ c.state.values, s.IsWhole := by
  intro s hs
  obtain ⟨p, hp, rfl⟩ := mem_map.1 hs
  exact h p.1 p.2 ((get?_eq_some_iff _ _ _).2 hp)

lemma value_eq_total (hsize : c.state.size ≤ maxCrdtEntries) (h : c.Whole) :
    c.value = c.total ∧ ∃ n : ℕ, c.total = n ∧ n ≤ maxSafeInteger := by
  have hlen : c.state.values.length = c.state.size := by simp [OrderedMap.values, OrderedMap.size]
  have hroom : 0 + c.state.values.length * maxCounterSlot ≤ maxSafeInteger := by
    rw [hlen, zero_add]
    exact (mul_le_mul_right _ hsize).trans (mul_div_le _ _)
  obtain ⟨hfold, hnat⟩ := foldl_nearest (isWhole_of_mem_values h) 0 hroom
  rw [cast_zero, zero_add] at hfold hnat
  exact ⟨hfold, hnat⟩

lemma equals_iff (c other : GCounter) :
    c.equals other = true ↔ ∀ r, c.state.get? r = other.state.get? r := by
  rw [equals, equalsBy_iff]
  refine forall_congr' fun r => ?_
  constructor
  · rintro (⟨hc, ho⟩ | ⟨a, b, hc, ho, hab⟩)
    · rw [hc, ho]
    · rw [hc, ho, of_decide_eq_true hab]
  · intro h
    cases hc : c.state.get? r with
    | none => exact .inl ⟨rfl, h ▸ hc⟩
    | some a => exact .inr ⟨a, a, rfl, h ▸ hc, decide_eq_true rfl⟩

lemma yields_fromJSON_toJSON (c : GCounter) :
    Yields (fromJSON c.toJSON) c.Decodable ⟨c.state.toObject⟩ := by
  have hslot : ∀ r s, c.state.get? r = some s →
      Yields (decodeSlot (r, s.val)) s.IsWhole (r, s) :=
    fun r s _ => (yields_assertCounterValue s _).seq (r, ·)
  have hself : (c.state.mapValues fun _ s => s).toObject = c.state.toObject := by
    rw [mapValues_id]
  have hstate := (yields_decodeEntries (fun _ count => count) hslot "GCounter.state").seq
    GCounter.mk
  rw [hself] at hstate
  exact hstate.iff ⟨fun h => ⟨h.1, h.2⟩, fun h => ⟨h.admissible, h.whole⟩⟩

lemma decodable_of_fromJSON {json : Json} (h : fromJSON json = .ok c) : c.Decodable := by
  obtain ⟨state, hstate, h⟩ := bind_eq_ok h
  cases h
  have hkey : ∀ p q, decodeSlot p = .ok q → q.1 = p.1 := by
    intro p q hq
    obtain ⟨slot, -, hq⟩ := bind_eq_ok hq
    cases hq
    rfl
  obtain ⟨hadmissible, hslots⟩ := decodeEntries_of_keyed _ hkey hstate
  refine ⟨hadmissible, fun r s hs => ?_⟩
  obtain ⟨count, -, hdecode⟩ := hslots r s hs
  obtain ⟨slot, hslot, hdecode⟩ := bind_eq_ok hdecode
  cases hdecode
  exact (isWhole_of_assertCounterValue hslot).2

lemma Decodable.merge (hc : c.Decodable) (ho : other.Decodable) : (c.merge other).Decodable := by
  refine ⟨⟨size_merge_le other hc.admissible.size_le, ?_⟩, ?_⟩
  · intro hmem
    obtain ⟨s, hs⟩ := (mem_keys_iff _ _).1 hmem
    rcases get?_merge_mem hs with h | h
    · exact hc.admissible.protoKey_notMem ((mem_keys_iff _ _).2 ⟨s, h⟩)
    · exact ho.admissible.protoKey_notMem ((mem_keys_iff _ _).2 ⟨s, h⟩)
  · intro r s hs
    rcases get?_merge_mem hs with h | h
    · exact hc.whole r s h
    · exact ho.whole r s h

/-- The counter as it is read back. -/
def reread (c : GCounter) : GCounter := ⟨c.state.toObject⟩

/-- The counters have the same slots. -/
def SameSlots (c other : GCounter) : Prop := ∀ r, c.state.get? r = other.state.get? r

lemma sameSlots_reread (c : GCounter) : c.reread.SameSlots c := fun r =>
  get?_toObject c.state r

lemma SameSlots.mem_keys (h : c.SameSlots c') (r : ReplicaId) :
    r ∈ c.state.keys ↔ r ∈ c'.state.keys := by
  rw [mem_keys_iff, mem_keys_iff, h r]

lemma get?_takeNewcomers_congr {next next' : OrderedMap ReplicaId Slot}
    (h : ∀ r, next.get? r = next'.get? r) (newcomers : List ReplicaId) (r : ReplicaId) :
    (takeNewcomers other next newcomers).get? r = (takeNewcomers other next' newcomers).get? r := by
  induction newcomers generalizing next next' with
  | nil => exact h r
  | cons replica newcomers ih =>
    have hsize : next.size = next'.size := by
      refine size_eq_of_keys fun k => ?_
      rw [mem_keys_iff, mem_keys_iff, h k]
    unfold takeNewcomers
    rw [hsize]
    split
    · exact h r
    · split
      · exact ih h
      · refine ih fun k => ?_
        rw [get?_set, get?_set, h k]

lemma SameSlots.merge (h : c.SameSlots c') (other : GCounter) :
    (c.merge other).SameSlots (c'.merge other) := by
  have hnewcomers : c.newcomers other = c'.newcomers other := by
    unfold newcomers
    simp only [h.mem_keys]
  intro r
  rw [merge_eq, merge_eq, hnewcomers]
  refine get?_takeNewcomers_congr (fun k => ?_) _ r
  rw [get?_raised, get?_raised, h k]

end GCounter

structure PNCounter where
  p : GCounter
  n : GCounter

namespace PNCounter

def empty : PNCounter := ⟨GCounter.empty, GCounter.empty⟩

def increment (c : PNCounter) (replica : ReplicaId) (delta : JsNumber) :
    Except IncrementError PNCounter :=
  if delta.isNegative then .error (.negativeDelta "PNCounter.increment" delta)
  else do
    let p ← c.p.increment replica delta
    pure ⟨p, c.n⟩

def decrement (c : PNCounter) (replica : ReplicaId) (delta : JsNumber) :
    Except IncrementError PNCounter :=
  if delta.isNegative then .error (.negativeDelta "PNCounter.decrement" delta)
  else do
    let n ← c.n.increment replica delta
    pure ⟨c.p, n⟩

def value (c : PNCounter) : ℚ := nearest (c.p.value - c.n.value)

def merge (c other : PNCounter) : PNCounter := ⟨c.p.merge other.p, c.n.merge other.n⟩

structure Json where
  p : GCounter.Json
  n : GCounter.Json

def toJSON (c : PNCounter) : Json := ⟨c.p.toJSON, c.n.toJSON⟩

def fromJSON (json : Json) : Except CrdtDecodeError PNCounter := do
  let p ← GCounter.fromJSON json.p
  let n ← GCounter.fromJSON json.n
  pure ⟨p, n⟩

def equals (c other : PNCounter) : Bool := c.p.equals other.p && c.n.equals other.n

end PNCounter

end ActorTs
