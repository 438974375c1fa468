import ActorTs.Crdt.GCounter
import ActorTs.Crdt.MVRegister
import Mathlib

/-!
# The frame of a multi-value register

An entry is sent as its value and its clock. The decoder takes few entries, and of a
clock only versions up to the ceiling of a counter's slot. A write raises the version of
its replica by one and tests nothing, so a register that was read with a version at the
ceiling is one write away from being refused.

Which entries a merge keeps does not depend on the order in which a clock lists its replicas.
-/

open List OrderedMap Nat

namespace ActorTs

open Outcome VectorClock

structure MVEntryJson (V : Type) where
  value : V
  vc : OrderedMap ReplicaId ℚ

structure MVRegisterJson (V : Type) where
  entries : List (MVEntryJson V)

/-- The whole number in a slot. -/
def Slot.toNat (s : Slot) : ℕ := s.val.num.toNat

namespace MVRegister

variable {V : Type}

def toJSON (s : MVRegister V) : MVRegisterJson V :=
  ⟨s.entries.map fun e => ⟨e.value, (e.vc.mapValues fun _ (n : ℕ) => (n : ℚ)).toObject⟩⟩

def clockPath (index : ℕ) : JsString :=
  "MVRegister.entries[" ++ JsonText.decimal index ++ "].vc"

def decodeVersion (path : JsString) (p : ReplicaId × ℚ) :
    Except CrdtDecodeError (ReplicaId × ℕ) := do
  let count ← assertCounterValue p.2 (propertyPath path p.1)
  pure (p.1, count.toNat)

def decodeMVEntry (p : MVEntryJson V × ℕ) : Except CrdtDecodeError (MVEntry V) := do
  let clock ← decodeEntries (decodeVersion (clockPath p.2)) (fun _ count => count) p.1.vc
    (clockPath p.2)
  pure ⟨p.1.value, clock⟩

def fromJSON (json : MVRegisterJson V) : Except CrdtDecodeError (MVRegister V) := do
  let entries ← assertBoundedArray json.entries "MVRegister.entries" maxMvRegisterEntries
  let decoded ← entries.zipIdx.mapM decodeMVEntry
  pure ⟨decoded⟩

/-- No version of the clock is over the ceiling. -/
def UnderCeiling (vc : VectorClock) : Prop := ∀ r n, vc.get? r = some n → n ≤ maxCounterSlot

/-- The decoder takes every entry of the register. -/
def Sound (s : MVRegister V) : Prop := ∀ e ∈ s.entries, Admissible e.vc ∧ UnderCeiling e.vc

/-- The register as it is read back. -/
def reread (s : MVRegister V) : MVRegister V :=
  ⟨s.entries.map fun e => ⟨e.value, e.vc.toObject⟩⟩

lemma yields_decodeVersion (path r : JsString) (n : ℕ) :
    Yields (decodeVersion path (r, (n : ℚ))) (n ≤ maxCounterSlot) (r, n) := by
  by_cases hn : n ≤ maxCounterSlot
  · have hslot : (0 : ℚ) ≤ n ∧ (n : ℚ) ≤ maxCounterSlot := ⟨cast_nonneg n, cast_le.2 hn⟩
    have hwhole : Slot.IsWhole ⟨(n : ℚ), hslot⟩ := Rat.den_natCast n
    have hassert := (yields_assertCounterValue ⟨(n : ℚ), hslot⟩ (propertyPath path r)).1 hwhole
    refine Yields.of_eq_ok ?_ hn
    change (assertCounterValue (n : ℚ) (propertyPath path r) >>= _) = _
    rw [show assertCounterValue (n : ℚ) (propertyPath path r) = _ from hassert]
    rfl
  · refine ⟨fun h => absurd h hn, fun _ => ?_⟩
    rw [decodeVersion, assertCounterValue]
    split
    · exact ⟨_, rfl⟩
    · rw [dif_pos (cast_lt.2 (not_le.1 hn))]
      exact ⟨_, rfl⟩

lemma yields_decodeMVEntry (e : MVEntry V) (index : ℕ) :
    Yields (decodeMVEntry (⟨e.value, (e.vc.mapValues fun _ (n : ℕ) => (n : ℚ)).toObject⟩, index))
      (Admissible e.vc ∧ UnderCeiling e.vc) ⟨e.value, e.vc.toObject⟩ := by
  have hclock := yields_decodeEntries (fun _ count => count)
    (fun r n (_ : e.vc.get? r = some n) => yields_decodeVersion (clockPath index) r n)
    (clockPath index)
  rw [mapValues_id] at hclock
  exact hclock.seq fun clock => (⟨e.value, clock⟩ : MVEntry V)

lemma yields_fromJSON (s : MVRegister V) :
    Yields (fromJSON s.toJSON) (s.entries.length ≤ maxMvRegisterEntries ∧ s.Sound) s.reread := by
  have hlength : s.toJSON.entries.length = s.entries.length := by simp [toJSON]
  have hentries : Yields (s.toJSON.entries.zipIdx.mapM decodeMVEntry)
      (∀ p ∈ s.entries.zipIdx, Admissible p.1.vc ∧ UnderCeiling p.1.vc)
      (s.entries.zipIdx.map fun p => (⟨p.1.value, p.1.vc.toObject⟩ : MVEntry V)) := by
    rw [toJSON, zipIdx_map, mapM_map]
    exact Yields.mapM fun p _ => yields_decodeMVEntry p.1 p.2
  have hvalue : s.reread = ⟨s.entries.zipIdx.map fun p => ⟨p.1.value, p.1.vc.toObject⟩⟩ := by
    rw [reread, ← zipIdx_map_fst 0 s.entries, map_map]
    simp
  rw [hvalue]
  refine Yields.iff (Yields.bind (yields_assertBoundedArray s.toJSON.entries _ _)
    (Yields.seq _ hentries)) ?_
  rw [hlength]
  refine and_congr_right fun _ => ?_
  constructor
  · intro h e he
    obtain ⟨i, hi⟩ := mem_iff_getElem?.1 he
    exact h (e, i) (mk_mem_zipIdx_iff_getElem?.2 hi)
  · intro h p hp
    exact h p.1 (fst_mem_of_mem_zipIdx hp)

lemma sound_of_fromJSON {json : MVRegisterJson V} {s : MVRegister V}
    (h : fromJSON json = .ok s) : s.Sound := by
  obtain ⟨entries, -, h⟩ := bind_eq_ok h
  obtain ⟨decoded, hdecoded, h⟩ := bind_eq_ok h
  cases h
  intro e he
  obtain ⟨p, -, hp⟩ := exists_of_forall₂ (forall₂_of_mapM_eq_ok hdecoded) he
  obtain ⟨clock, hclock, hp⟩ := bind_eq_ok hp
  cases hp
  have hkey : ∀ q q', decodeVersion (clockPath p.2) q = .ok q' → q'.1 = q.1 := by
    intro q q' hq
    obtain ⟨count, -, hq⟩ := bind_eq_ok hq
    cases hq
    rfl
  obtain ⟨hadmissible, hversions⟩ := decodeEntries_of_keyed _ hkey hclock
  refine ⟨hadmissible, fun r n hn => ?_⟩
  obtain ⟨c, -, hversion⟩ := hversions r n hn
  obtain ⟨count, hcount, hversion⟩ := bind_eq_ok hversion
  cases hversion
  obtain ⟨m, hm, hle⟩ := GCounter.exists_natCast (isWhole_of_assertCounterValue hcount).2
  rw [Slot.toNat, hm]
  simpa using hle

variable (toTree : V → Option Json)

lemma merge_entries_spec (s other : MVRegister V) :
    (∀ e ∈ (s.merge toTree other).entries,
        e ∈ s.entries ++ other.entries ∧ Undominated (s.entries ++ other.entries) e) ∧
      (∀ e ∈ s.entries ++ other.entries, Undominated (s.entries ++ other.entries) e →
        ∃ e' ∈ (s.merge toTree other).entries, dedupeKey toTree e' = dedupeKey toTree e) ∧
      (s.merge toTree other).entries.Pairwise fun a b => dedupeKey toTree a ≠ dedupeKey toTree b := by
  obtain ⟨hsound, hcomplete, hkeys⟩ := survivorsAllPairs_spec toTree (s.entries ++ other.entries)
    (s.entries ++ other.entries) OrderedSet.empty
  rw [merge_eq_mergeAllPairs]
  refine ⟨fun e he => ⟨(hsound e he).1, (hsound e he).2.1⟩, fun e he hund => ?_, hkeys⟩
  exact (hcomplete e he hund).resolve_left (OrderedSet.not_mem_empty _)

lemma sound_merge {s other : MVRegister V} (hs : s.Sound) (ho : other.Sound) :
    (s.merge toTree other).Sound := by
  intro e he
  rcases mem_append.1 ((merge_entries_spec toTree s other).1 e he).1 with he | he
  · exact hs e he
  · exact ho e he

/-- What the entries say that no entry of the two registers dominates. -/
def undominatedKeys (toTree : V → Option Json) (s other : MVRegister V) : Set JsString :=
  { key | ∃ e ∈ s.entries ++ other.entries, Undominated (s.entries ++ other.entries) e ∧
    dedupeKey toTree e = key }

lemma length_merge (s other : MVRegister V) :
    (s.merge toTree other).entries.length = (undominatedKeys toTree s other).ncard := by
  obtain ⟨hsound, hcomplete, hkeys⟩ := merge_entries_spec toTree s other
  have hnodup : ((s.merge toTree other).entries.map (dedupeKey toTree)).Nodup :=
    pairwise_map.2 hkeys
  have hset : undominatedKeys toTree s other =
      ((s.merge toTree other).entries.map (dedupeKey toTree)).toFinset := by
    ext key
    rw [Finset.mem_coe, mem_toFinset, mem_map]
    constructor
    · rintro ⟨e, he, hund, hkey⟩
      obtain ⟨e', he', hkey'⟩ := hcomplete e he hund
      exact ⟨e', he', hkey'.trans hkey⟩
    · rintro ⟨e, he, hkey⟩
      exact ⟨e, (hsound e he).1, (hsound e he).2, hkey⟩
  rw [hset, Set.ncard_coe_finset, toFinset_card_of_nodup hnodup, length_map]

/-- The entries say the same; only the order in their clocks may differ. -/
structure SameEntry (e e' : MVEntry V) : Prop where
  value : e.value = e'.value
  clock : ∀ r, e.vc.get? r = e'.vc.get? r

lemma SameEntry.refl (e : MVEntry V) : SameEntry e e := ⟨rfl, fun _ => rfl⟩

lemma SameEntry.version {e e' : MVEntry V} (h : SameEntry e e') (r : ReplicaId) :
    e.vc.version r = e'.vc.version r := by
  rw [VectorClock.version, VectorClock.version, h.clock]

lemma SameEntry.dominates {e e' o o' : MVEntry V} (he : SameEntry e e') (ho : SameEntry o o') :
    vcStrictlyDominates o.vc e.vc = vcStrictlyDominates o'.vc e'.vc := by
  rw [Bool.eq_iff_iff, vcStrictlyDominates_iff, vcStrictlyDominates_iff]
  simp only [Dominates, he.version, ho.version]

lemma mergeSort_clock {vc vc' : VectorClock} (h : ∀ r, vc.get? r = vc'.get? r) :
    vc.entries.mergeSort (fun a b => decide (a.1 ≤ b.1)) =
      vc'.entries.mergeSort fun a b => decide (a.1 ≤ b.1) := by
  have htrans : ∀ a b c : ReplicaId × ℕ, decide (a.1 ≤ b.1) = true → decide (b.1 ≤ c.1) = true →
      decide (a.1 ≤ c.1) = true := by
    intro a b c hab hbc
    exact decide_eq_true ((of_decide_eq_true hab).trans (of_decide_eq_true hbc))
  have htotal : ∀ a b : ReplicaId × ℕ, (decide (a.1 ≤ b.1) || decide (b.1 ≤ a.1)) = true := by
    intro a b
    simpa using le_total a.1 b.1
  have hperm : vc.entries.Perm vc'.entries := by
    refine (perm_ext_iff_of_nodup vc.nodupKeys.of_map vc'.nodupKeys.of_map).2 fun p => ?_
    rw [← get?_eq_some_iff, ← get?_eq_some_iff, h]
  refine List.Perm.eq_of_pairwise ?_ (pairwise_mergeSort htrans htotal _)
    (pairwise_mergeSort htrans htotal _)
    ((mergeSort_perm _ _).trans (hperm.trans (mergeSort_perm _ _).symm))
  intro a b ha hb hab hba
  have hkey : a.1 = b.1 := le_antisymm (of_decide_eq_true hab) (of_decide_eq_true hba)
  have hgeta := (get?_eq_some_iff vc a.1 a.2).2 (mem_mergeSort.1 ha)
  have hgetb := (get?_eq_some_iff vc' b.1 b.2).2 (mem_mergeSort.1 hb)
  rw [h, hkey, hgetb] at hgeta
  exact Prod.ext hkey (Option.some.inj hgeta).symm

lemma SameEntry.dedupeKey {e e' : MVEntry V} (h : SameEntry e e') (toTree : V → Option Json) :
    dedupeKey toTree e = dedupeKey toTree e' := by
  rw [MVRegister.dedupeKey, MVRegister.dedupeKey, h.value, mergeSort_clock h.clock]

def SameEntries (s other : MVRegister V) : Prop :=
  List.Forall₂ SameEntry s.entries other.entries

lemma sameEntries_reread (s : MVRegister V) : s.reread.SameEntries s := by
  rw [SameEntries, reread, forall₂_map_left_iff, forall₂_same]
  exact fun e _ => ⟨rfl, fun r => get?_toObject e.vc r⟩

lemma forall₂_survivorsAllPairs {all all' rest rest' : List (MVEntry V)}
    (hall : List.Forall₂ SameEntry all all') (hrest : List.Forall₂ SameEntry rest rest')
    (seen : OrderedSet JsString) :
    List.Forall₂ SameEntry (survivorsAllPairs toTree all rest seen)
      (survivorsAllPairs toTree all' rest' seen) := by
  induction hrest generalizing seen with
  | nil => exact .nil
  | @cons e e' rest rest' he _ ih =>
    have hany : (all.any fun o => vcStrictlyDominates o.vc e.vc) =
        all'.any fun o => vcStrictlyDominates o.vc e'.vc := by
      clear ih
      induction hall with
      | nil => rfl
      | cons ho _ ih => rw [any_cons, any_cons, ih, he.dominates ho]
    rw [survivorsAllPairs, survivorsAllPairs, hany, he.dedupeKey toTree]
    split
    · exact ih seen
    · simp only
      split
      · exact ih seen
      · exact .cons he (ih _)

lemma SameEntries.merge {s s' : MVRegister V} (h : s.SameEntries s') (toTree : V → Option Json)
    (other : MVRegister V) : (s.merge toTree other).SameEntries (s'.merge toTree other) := by
  rw [merge_eq_mergeAllPairs, merge_eq_mergeAllPairs]
  have hall : List.Forall₂ SameEntry (s.entries ++ other.entries) (s'.entries ++ other.entries) :=
    rel_append h (forall₂_same.2 fun e _ => SameEntry.refl e)
  exact forall₂_survivorsAllPairs toTree hall hall OrderedSet.empty

lemma SameEntries.equals {s s' : MVRegister V} (h : s.SameEntries s')
    (toTree : V → Option Json) : s.equals toTree s' = true := by
  rw [MVRegister.equals, Bool.and_eq_true, beq_iff_eq, List.all_eq_true]
  refine ⟨h.length_eq, fun e he => ?_⟩
  obtain ⟨e', he', hsame⟩ := exists_of_forall₂ (List.Forall₂.flip h) he
  have hclock : vcEqual e.vc e'.vc = true := by
    refine OrderedMap.Alike.equalsBy (R := Eq) (fun r => ?_) fun _ _ heq => beq_iff_eq.2 heq
    rw [hsame.clock r]
    cases e'.vc.get? r with
    | none => exact .none
    | some n => exact .some rfl
  refine List.any_eq_true.2 ⟨e', he', ?_⟩
  rw [hsame.value, hclock, Bool.and_true, beq_self_eq_true]

end MVRegister

end ActorTs
