import ActorTs.Library.CausalRun
import ActorTs.Crdt.GCounter
import Mathlib

/-!
# Counters over whole runs

A run of increments, decodes and merges leaves a counter that its decoder takes, as long
as the increments are whole and take no slot beyond the last: `increment` tests neither.

A slot counts what its replica has added so far. Of two histories one has all the updates of the
replica that the other has, and the larger slot counts them all. Hence the value of a counter is the
sum over its history.
-/

open List Nat Finset

namespace ActorTs

open OrderedMap GCounter

open CausalRun JsNumber Outcome

namespace GCounter

variable {c : GCounter}

lemma count_eq_of_get? {r : ReplicaId} {s : Slot} (h : c.state.get? r = some s) :
    c.count r = s.val := by
  simp [count, h]

lemma count_eq_zero {r : ReplicaId} (h : r ∉ c.state.keys) : c.count r = 0 := by
  simp [count, (get?_eq_none_iff _ _).2 h]

variable {replica : ReplicaId} {delta : JsNumber}

lemma increment_eq_ok {c' : GCounter} (h : c.increment replica delta = .ok c') :
    ∃ d s, delta = .finite d ∧ 0 ≤ d.toRat ∧ s.val = nearest (c.count replica + d.toRat) ∧
      c' = ⟨c.state.set replica s⟩ := by
  cases delta with
  | nan | infinity => cases h
  | finite d =>
    simp only [increment] at h
    split at h
    · cases h
    · rename_i hneg
      split at h
      · cases h
      · cases h
        exact ⟨d, _, rfl, not_lt.1 hneg, rfl, rfl⟩

lemma exists_natCast_count (hc : c.Whole) (r : ReplicaId) : ∃ n : ℕ, c.count r = n := by
  cases hs : c.state.get? r with
  | none => exact ⟨0, by simp [count, hs]⟩
  | some s =>
    obtain ⟨n, hn, -⟩ := exists_natCast (hc r s hs)
    exact ⟨n, (count_eq_of_get? hs).trans hn⟩

lemma nearest_count_add (hc : c.Whole) {d : ℚ} (hd : d.den = 1) (hpos : 0 ≤ d)
    (hle : nearest (c.count replica + d) ≤ maxCounterSlot) :
    ∃ n : ℕ, c.count replica + d = n ∧ nearest (c.count replica + d) = n := by
  obtain ⟨k, hk⟩ := exists_natCast_count hc replica
  obtain ⟨m, hm⟩ := Int.eq_ofNat_of_zero_le (Rat.num_nonneg.2 hpos)
  have hdm : d = (m : ℚ) := by
    rw [← (Rat.den_eq_one_iff d).1 hd, hm]
    norm_cast
  have hsum : c.count replica + d = ((k + m : ℕ) : ℚ) := by
    rw [hk, hdm, cast_add]
  refine ⟨k + m, hsum, ?_⟩
  rw [hsum] at hle ⊢
  by_cases hlt : k + m < 2 ^ 53
  · exact_mod_cast nearest_intCast (n := ((k + m : ℕ) : ℤ)) (by rwa [Int.natAbs_natCast])
  · -- a sum that large would have been refused
    have hlarge : (2 : ℚ) ^ 53 ≤ nearest ((k + m : ℕ) : ℚ) := by
      rw [nearest, if_neg (not_lt.2 (cast_nonneg _))]
      exact le_nearestMagnitude (by exact_mod_cast not_lt.1 hlt)
    have hceiling : (maxCounterSlot : ℚ) < 2 ^ 53 := by
      exact_mod_cast (by decide : maxCounterSlot < 2 ^ 53)
    exact absurd (hlarge.trans hle) (not_le.2 hceiling)

lemma count_increment {c' : GCounter} (hc : c.Whole) {d : FiniteDouble} (hd : d.toRat.den = 1)
    (h : c.increment replica (.finite d) = .ok c') :
    c'.Whole ∧ (∀ r, c'.count r = c.count r + if replica = r then d.toRat else 0) ∧
      ∀ r, r ∈ c'.state.keys ↔ r = replica ∨ r ∈ c.state.keys := by
  obtain ⟨e, s, he, hpos, hs, rfl⟩ := increment_eq_ok h
  cases he
  obtain ⟨n, hn, hnearest⟩ := nearest_count_add hc hd hpos (hs ▸ s.le_ceiling)
  have hval : s.val = n := hs.trans hnearest
  refine ⟨?_, ?_, ?_⟩
  · intro r t ht
    rcases get?_set_cases ht with ⟨-, rfl⟩ | hold
    · rw [Slot.IsWhole, hval]
      exact Rat.den_natCast n
    · exact hc r t hold
  · intro r
    by_cases hr : replica = r
    · subst hr
      rw [if_pos rfl, hn, ← hval]
      exact count_eq_of_get? (get?_set_self _ _ _)
    · rw [if_neg hr, add_zero]
      simp only [count, get?_set, if_neg hr]
  · intro r
    exact mem_keys_set _ _ _ _

/-! ### What a decoder takes -/

/-- The counters that a run leads to whose increments meet `P`. -/
inductive Reaches (P : GCounter → ReplicaId → JsNumber → Prop) : GCounter → Prop
  | empty : Reaches P empty
  | decoded {json : Json} {c : GCounter} : fromJSON json = .ok c → Reaches P c
  | increment {c c' : GCounter} {replica : ReplicaId} {delta : JsNumber} :
      Reaches P c → replica ≠ protoKey → P c replica delta →
      c.increment replica delta = .ok c' → Reaches P c'
  | merge {c other : GCounter} : Reaches P c → Reaches P other → Reaches P (c.merge other)

/-- The increment is whole and there is a slot for it. -/
def Fits (c : GCounter) (replica : ReplicaId) (delta : JsNumber) : Prop :=
  delta.isInteger = true ∧ (replica ∈ c.state.keys ∨ c.state.size < maxCrdtEntries)

/-- What is said of a counter: its slots are few, whole and below the ceiling, its value is
exact and safe, and it survives the wire. -/
structure Kept (c : GCounter) : Prop where
  size_le : c.state.size ≤ maxCrdtEntries
  slots : ∀ r s, c.state.get? r = some s → ∃ n : ℕ, s.val = n ∧ n ≤ maxCounterSlot
  value_exact : c.value = c.total
  value_safe : ∃ n : ℕ, c.value = n ∧ n ≤ maxSafeInteger
  reads_back : ∃ c', fromJSON c.toJSON = .ok c' ∧ c'.equals c = true

lemma decodable_empty : empty.Decodable :=
  ⟨⟨zero_le _, not_mem_nil⟩, nofun⟩

lemma Decodable.increment {c' : GCounter} (hc : c.Decodable) (hreplica : replica ≠ protoKey)
    (hfits : c.Fits replica delta) (h : c.increment replica delta = .ok c') : c'.Decodable := by
  obtain ⟨hwhole, hroom⟩ := hfits
  obtain ⟨d, s, rfl, -, -, hc'⟩ := increment_eq_ok h
  obtain ⟨hwhole', -, hkeys⟩ := count_increment hc.whole (of_decide_eq_true hwhole) h
  refine ⟨⟨?_, ?_⟩, hwhole'⟩
  · rw [hc']
    rcases hroom with hheld | hlt
    · rw [size_set_of_mem hheld]
      exact hc.admissible.size_le
    · exact (size_set_le _ _ _).trans hlt
  · rw [hkeys]
    rintro (heq | hmem)
    · exact hreplica heq.symm
    · exact hc.admissible.protoKey_notMem hmem

lemma Reaches.decodable (h : Reaches Fits c) : c.Decodable := by
  induction h with
  | empty => exact decodable_empty
  | decoded h => exact decodable_of_fromJSON h
  | increment _ hreplica hfits h ih => exact ih.increment hreplica hfits h
  | merge _ _ ih ih' => exact ih.merge ih'

lemma Decodable.kept (h : c.Decodable) : c.Kept := by
  obtain ⟨hexact, hsafe⟩ := value_eq_total h.admissible.size_le h.whole
  refine ⟨h.admissible.size_le, ?_, hexact, hexact ▸ hsafe, ?_⟩
  · intro r s hs
    exact exists_natCast (h.whole r s hs)
  · refine ⟨_, (yields_fromJSON_toJSON c).1 h, (equals_iff _ _).2 fun r => ?_⟩
    exact get?_toObject _ _

/-- A counter of increments which are whole and find a slot has few slots, whole and below the
ceiling, an exact and safe value, and survives the wire. -/
theorem kept_of_reaches (c : GCounter) (h : Reaches Fits c) : c.Kept := h.decodable.kept

variable (replica)

lemma increment_empty {d : FiniteDouble} (hsign : d.negative = false)
    (hle : d.magnitude ≤ maxCounterSlot) :
    ∃ s : Slot, empty.increment replica (.finite d) = .ok ⟨empty.state.set replica s⟩ ∧
      s.val = d.magnitude := by
  have hrat : d.toRat = d.magnitude := by
    rw [FiniteDouble.toRat, hsign]
    rfl
  have hpos : ¬ d.toRat < 0 := by
    rw [hrat, not_lt]
    exact mul_nonneg (cast_nonneg _) (FiniteDouble.two_zpow_pos _).le
  have hcount : nearest (empty.count replica + d.toRat) = d.magnitude := by
    have hzero : empty.count replica = 0 := rfl
    rw [hzero, zero_add, nearest, if_neg hpos, hrat, nearestMagnitude_magnitude]
  have hceiling : ¬ (maxCounterSlot : ℚ) < nearest (empty.count replica + d.toRat) := by
    rw [hcount, not_lt]
    exact hle
  let s : Slot := ⟨_, empty.next_nonneg replica hpos, not_lt.1 hceiling⟩
  refine ⟨s, ?_, hcount⟩
  simp only [increment, dif_neg hpos, dif_neg hceiling]
  rfl

lemma canonical_one : CanonicalDouble (2 ^ 52) (-52) := by decide

def one : FiniteDouble := ⟨false, 2 ^ 52, -52, canonical_one⟩

def half : FiniteDouble := ⟨false, 2 ^ 52, -53, by decide⟩

lemma magnitude_one : one.magnitude = 1 := by
  norm_num [one, FiniteDouble.magnitude]

lemma magnitude_half : half.magnitude = 1 / 2 := by
  norm_num [half, FiniteDouble.magnitude]

lemma isInteger_one : JsNumber.isInteger (.finite one) = true := by
  have hrat : one.toRat = 1 := magnitude_one
  rw [JsNumber.isInteger, hrat]
  decide

lemma increment_one :
    ∃ s : Slot, empty.increment replica (.finite one) = .ok ⟨empty.state.set replica s⟩ ∧
      s.val = 1 := by
  rw [← magnitude_one]
  refine increment_empty replica rfl ?_
  rw [magnitude_one]
  exact_mod_cast (by decide : 1 ≤ maxCounterSlot)

lemma increment_half :
    ∃ s : Slot, empty.increment replica (.finite half) = .ok ⟨empty.state.set replica s⟩ ∧
      s.val = 1 / 2 := by
  rw [← magnitude_half]
  refine increment_empty replica rfl ?_
  rw [magnitude_half]
  refine le_trans (by norm_num : (1 / 2 : ℚ) ≤ 1) ?_
  exact_mod_cast (by decide : 1 ≤ maxCounterSlot)

theorem kept_of_reaches_one : ∃ c, Reaches Fits c ∧ c.count "a" = 1 ∧ c.Kept := by
  obtain ⟨s, hc, hval⟩ := increment_one "a"
  have hreaches : Reaches Fits ⟨empty.state.set "a" s⟩ := by
    refine .increment .empty (by decide) ⟨isInteger_one, .inr ?_⟩ hc
    decide
  have hs : (empty.state.set "a" s).get? "a" = some s := get?_set_self _ _ _
  refine ⟨_, hreaches, ?_, kept_of_reaches _ hreaches⟩
  rw [count, hs, Option.map_some, Option.getD_some, hval]

lemma half_ne_natCast (n : ℕ) : (1 / 2 : ℚ) ≠ n := by
  intro hn
  have htwo : (1 : ℚ) = ((2 * n : ℕ) : ℚ) := by
    push_cast
    linarith
  have hodd : 1 = 2 * n := by exact_mod_cast htwo
  omega

/-- An increment by a half is not refused, and leaves a counter that no decoder takes. -/
theorem not_kept_half :
    ∃ c, empty.increment "a" (.finite half) = .ok c ∧ Reaches (fun _ _ _ => True) c ∧
      ¬ c.Kept := by
  obtain ⟨s, hc, hval⟩ := increment_half "a"
  refine ⟨_, hc, .increment .empty (by decide) trivial hc, fun hkept => ?_⟩
  obtain ⟨n, hn, -⟩ := hkept.slots _ s (get?_set_self _ _ s)
  exact half_ne_natCast n (hval.symm.trans hn)

/-! ### What a slot counts -/

lemma le_get?_merge (c other : GCounter) {r : ReplicaId} {s : Slot}
    (h : c.state.get? r = some s) :
    ∃ s', (c.merge other).state.get? r = some s' ∧ s.val ≤ s'.val := by
  refine ⟨_, get?_merge_of_some other h, ?_⟩
  cases other.state.get? r with
  | none => exact le_rfl
  | some t => exact le_larger s t

lemma count_merge {other : GCounter}
    (hroom : c.state.size + (c.newcomers other).length ≤ maxCrdtEntries) (r : ReplicaId) :
    (c.merge other).count r = max (c.count r) (other.count r) := by
  unfold count
  cases hs : c.state.get? r with
  | none =>
    rw [get?_merge_of_room hroom hs, Option.map_none, Option.getD_none]
    exact (max_eq_right (other.count_nonneg r)).symm
  | some s =>
    rw [get?_merge_of_some other hs]
    cases other.state.get? r with
    | none => simp [s.nonneg]
    | some t => simp [val_larger]

lemma total_eq_sum {ids : Finset ReplicaId} (h : ∀ r ∈ c.state.keys, r ∈ ids) :
    c.total = ∑ r ∈ ids, c.count r := by
  have hkeys : c.state.keys.toFinset ⊆ ids := fun r hr => h r (List.mem_toFinset.1 hr)
  rw [← sum_subset hkeys fun r _ hr => count_eq_zero fun hmem => hr (List.mem_toFinset.2 hmem),
    List.sum_toFinset _ c.state.nodup_keys, total, OrderedMap.values, OrderedMap.keys, List.map_map,
    List.map_map]
  congr 1
  refine List.map_congr_left fun p hp => ?_
  exact (count_eq_of_get? ((get?_eq_some_iff _ _ _).2 hp)).symm

end GCounter

/-- What a replica does to a counter that goes both ways. -/
inductive PNOperation where
  | increment (delta : JsNumber)
  | decrement (delta : JsNumber)

namespace PNOperation

def amount : JsNumber → ℚ
  | .finite d => d.toRat
  | _ => 0

/-- What the update adds to the increments. -/
def added : PNOperation → ℚ
  | increment delta => amount delta
  | decrement _ => 0

/-- What the update adds to the decrements. -/
def taken : PNOperation → ℚ
  | increment _ => 0
  | decrement delta => amount delta

/-- What the update adds to the value. -/
def signed : PNOperation → ℚ
  | increment delta => amount delta
  | decrement delta => -amount delta

lemma signed_eq (op : PNOperation) : op.signed = op.added - op.taken := by
  cases op <;> simp [signed, added, taken]

end PNOperation

namespace PNCounter

open PNOperation

variable {ι : Type*} (replica : ι → ReplicaId)

/-- A replica updates its own slot by a whole amount. -/
def Performs (_ : List (Update ι PNOperation)) (i : ι) (c : PNCounter) :
    PNOperation → PNCounter → Prop
  | .increment delta, c' => delta.isInteger = true ∧ c.increment (replica i) delta = .ok c'
  | .decrement delta, c' => delta.isInteger = true ∧ c.decrement (replica i) delta = .ok c'

/-- The worlds that replicas reach which update and merge counters. -/
def Reaches [DecidableEq ι] : World ι PNOperation PNCounter → Prop :=
  Reachable (Performs replica) merge empty

variable (log : List (Update ι PNOperation))

/-- The ids under which the updates of a log were made. -/
def ids : Finset ReplicaId := (log.map fun u => replica u.issuer).toFinset

/-- What update `n` adds, as read by `f`. -/
def addedAt (f : PNOperation → ℚ) (n : ℕ) : ℚ := ((log[n]?).map fun u => f u.op).getD 0

/-- Update `n` was made under the id `r`. -/
def madeBy (r : ReplicaId) (n : ℕ) : Prop := (log[n]?).map (fun u => replica u.issuer) = some r

instance (r : ReplicaId) (n : ℕ) : Decidable (madeBy replica log r n) :=
  inferInstanceAs (Decidable (_ = _))

/-- One half of a counter: its slots count what was added in the history. -/
structure Counts (f : PNOperation → ℚ) (s : Finset ℕ) (c : GCounter) : Prop where
  whole : c.Whole
  keys : ∀ r ∈ c.state.keys, r ∈ ids replica log
  count : ∀ r, c.count r = ∑ n ∈ s with madeBy replica log r n, addedAt log f n

variable {replica log} {f : PNOperation → ℚ} {s t : Finset ℕ} {c other : GCounter}
  {op : PNOperation} {c' : GCounter}

lemma madeBy_iff {r : ReplicaId} {n : ℕ} :
    madeBy replica log r n ↔ ∃ u, log[n]? = some u ∧ replica u.issuer = r :=
  Option.map_eq_some_iff

lemma ids_append (u : Update ι PNOperation) :
    ids replica (log ++ [u]) = insert (replica u.issuer) (ids replica log) := by
  simp [ids]

lemma sum_append (hs : ClosedIn log s) (u : Update ι PNOperation) (r : ReplicaId) :
    ∑ n ∈ s with madeBy replica (log ++ [u]) r n, addedAt (log ++ [u]) f n =
      ∑ n ∈ s with madeBy replica log r n, addedAt log f n := by
  have hget : ∀ n ∈ s, (log ++ [u])[n]? = log[n]? := fun n hn =>
    getElem?_append_left (hs.bounded n hn)
  refine sum_congr (filter_congr fun n hn => ?_) fun n hn => ?_
  · rw [madeBy, madeBy, hget n hn]
  · rw [addedAt, addedAt, hget n (mem_filter.1 hn).1]

lemma Counts.extend (h : Counts replica log f s c) (hs : ClosedIn log s)
    (u : Update ι PNOperation) : Counts replica (log ++ [u]) f s c := by
  refine ⟨h.whole, ?_, ?_⟩
  · intro r hr
    rw [ids_append]
    exact mem_insert_of_mem (h.keys r hr)
  · intro r
    rw [h.count, sum_append hs]

lemma Counts.issue (h : Counts replica log f s c) (hs : ClosedIn log s) {i : ι}
    (hwhole : c'.Whole) (hkeys : ∀ r ∈ c'.state.keys, r = replica i ∨ r ∈ c.state.keys)
    (hcount : ∀ r, c'.count r = c.count r + if replica i = r then f op else 0) :
    Counts replica (log ++ [⟨i, op, s⟩]) f (insert log.length s) c' := by
  refine ⟨hwhole, ?_, ?_⟩
  · intro r hr
    rw [ids_append, mem_insert]
    exact (hkeys r hr).imp_right (h.keys r)
  · intro r
    have hnew : log.length ∉ s := fun hmem => lt_irrefl _ (hs.bounded _ hmem)
    have hmade : madeBy replica (log ++ [⟨i, op, s⟩]) r log.length ↔ replica i = r := by
      simp [madeBy]
    rw [hcount, h.count, filter_insert]
    by_cases hr : replica i = r
    · rw [if_pos hr, if_pos (hmade.2 hr), sum_insert fun hmem =>
        hnew (mem_filter.1 hmem).1, sum_append hs, add_comm]
      simp [addedAt]
    · rw [if_neg hr, if_neg (mt hmade.1 hr), add_zero, sum_append hs]

lemma Counts.room (hc : Counts replica log f s c) (ho : Counts replica log f t other)
    (hids : (ids replica log).card ≤ maxCrdtEntries) :
    c.state.size + (c.newcomers other).length ≤ maxCrdtEntries := by
  have hnodup : (c.state.keys ++ c.newcomers other).Nodup := by
    refine nodup_append.2 ⟨c.state.nodup_keys, other.state.nodup_keys.filter _, ?_⟩
    rintro r hr _ hnew rfl
    exact of_decide_eq_true (mem_filter.1 hnew).2 hr
  have hsub : (c.state.keys ++ c.newcomers other).toFinset ⊆ ids replica log := by
    intro r hr
    rcases mem_append.1 (mem_toFinset.1 hr) with hr | hr
    · exact hc.keys r hr
    · exact ho.keys r (mem_filter.1 hr).1
  have hcard := (card_le_card hsub).trans hids
  rwa [toFinset_card_of_nodup hnodup, length_append, length_keys] at hcard

lemma madeBy_nested (hinj : Function.Injective replica) (hlog : LogOwn log)
    (hs : ClosedIn log s) (ht : ClosedIn log t) (r : ReplicaId) :
    (s.filter fun n => madeBy replica log r n) ⊆ t.filter (fun n => madeBy replica log r n) ∨
      (t.filter fun n => madeBy replica log r n) ⊆ s.filter fun n => madeBy replica log r n := by
  by_cases hr : ∃ i, replica i = r
  · obtain ⟨i, rfl⟩ := hr
    have hissuer : ∀ {n}, madeBy replica log (replica i) n →
        ∃ u, log[n]? = some u ∧ u.issuer = i := by
      intro n hn
      obtain ⟨u, hu, hid⟩ := madeBy_iff.1 hn
      exact ⟨u, hu, hinj hid⟩
    refine (hs.nested hlog ht i).imp ?_ ?_
    · intro hst n hn
      obtain ⟨hns, hmade⟩ := mem_filter.1 hn
      obtain ⟨u, hu, hui⟩ := hissuer hmade
      exact mem_filter.2 ⟨hst n u hu hui hns, hmade⟩
    · intro hts n hn
      obtain ⟨hnt, hmade⟩ := mem_filter.1 hn
      obtain ⟨u, hu, hui⟩ := hissuer hmade
      exact mem_filter.2 ⟨hts n u hu hui hnt, hmade⟩
  · refine .inl fun n hn => ?_
    obtain ⟨u, -, hid⟩ := madeBy_iff.1 (mem_filter.1 hn).2
    exact absurd ⟨_, hid⟩ hr

lemma Counts.absorb (hinj : Function.Injective replica) (hlog : LogOwn log)
    (hids : (ids replica log).card ≤ maxCrdtEntries) (hf : ∀ n, 0 ≤ addedAt log f n)
    (hs : ClosedIn log s) (ht : ClosedIn log t) (hc : Counts replica log f s c)
    (ho : Counts replica log f t other) : Counts replica log f (s ∪ t) (c.merge other) := by
  refine ⟨?_, ?_, ?_⟩
  · intro r slot hslot
    rcases get?_merge_mem hslot with h | h
    · exact hc.whole r slot h
    · exact ho.whole r slot h
  · intro r hr
    obtain ⟨slot, hslot⟩ := (mem_keys_iff _ _).1 hr
    rcases get?_merge_mem hslot with h | h
    · exact hc.keys r ((mem_keys_iff _ _).2 ⟨slot, h⟩)
    · exact ho.keys r ((mem_keys_iff _ _).2 ⟨slot, h⟩)
  · intro r
    rw [count_merge (hc.room ho hids), hc.count, ho.count, Finset.filter_union]
    rcases madeBy_nested hinj hlog hs ht r with hsub | hsub
    · rw [Finset.union_eq_right.2 hsub, max_eq_right]
      exact Finset.sum_le_sum_of_subset_of_nonneg hsub fun n _ _ => hf n
    · rw [Finset.union_eq_left.2 hsub, max_eq_left]
      exact Finset.sum_le_sum_of_subset_of_nonneg hsub fun n _ _ => hf n

/-- What holds of a counter and its history in a run with few ids. -/
structure Realizes (replica : ι → ReplicaId) (log : List (Update ι PNOperation))
    (h : Held PNCounter) : Prop where
  p : Counts replica log added h.history h.state.p
  n : Counts replica log taken h.history h.state.n

/-- Every update of the log adds a whole amount, and none below zero. -/
def LogAdds (log : List (Update ι PNOperation)) : Prop :=
  ∀ n, 0 ≤ addedAt log added n ∧ 0 ≤ addedAt log taken n

lemma logAdds_append (h : LogAdds log) {u : Update ι PNOperation} (hadded : 0 ≤ added u.op)
    (htaken : 0 ≤ taken u.op) : LogAdds (log ++ [u]) := by
  intro n
  rcases lt_trichotomy n log.length with hn | rfl | hn
  · simpa only [addedAt, getElem?_append_left hn] using h n
  · simpa [addedAt] using ⟨hadded, htaken⟩
  · have hnone : (log ++ [u])[n]? = none := by
      rw [getElem?_eq_none_iff, length_append, length_singleton]
      omega
    simp [addedAt, hnone]

lemma issue_half {delta : JsNumber} (hwhole : delta.isInteger = true) {i : ι}
    (h : c.increment (replica i) delta = .ok c') (hc : c.Whole) :
    0 ≤ amount delta ∧ c'.Whole ∧ (∀ r ∈ c'.state.keys, r = replica i ∨ r ∈ c.state.keys) ∧
      ∀ r, c'.count r = c.count r + if replica i = r then amount delta else 0 := by
  obtain ⟨d, -, rfl, hpos, -, -⟩ := increment_eq_ok h
  obtain ⟨hwhole', hcount, hkeys⟩ := count_increment hc (of_decide_eq_true hwhole) h
  exact ⟨hpos, hwhole', fun r hr => (hkeys r).1 hr, hcount⟩

lemma Realizes.issue {h : Held PNCounter} (hr : Realizes replica log h)
    (hs : ClosedIn log h.history) {i : ι} {c' : PNCounter}
    (hperform : Performs replica log i h.state op c') :
    (0 ≤ added op ∧ 0 ≤ taken op) ∧
      Realizes replica (log ++ [⟨i, op, h.history⟩]) ⟨c', insert log.length h.history⟩ := by
  have hzero : ∀ (c : GCounter) r, c.count r = c.count r + if replica i = r then 0 else 0 := by
    simp
  cases op with
  | increment delta =>
    obtain ⟨hwhole, hok⟩ := hperform
    unfold PNCounter.increment at hok
    split at hok
    · cases hok
    obtain ⟨p, hp, hok⟩ := bind_eq_ok hok
    cases hok
    obtain ⟨hpos, hwhole', hkeys, hcount⟩ := issue_half hwhole hp hr.p.whole
    exact ⟨⟨hpos, le_rfl⟩, hr.p.issue hs hwhole' hkeys hcount,
      hr.n.issue hs hr.n.whole (fun _ => .inr) (hzero _)⟩
  | decrement delta =>
    obtain ⟨hwhole, hok⟩ := hperform
    unfold PNCounter.decrement at hok
    split at hok
    · cases hok
    obtain ⟨n, hn, hok⟩ := bind_eq_ok hok
    cases hok
    obtain ⟨hpos, hwhole', hkeys, hcount⟩ := issue_half hwhole hn hr.n.whole
    exact ⟨⟨le_rfl, hpos⟩, hr.p.issue hs hr.p.whole (fun _ => .inr) (hzero _),
      hr.n.issue hs hwhole' hkeys hcount⟩

lemma realizes_empty : Realizes replica [] ⟨empty, ∅⟩ := by
  have hempty : ∀ f, Counts replica [] f ∅ GCounter.empty := fun f => ⟨nofun, nofun, fun _ => rfl⟩
  exact ⟨hempty added, hempty taken⟩

lemma Reaches.realizes [DecidableEq ι] {w : World ι PNOperation PNCounter}
    (hinj : Function.Injective replica) (hw : Reaches replica w)
    (hids : (ids replica w.log).card ≤ maxCrdtEntries) :
    ∀ h ∈ w.archive, Realizes replica w.log h := by
  have hmono : ∀ (log : List (Update ι PNOperation)) u,
      (ids replica (log ++ [u])).card ≤ maxCrdtEntries →
        (ids replica log).card ≤ maxCrdtEntries := by
    intro log u hcard
    rw [ids_append] at hcard
    exact (card_le_card (subset_insert _ _)).trans hcard
  refine fun h hh => (Reachable.invariant
    (Q := fun log => LogOwn log ∧ ((ids replica log).card ≤ maxCrdtEntries → LogAdds log))
    (P := fun log h => (ids replica log).card ≤ maxCrdtEntries → Realizes replica log h)
    ⟨by simp [LogOwn], fun _ n => by simp [addedAt]⟩ (fun _ => realizes_empty) ?_ ?_ ?_ hw).2 h hh
    hids
  · intro log i h op c' _ hQ hclosed hown hP hperform
    refine ⟨⟨hQ.1.extend hown op, fun hcard => ?_⟩, fun hcard => ?_⟩
    · obtain ⟨⟨hadded, htaken⟩, -⟩ := (hP (hmono _ _ hcard)).issue hclosed hperform
      exact logAdds_append (hQ.2 (hmono _ _ hcard)) hadded htaken
    · exact ((hP (hmono _ _ hcard)).issue hclosed hperform).2
  · intro log u h hclosed hP hcard
    have hr := hP (hmono _ _ hcard)
    exact ⟨hr.p.extend hclosed u, hr.n.extend hclosed u⟩
  · intro log a b _ hQ ha hb hPa hPb hcard
    have hadds := hQ.2 hcard
    exact ⟨(hPa hcard).p.absorb hinj hQ.1 hcard (fun n => (hadds n).1) ha hb (hPb hcard).p,
      (hPa hcard).n.absorb hinj hQ.1 hcard (fun n => (hadds n).2) ha hb (hPb hcard).n⟩

lemma Counts.total_eq (h : Counts replica log f s c) (hs : ClosedIn log s) :
    c.total = ∑ n ∈ s, addedAt log f n := by
  let maker : ℕ → ReplicaId := fun n => ((log[n]?).map fun u => replica u.issuer).getD []
  have hmaker : ∀ n ∈ s, (log[n]?).map (fun u => replica u.issuer) = some (maker n) := by
    intro n hn
    simp [maker, getElem?_eq_getElem (hs.bounded n hn)]
  have hmaps : ∀ n ∈ s, maker n ∈ ids replica log := by
    intro n hn
    obtain ⟨u, hu, hid⟩ := Option.map_eq_some_iff.1 (hmaker n hn)
    rw [ids, List.mem_toFinset, List.mem_map]
    exact ⟨u, mem_of_getElem? hu, hid⟩
  rw [total_eq_sum h.keys, ← sum_fiberwise_of_maps_to hmaps]
  refine sum_congr rfl fun r _ => ?_
  rw [h.count]
  congr 1
  refine filter_congr fun n hn => ?_
  rw [madeBy, hmaker n hn, Option.some.injEq]

lemma Realizes.value_eq {h : Held PNCounter} (hr : Realizes replica log h)
    (hids : (ids replica log).card ≤ maxCrdtEntries) :
    h.state.value = h.state.p.total - h.state.n.total := by
  have hsize : ∀ {f c}, Counts replica log f h.history c → c.state.size ≤ maxCrdtEntries := by
    intro f c hc
    exact (le_add_right _ _).trans (hc.room hc hids)
  obtain ⟨hp, k, hk, hkle⟩ := value_eq_total (hsize hr.p) hr.p.whole
  obtain ⟨hn, m, hm, hmle⟩ := value_eq_total (hsize hr.n) hr.n.whole
  have hsmall : ((k : ℤ) - m).natAbs < 2 ^ 53 := by
    have hmax : maxSafeInteger < 2 ^ 53 := by decide
    omega
  have hexact := nearest_intCast hsmall
  push_cast at hexact
  rw [value, hp, hn, hk, hm, hexact]

theorem value_counts_history [DecidableEq ι] (replica : ι → ReplicaId)
    (hinj : Function.Injective replica) (w : World ι PNOperation PNCounter)
    (hw : Reaches replica w) (hids : (ids replica w.log).card ≤ maxCrdtEntries) :
    (∀ i, (w.held i).state.value = ∑ n ∈ (w.held i).history, addedAt w.log signed n) ∧
      ∀ (a b : GCounter) (r : ReplicaId) (s : Slot), a.state.get? r = some s →
        ∃ s', (a.merge b).state.get? r = some s' ∧ s.val ≤ s'.val := by
  refine ⟨fun i => ?_, fun a b r s hs => le_get?_merge a b hs⟩
  have hmem := Reachable.held_mem_archive hw i
  have hclosed := (Reachable.closedIn hw).2 _ hmem
  have hr := hw.realizes hinj hids _ hmem
  rw [hr.value_eq hids, hr.p.total_eq hclosed, hr.n.total_eq hclosed, ← sum_sub_distrib]
  refine sum_congr rfl fun n _ => ?_
  unfold addedAt
  cases w.log[n]? with
  | none => simp
  | some u => exact (signed_eq u.op).symm

def twoIds (b : Bool) : ReplicaId := if b then "a" else "b"

theorem value_counts_history_one : ∃ w : World Bool PNOperation PNCounter, Reaches twoIds w ∧
      (ids twoIds w.log).card ≤ maxCrdtEntries ∧ (w.held true).state.value = 1 ∧
      ∀ i, (w.held i).state.value = ∑ n ∈ (w.held i).history, addedAt w.log signed n := by
  obtain ⟨slot, hc, -⟩ := increment_one (twoIds true)
  let c : GCounter := ⟨GCounter.empty.state.set (twoIds true) slot⟩
  have hrat : one.toRat = 1 := magnitude_one
  have hperform : Performs twoIds [] true empty (.increment (.finite one)) ⟨c, GCounter.empty⟩ := by
    refine ⟨?_, ?_⟩
    · exact isInteger_one
    · have hneg : JsNumber.isNegative (.finite one) = false := by
        rw [JsNumber.isNegative, hrat]
        decide
      have hp : empty.p.increment (twoIds true) (.finite one) = .ok c := hc
      rw [PNCounter.increment, hneg, if_neg Bool.false_ne_true, hp]
      rfl
  let w : World Bool PNOperation PNCounter :=
    (World.initial empty).issue true (.increment (.finite one)) ⟨c, GCounter.empty⟩
  have hw : Reaches twoIds w := .issue .initial hperform
  have hids : (ids twoIds w.log).card ≤ maxCrdtEntries := by
    refine (List.toFinset_card_le _).trans ?_
    exact (by decide : 1 ≤ maxCrdtEntries)
  have hinj : Function.Injective twoIds := by decide
  have hvalue := (value_counts_history twoIds hinj w hw hids).1
  refine ⟨w, hw, hids, ?_, hvalue⟩
  rw [hvalue true]
  have hhistory : (w.held true).history = {0} := rfl
  rw [hhistory, Finset.sum_singleton]
  exact hrat

end PNCounter

end ActorTs
