import ActorTs.Cluster.Sharding.PassivationStrategy

/-!
# What a replacement region holds

A replacement region is a finite set of resident ids that can name one of them. Each of the
policies keeps its own order, and moves ids within it, but on the set it has the same few
effects: a hit changes nothing, an id is put in or taken out, and a victim is one of the
residents and is there unless the set is empty.
-/

open List Nat Finset

namespace ActorTs.Cluster.Sharding

open OrderedMap RecencyRegion SegmentedRecencyRegion FrequencyRegion

namespace RecencyRegion

variable (r : RecencyRegion) (entityId : JsString)

def residents : Finset JsString := r.order.toFinset

@[simp] lemma card_residents : r.residents.card = r.size := r.order.card_toFinset

@[simp] lemma has_iff : r.has entityId = true ↔ entityId ∈ r.residents := by
  rw [has, residents, OrderedSet.has_iff, OrderedSet.mem_toFinset]

@[simp] lemma residents_add : (r.add entityId).residents = insert entityId r.residents := by
  ext other
  by_cases h : other = entityId <;> simp [add, residents, h]

@[simp] lemma residents_remove :
    (r.remove entityId).2.residents = r.residents.erase entityId := by
  simp [remove, residents]

lemma of_remove_eq {r left : RecencyRegion} {entityId : JsString} {held : Bool}
    (h : r.remove entityId = (held, left)) :
    r.has entityId = held ∧ left.residents = r.residents.erase entityId := by
  refine ⟨congrArg Prod.fst h, ?_⟩
  rw [← residents_remove, h]

@[simp] lemma residents_touch : (r.touch entityId).residents = r.residents := by
  unfold touch
  split
  · next h =>
    rw [OrderedSet.has_iff] at h
    simp [residents, h]
  · rfl

lemma mem_of_victim {v : JsString} (h : r.victim = some v) : v ∈ r.residents :=
  (r.order.mem_toFinset v).2 (mem_of_mem_head? h)

lemma victim_eq_none_iff : r.victim = none ↔ r.residents = ∅ := by
  rw [victim, head?_eq_none_iff, residents, OrderedSet.toFinset, toFinset_eq_empty_iff]

lemma victim_add_ne {v : JsString} (h : (r.add entityId).victim = some v)
    (hsize : 1 < (r.add entityId).size) : v ≠ entityId := by
  have helems : (r.add entityId).order.elems = (r.order.delete entityId).elems ++ [entityId] := by
    rw [add, OrderedSet.add, dif_neg (by simp [OrderedSet.delete])]
  rw [victim, helems] at h
  cases hrest : (r.order.delete entityId).elems with
  | nil =>
    rw [size, OrderedSet.size, helems, hrest] at hsize
    exact absurd hsize (by simp)
  | cons oldest rest =>
    rw [hrest] at h
    obtain rfl : oldest = v := Option.some.inj h
    have hmem : oldest ∈ r.order.delete entityId := by
      rw [OrderedSet.mem_def, hrest]
      exact mem_cons_self
    exact ((r.order.mem_delete entityId oldest).1 hmem).2

end RecencyRegion

namespace SegmentedRecencyRegion

variable {r : SegmentedRecencyRegion}

def residents (r : SegmentedRecencyRegion) : Finset JsString :=
  r.probation.residents ∪ r.protectedEntities.residents

/-- No id is in both segments. -/
def Sound (r : SegmentedRecencyRegion) : Prop :=
  Disjoint r.probation.residents r.protectedEntities.residents

lemma card_residents (h : r.Sound) : r.residents.card = r.size := by
  rw [residents, card_union_of_disjoint h, RecencyRegion.card_residents,
    RecencyRegion.card_residents]
  rfl

lemma has_iff (r : SegmentedRecencyRegion) (entityId : JsString) :
    r.has entityId = true ↔ entityId ∈ r.residents := by
  simp [has, residents]

lemma mem_of_victim {v : JsString} (h : r.victim = some v) : v ∈ r.residents := by
  rcases Option.or_eq_some_iff.1 h with h | ⟨-, h⟩
  · exact mem_union_left _ (r.probation.mem_of_victim h)
  · exact Finset.mem_union_right _ (r.protectedEntities.mem_of_victim h)

lemma victim_eq_none_iff (r : SegmentedRecencyRegion) :
    r.victim = none ↔ r.residents = ∅ := by
  simp [victim, residents, RecencyRegion.victim_eq_none_iff]

lemma demote_spec (rounds : ℕ) (h : r.Sound) :
    (r.demote rounds).residents = r.residents ∧ (r.demote rounds).Sound := by
  induction rounds generalizing r with
  | zero => exact ⟨rfl, h⟩
  | succ rounds ih =>
    unfold demote
    split
    · split
      · exact ⟨rfl, h⟩
      · next demoted hvictim =>
        have hmem := r.protectedEntities.mem_of_victim hvictim
        obtain ⟨hresidents, hsound⟩ := ih (r := { r with
          protectedEntities := (r.protectedEntities.remove demoted).2
          probation := r.probation.add demoted }) (by
            simp only [Sound, residents_add, residents_remove,
              disjoint_insert_left, notMem_erase, not_false_eq_true, true_and]
            exact h.mono_right (erase_subset _ _))
        refine ⟨hresidents.trans ?_, hsound⟩
        rw [residents, residents_add, residents_remove,
          insert_union, ← union_insert, insert_erase hmem]
        rfl
    · exact ⟨rfl, h⟩

variable (entityId : JsString)

lemma touch_spec (h : r.Sound) :
    (r.touch entityId).residents = r.residents ∧ (r.touch entityId).Sound := by
  unfold touch
  split
  · simp only [residents, Sound, residents_touch]
    exact ⟨trivial, h⟩
  · split
    · exact ⟨rfl, h⟩
    · next probation hremove =>
      obtain ⟨hhas, hleft⟩ := of_remove_eq hremove
      have hmem : entityId ∈ r.probation.residents := (r.probation.has_iff entityId).1 hhas
      obtain ⟨hresidents, hsound⟩ := demote_spec (r := { r with
        probation := probation
        protectedEntities := r.protectedEntities.add entityId }) _ (by
          simp only [Sound, residents_add, hleft,
            disjoint_insert_right, notMem_erase, not_false_eq_true, true_and]
          exact h.mono_left (erase_subset _ _))
      refine ⟨hresidents.trans ?_, hsound⟩
      rw [residents, residents_add, hleft, union_insert, ← insert_union, insert_erase hmem]
      rfl

lemma add_spec {entityId : JsString} (h : r.Sound) (hnew : entityId ∉ r.residents) :
    (r.add entityId).residents = insert entityId r.residents ∧ (r.add entityId).Sound := by
  rw [residents, mem_union, not_or] at hnew
  simp only [residents, Sound, add, residents_add, disjoint_insert_left, insert_union]
  exact ⟨trivial, hnew.2, h⟩

lemma remove_spec (h : r.Sound) :
    (r.remove entityId).1 = r.has entityId ∧
      (r.remove entityId).2.residents = r.residents.erase entityId ∧
      (r.remove entityId).2.Sound := by
  unfold remove
  split
  · next probation hremove =>
    obtain ⟨hhas, hleft⟩ := of_remove_eq hremove
    have hmem : entityId ∈ r.probation.residents := (r.probation.has_iff entityId).1 hhas
    have hnot : entityId ∉ r.protectedEntities.residents := disjoint_left.1 h hmem
    refine ⟨by rw [has, hhas]; rfl, ?_, ?_⟩
    · simp [residents, hleft, erase_union_distrib, erase_eq_of_notMem hnot]
    · simpa only [Sound, hleft] using h.mono_left (erase_subset _ _)
  · next probation hremove =>
    obtain ⟨hhas, hleft⟩ := of_remove_eq hremove
    refine ⟨by rw [has, hhas]; rfl, ?_, ?_⟩
    · simp [residents, hleft, erase_union_distrib]
    · simpa only [Sound, hleft, residents_remove] using h.mono (erase_subset _ _) (erase_subset _ _)

end SegmentedRecencyRegion

/-! ### Counts and buckets -/

lemma one_le_halve (count : ℕ) : 1 ≤ halve count := le_max_left _ _

variable (buckets : OrderedMap ℕ (OrderedSet JsString))

lemma mem_putInBucket (count count' : ℕ) (entityId other : JsString) :
    other ∈ ((putInBucket buckets count entityId).get? count').getD .empty ↔
      (count' = count ∧ other = entityId) ∨ other ∈ (buckets.get? count').getD .empty := by
  rw [putInBucket, get?_set]
  by_cases h : count = count'
  · simp [h]
  · simp [h, Ne.symm h]

lemma mem_takeFromBucket (count count' : ℕ) (entityId other : JsString) :
    other ∈ ((takeFromBucket buckets count entityId).get? count').getD .empty ↔
      other ∈ (buckets.get? count').getD .empty ∧ ¬ (count' = count ∧ other = entityId) := by
  unfold takeFromBucket
  by_cases h : count = count'
  · subst h
    split
    · next bucket hbucket => simp [hbucket]
    · next hbucket => simp [hbucket]
  · split
    · simp [get?_set, h, Ne.symm h]
    · simp [Ne.symm h]

lemma mem_foldl_putInBucket (l : List (JsString × ℕ))
    (buckets : OrderedMap ℕ (OrderedSet JsString)) (count : ℕ) (other : JsString) :
    other ∈ ((l.foldl (fun buckets entry => putInBucket buckets entry.2 entry.1)
        buckets).get? count).getD .empty ↔
      other ∈ (buckets.get? count).getD .empty ∨ (other, count) ∈ l := by
  induction l generalizing buckets with
  | nil => simp
  | cons entry l ih =>
    rw [List.foldl_cons, ih, mem_putInBucket, List.mem_cons, or_comm (a := _ ∧ _), or_assoc,
      Prod.ext_iff, and_comm (a := count = entry.2)]

/-- A search through a range finds the first number at which there is something. -/
lemma findSome?_range' {β : Type*} (f : ℕ → Option β) (start length : ℕ) :
    match (range' start length).findSome? f with
    | none => ∀ k, start ≤ k → k < start + length → f k = none
    | some b => ∃ k, f k = some b ∧ ∀ k', start ≤ k' → k' < k → f k' = none := by
  induction length generalizing start with
  | zero => exact fun k h h' => absurd (h.trans_lt h') (by simp)
  | succ length ih =>
    rw [range'_succ, findSome?_cons]
    cases hstart : f start with
    | some b => exact ⟨start, hstart, fun k' h h' => absurd (h.trans_lt h') (by simp)⟩
    | none =>
      have hfirst : ∀ k, start ≤ k → ¬ start + 1 ≤ k → f k = none := fun k h h' => by
        obtain rfl : k = start := by omega
        exact hstart
      have hrest := ih (start + 1)
      split at hrest
      · next hnone =>
        rw [hnone]
        intro k h h'
        by_cases hk : start + 1 ≤ k
        · exact hrest k hk (by omega)
        · exact hfirst k h hk
      · next b hsome =>
        rw [hsome]
        obtain ⟨k, hk, hbelow⟩ := hrest
        refine ⟨k, hk, fun k' h h' => ?_⟩
        by_cases hk' : start + 1 ≤ k'
        · exact hbelow k' hk' h'
        · exact hfirst k' h hk'

namespace FrequencyRegion

variable {r : FrequencyRegion}

def residents (r : FrequencyRegion) : Finset JsString := r.counts.keys.toFinset

/-- Each id is in the bucket of its count and in no other, and the counts are within the
bounds that the scan goes by. -/
structure Coherent (r : FrequencyRegion) : Prop where
  buckets : ∀ count entityId, entityId ∈ r.bucket count ↔ r.counts.get? entityId = some count
  positive : ∀ entityId count, r.counts.get? entityId = some count → 1 ≤ count
  lowest : ∀ entityId count, r.counts.get? entityId = some count → r.lowestCount ≤ count
  highest : ∀ entityId count, r.counts.get? entityId = some count → count ≤ r.highestCount

variable (r)

lemma card_residents : r.residents.card = r.size := by
  rw [residents, toFinset_card_of_nodup r.counts.nodup_keys, r.counts.length_keys]
  rfl

variable (entityId : JsString)

lemma mem_residents_iff :
    entityId ∈ r.residents ↔ ∃ count, r.counts.get? entityId = some count := by
  rw [residents, List.mem_toFinset, mem_keys_iff]

lemma has_iff : r.has entityId = true ↔ entityId ∈ r.residents := by
  rw [has, OrderedMap.has_iff, residents, List.mem_toFinset]

variable {r}

lemma Coherent.init (agingPeriod : ℕ) :
    ({ agingPeriod := agingPeriod } : FrequencyRegion).Coherent where
  buckets := by simp [bucket]
  positive := by simp
  lowest := by simp
  highest := by simp

/-- An id goes from its bucket into the next one. The floor rises with it when it was the
last one there. -/
lemma moveBucket_spec (h : r.Coherent) {entityId : JsString} {old : ℕ}
    (hold : r.counts.get? entityId = some old) :
    (r.moveBucket entityId old (old + 1)).residents = r.residents ∧
      (r.moveBucket entityId old (old + 1)).Coherent := by
  have hleft : ∀ other, other ≠ entityId →
      (({ r with buckets := takeFromBucket r.buckets old entityId } :
        FrequencyRegion).bucket old).size = 0 → r.counts.get? other ≠ some old := by
    intro other hne hsize hcount
    have hmem : other ∈ ({ r with buckets := takeFromBucket r.buckets old entityId } :
        FrequencyRegion).bucket old :=
      (mem_takeFromBucket _ _ _ _ _).2 ⟨(h.buckets old other).2 hcount, fun heq => hne heq.2⟩
    exact absurd hsize ((OrderedSet.size_pos_iff _).2 ⟨other, hmem⟩).ne'
  have hbuckets : ∀ count other, other ∈ ((putInBucket (takeFromBucket r.buckets old entityId)
        (old + 1) entityId).get? count).getD .empty ↔
      (r.counts.set entityId (old + 1)).get? other = some count := by
    intro count other
    rw [mem_putInBucket, mem_takeFromBucket, get?_set]
    by_cases heq : entityId = other
    · subst heq
      have hbucket := h.buckets count entityId
      rw [hold, Option.some.injEq, bucket] at hbucket
      simp only [and_true, hbucket, if_true, Option.some.injEq]
      constructor
      · rintro (rfl | ⟨rfl, hne⟩)
        · rfl
        · exact absurd rfl hne
      · exact fun heq => .inl heq.symm
    · rw [if_neg heq, ← h.buckets count other, bucket]
      simp [Ne.symm heq]
  have hcounts : ∀ other count, (r.counts.set entityId (old + 1)).get? other = some count →
      count = old + 1 ∨ other ≠ entityId ∧ r.counts.get? other = some count := by
    intro other count hcount
    rw [get?_set] at hcount
    split at hcount
    · exact .inl (Option.some.inj hcount).symm
    · next hne => exact .inr ⟨Ne.symm hne, hcount⟩
  have hkeys : (r.counts.set entityId (old + 1)).keys.toFinset = r.residents := by
    ext other
    rw [List.mem_toFinset, mem_keys_set, residents, List.mem_toFinset, or_iff_right_of_imp]
    rintro rfl
    exact (r.counts.mem_keys_iff other).2 ⟨old, hold⟩
  have hpositive : ∀ other count, (r.counts.set entityId (old + 1)).get? other = some count →
      1 ≤ count := by
    intro other count hcount
    rcases hcounts other count hcount with rfl | ⟨-, hcount⟩
    · exact le_add_left 1 old
    · exact h.positive other count hcount
  have hhighest : ∀ other count, (r.counts.set entityId (old + 1)).get? other = some count →
      count ≤ max r.highestCount (old + 1) := by
    intro other count hcount
    rcases hcounts other count hcount with rfl | ⟨-, hcount⟩
    · exact le_max_right _ _
    · exact (h.highest other count hcount).trans (le_max_left _ _)
  unfold moveBucket
  dsimp only
  split
  · next hfloor =>
    refine ⟨hkeys, hbuckets, hpositive, fun other count hcount => ?_, hhighest⟩
    rcases hcounts other count hcount with rfl | ⟨hne, hcount⟩
    · exact le_rfl
    · have hle := h.lowest other count hcount
      have hother : count ≠ old := fun heq => hleft other hne hfloor.2 (heq ▸ hcount)
      change old + 1 ≤ count
      omega
  · refine ⟨hkeys, hbuckets, hpositive, fun other count hcount => ?_, hhighest⟩
    rcases hcounts other count hcount with rfl | ⟨-, hcount⟩
    · exact (h.lowest entityId old hold).trans (le_succ old)
    · exact h.lowest other count hcount

lemma age_spec (r : FrequencyRegion) : r.age.residents = r.residents ∧ r.age.Coherent := by
  have hvalue : ∀ entityId count,
      (r.counts.mapValues fun _ count => halve count).get? entityId = some count →
        count ∈ (r.counts.mapValues fun _ count => halve count).values := fun entityId count h =>
    mem_map.2 ⟨(entityId, count), (get?_eq_some_iff _ _ _).1 h, rfl⟩
  refine ⟨?_, ?_, ?_, ?_, ?_⟩
  · ext entityId
    rw [residents, residents, List.mem_toFinset, List.mem_toFinset]
    exact mem_keys_mapValues _ _ _
  · intro count entityId
    rw [bucket, age, mem_foldl_putInBucket, get?_empty, get?_eq_some_iff]
    simp
  · intro entityId count h
    rw [age, get?_mapValues, Option.map_eq_some_iff] at h
    obtain ⟨old, -, rfl⟩ := h
    exact one_le_halve old
  · intro entityId count h
    have hmem := hvalue entityId count h
    rw [age]
    cases hmin : (r.counts.mapValues fun _ count => halve count).values.min? with
    | none => exact zero_le _
    | some lowest => exact (min?_eq_some_iff.1 hmin).2 count hmem
  · intro entityId count h
    have hmem := hvalue entityId count h
    rw [age]
    cases hmax : (r.counts.mapValues fun _ count => halve count).values.max? with
    | none => rw [max?_eq_none_iff.1 hmax] at hmem; exact absurd hmem not_mem_nil
    | some highest => exact (max?_eq_some_iff.1 hmax).2 count hmem

lemma afterAccess_spec (h : r.Coherent) :
    r.afterAccess.residents = r.residents ∧ r.afterAccess.Coherent := by
  unfold afterAccess
  dsimp only
  split
  · exact ⟨rfl, h.buckets, h.positive, h.lowest, h.highest⟩
  · exact age_spec _

variable (entityId : JsString)

lemma touch_spec (h : r.Coherent) :
    (r.touch entityId).residents = r.residents ∧ (r.touch entityId).Coherent := by
  unfold touch
  split
  · exact ⟨rfl, h⟩
  · next count hcount =>
    obtain ⟨hmoved, hcoherent⟩ := moveBucket_spec h hcount
    obtain ⟨hafter, hcoherent⟩ := afterAccess_spec hcoherent
    exact ⟨hafter.trans hmoved, hcoherent⟩

lemma add_spec {entityId : JsString} (h : r.Coherent) (hnew : entityId ∉ r.residents) :
    (r.add entityId).residents = insert entityId r.residents ∧ (r.add entityId).Coherent := by
  have hnone : r.counts.get? entityId = none := by
    rw [get?_eq_none_iff]
    exact fun hmem => hnew (mem_toFinset.2 hmem)
  have hcounts : ∀ other count, (r.counts.set entityId 1).get? other = some count →
      count = 1 ∨ r.counts.get? other = some count := by
    intro other count hcount
    rw [get?_set] at hcount
    split at hcount
    · exact .inl (Option.some.inj hcount).symm
    · exact .inr hcount
  unfold add
  rw [if_neg (by simp [OrderedMap.has, hnone])]
  obtain ⟨hresidents, hcoherent⟩ := afterAccess_spec (r := { r with
      counts := r.counts.set entityId 1
      buckets := putInBucket r.buckets 1 entityId
      lowestCount := 1
      highestCount := max r.highestCount 1 }) {
    buckets := by
      intro count other
      rw [bucket, mem_putInBucket, get?_set]
      have hbucket := h.buckets count other
      by_cases heq : entityId = other
      · subst heq
        rw [hnone, bucket] at hbucket
        simp [hbucket, eq_comm]
      · rw [if_neg heq, ← hbucket, bucket]
        simp [Ne.symm heq]
    positive := fun other count hcount => (hcounts other count hcount).elim
      (fun heq => heq.ge) (h.positive other count)
    lowest := fun other count hcount => (hcounts other count hcount).elim
      (fun heq => heq.ge) (h.positive other count)
    highest := fun other count hcount => (hcounts other count hcount).elim
      (fun heq => heq.le.trans (le_max_right _ _))
      (fun hcount => (h.highest other count hcount).trans (le_max_left _ _)) }
  refine ⟨hresidents.trans ?_, hcoherent⟩
  ext other
  simp [residents, mem_keys_set]

lemma remove_spec (h : r.Coherent) :
    (r.remove entityId).1 = r.has entityId ∧
      (r.remove entityId).2.residents = r.residents.erase entityId ∧
      (r.remove entityId).2.Coherent := by
  have hhas : r.has entityId = (r.counts.get? entityId).isSome := rfl
  unfold remove
  split
  · next hnone =>
    refine ⟨by rw [hhas, hnone]; rfl, ?_, h⟩
    rw [erase_eq_of_notMem]
    rw [residents, List.mem_toFinset, ← get?_eq_none_iff]
    exact hnone
  · next count hcount =>
    have hrest : ∀ other count', (r.counts.delete entityId).get? other = some count' →
        r.counts.get? other = some count' := fun other count' => get?_of_get?_delete
    refine ⟨by rw [hhas, hcount]; rfl, ?_, ?_, ?_, ?_, ?_⟩
    · ext other
      simp [residents, mem_keys_delete, and_comm, eq_comm]
    · intro count' other
      rw [bucket, mem_takeFromBucket, get?_delete]
      have hbucket := h.buckets count' other
      by_cases heq : entityId = other
      · subst heq
        rw [hcount, bucket, Option.some.injEq] at hbucket
        simp [hbucket, eq_comm]
      · rw [if_neg heq, ← hbucket, bucket]
        simp [Ne.symm heq]
    · exact fun other count' hcount => h.positive other count' (hrest other count' hcount)
    · exact fun other count' hcount => h.lowest other count' (hrest other count' hcount)
    · exact fun other count' hcount => h.highest other count' (hrest other count' hcount)

lemma scan_spec (h : r.Coherent) :
    match r.scan with
    | none => r.residents = ∅
    | some (candidate, least) => r.counts.get? candidate = some least ∧
        ∀ other count', r.counts.get? other = some count' → least ≤ count' := by
  have hempty : ∀ count, (r.bucket count).elems.head?.map (fun candidate => (candidate, count)) =
      none → ∀ other, r.counts.get? other ≠ some count := by
    intro count hnone other hcount
    rw [Option.map_eq_none_iff, head?_eq_none_iff] at hnone
    have hmem := (h.buckets count other).2 hcount
    rw [OrderedSet.mem_def, hnone] at hmem
    exact absurd hmem not_mem_nil
  have hfound := findSome?_range'
    (fun count => (r.bucket count).elems.head?.map fun candidate => (candidate, count))
    r.lowestCount (r.highestCount + 1 - r.lowestCount)
  rw [scan]
  split at hfound
  · next hnone =>
    rw [hnone]
    refine eq_empty_of_forall_notMem fun other hother => ?_
    obtain ⟨count, hcount⟩ := (r.mem_residents_iff other).1 hother
    have hlow := h.lowest other count hcount
    have hhigh := h.highest other count hcount
    exact hempty count (hfound count hlow (by omega)) other hcount
  · next found hsome =>
    rw [hsome]
    obtain ⟨count, hcount, hbelow⟩ := hfound
    obtain ⟨candidate, hcandidate, rfl⟩ := Option.map_eq_some_iff.1 hcount
    refine ⟨(h.buckets count candidate).1 (mem_of_mem_head? hcandidate), ?_⟩
    intro other count' hcount'
    by_contra hlt
    exact hempty count' (hbelow count' (h.lowest other count' hcount') (not_le.1 hlt)) other hcount'

lemma victim_spec (h : r.Coherent) :
    (∀ v, r.victim.1 = some v → v ∈ r.residents) ∧ (r.victim.1 = none ↔ r.residents = ∅) ∧
      r.victim.2.residents = r.residents ∧ r.victim.2.Coherent := by
  have hempty : r.counts.size = 0 ↔ r.residents = ∅ := by
    rw [← Finset.card_eq_zero, card_residents]
    rfl
  have hscan := scan_spec h
  unfold victim
  split
  · next hsize => simpa [h] using hempty.1 hsize
  · next hsize =>
    have hne : r.residents ≠ ∅ := fun heq => hsize (hempty.2 heq)
    cases hfound : r.scan with
    | none =>
      rw [hfound] at hscan
      exact absurd hscan hne
    | some found =>
      rw [hfound] at hscan
      obtain ⟨hcandidate, hleast⟩ := hscan
      refine ⟨fun v hv => ?_, by simpa using hne, rfl, h.buckets, h.positive, hleast, h.highest⟩
      obtain rfl : found.1 = v := Option.some.inj hv
      exact (r.mem_residents_iff found.1).2 ⟨found.2, hcandidate⟩

end FrequencyRegion

/-! ### Any policy -/

namespace ReplacementRegion

variable {r : ReplacementRegion}

def residents : ReplacementRegion → Finset JsString
  | recency r => r.residents
  | segmented r => r.residents
  | frequency r => r.residents

/-- What the policy's own bookkeeping keeps. -/
def Sound : ReplacementRegion → Prop
  | recency _ => True
  | segmented r => r.Sound
  | frequency r => r.Coherent

lemma card_residents (h : r.Sound) : r.residents.card = r.size := by
  cases r with
  | recency r => exact r.card_residents
  | segmented r => exact card_residents h
  | frequency r => exact r.card_residents

lemma has_iff (r : ReplacementRegion) (entityId : JsString) :
    r.has entityId = true ↔ entityId ∈ r.residents := by
  cases r with
  | recency r => exact r.has_iff entityId
  | segmented r => exact r.has_iff entityId
  | frequency r => exact r.has_iff entityId

variable (entityId : JsString)

lemma touch_spec (h : r.Sound) :
    (r.touch entityId).residents = r.residents ∧ (r.touch entityId).Sound := by
  cases r with
  | recency r => exact ⟨r.residents_touch entityId, trivial⟩
  | segmented r => exact touch_spec entityId h
  | frequency r => exact touch_spec entityId h

lemma add_spec {entityId : JsString} (h : r.Sound) (hnew : entityId ∉ r.residents) :
    (r.add entityId).residents = insert entityId r.residents ∧ (r.add entityId).Sound := by
  cases r with
  | recency r => exact ⟨r.residents_add entityId, trivial⟩
  | segmented r => exact add_spec h hnew
  | frequency r => exact add_spec h hnew

lemma remove_spec (h : r.Sound) :
    (r.remove entityId).1 = r.has entityId ∧
      (r.remove entityId).2.residents = r.residents.erase entityId ∧
      (r.remove entityId).2.Sound := by
  cases r with
  | recency r => exact ⟨rfl, r.residents_remove entityId, trivial⟩
  | segmented r => exact remove_spec entityId h
  | frequency r => exact remove_spec entityId h

lemma victim_spec (h : r.Sound) :
    (∀ v, r.victim.1 = some v → v ∈ r.residents) ∧ (r.victim.1 = none ↔ r.residents = ∅) ∧
      r.victim.2.residents = r.residents ∧ r.victim.2.Sound := by
  cases r with
  | recency r => exact ⟨fun _ => r.mem_of_victim, r.victim_eq_none_iff, rfl, trivial⟩
  | segmented r =>
    exact ⟨fun _ => mem_of_victim, r.victim_eq_none_iff, rfl, h⟩
  | frequency r => exact victim_spec h

end ReplacementRegion

lemma PassivationStrategyConfig.buildMainRegion_spec (config : PassivationStrategyConfig) :
    config.buildMainRegion.residents = ∅ ∧ config.buildMainRegion.Sound := by
  unfold buildMainRegion
  cases config.replacement with
  | leastRecentlyUsed => exact ⟨rfl, trivial⟩
  | segmentedLeastRecentlyUsed => exact ⟨rfl, disjoint_empty_left _⟩
  | leastFrequentlyUsed => exact ⟨rfl, .init _⟩

end ActorTs.Cluster.Sharding
