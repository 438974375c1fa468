import ActorTs.Cache.InMemoryCache
import Mathlib.Algebra.Order.BigOperators.Group.List

/-!
# The bounds of the in-memory cache

`Sound` is what holds of a cache after any operations: the cache and every bucket with a quota
are within their bounds, a key is held by its own bucket alone and by one half of it, what is
guaranteed expires, and a guaranteed entry was evicted from a bucket only while that had no
other entries.

An operation on one bucket either makes it no larger, or it writes a key that room was made for.
-/

open List Option Bool Nat Function

namespace ActorTs.Cache

open OrderedMap Machine InMemoryCache Bucket

variable {V : Type}

/-! ## One bucket -/

namespace Bucket

def Holds (b : Bucket V) (key : JsString) : Prop :=
  key ∈ b.guaranteed.keys ∨ key ∈ b.opportunistic.keys

lemma has_iff (b : Bucket V) (key : JsString) : b.has key = true ↔ b.Holds key := by
  rw [has, Bool.or_eq_true, OrderedMap.has_iff, OrderedMap.has_iff]
  rfl

/-- What a bucket keeps: its own keys, each in one half, and nothing guaranteed for ever. -/
structure WellKept (c : CacheConfig) (name : JsString) (b : Bucket V) : Prop where
  home : ∀ key, b.Holds key → c.bucketFor key = name
  oneHalf : ∀ key, key ∈ b.guaranteed.keys → key ∉ b.opportunistic.keys
  expires : ∀ key entry, b.guaranteed.get? key = some entry → entry.expiresAt.isFinite = true

/-- A bucket has nothing that another one has not. -/
structure Within (b b' : Bucket V) : Prop where
  guaranteed : ∀ key entry,
    b.guaranteed.get? key = some entry → b'.guaranteed.get? key = some entry
  opportunistic : ∀ key entry,
    b.opportunistic.get? key = some entry → b'.opportunistic.get? key = some entry

variable {c : CacheConfig} {name key : JsString} {b b' : Bucket V} {entry : Entry V}

lemma Within.mem_guaranteed (h : Within b b') (hkey : key ∈ b.guaranteed.keys) :
    key ∈ b'.guaranteed.keys := by
  rw [mem_keys_iff] at hkey ⊢
  obtain ⟨entry, hentry⟩ := hkey
  exact ⟨entry, h.guaranteed key entry hentry⟩

lemma Within.mem_opportunistic (h : Within b b') (hkey : key ∈ b.opportunistic.keys) :
    key ∈ b'.opportunistic.keys := by
  rw [mem_keys_iff] at hkey ⊢
  obtain ⟨entry, hentry⟩ := hkey
  exact ⟨entry, h.opportunistic key entry hentry⟩

lemma Within.holds (h : Within b b') (hkey : b.Holds key) : b'.Holds key :=
  hkey.imp h.mem_guaranteed h.mem_opportunistic

lemma WellKept.of_within (h : WellKept c name b') (hwithin : Within b b') :
    WellKept c name b where
  home key hkey := h.home key (hwithin.holds hkey)
  oneHalf key hkey hother :=
    h.oneHalf key (hwithin.mem_guaranteed hkey) (hwithin.mem_opportunistic hother)
  expires key entry hentry := h.expires key entry (hwithin.guaranteed key entry hentry)

lemma wellKept_empty : WellKept c name (empty : Bucket V) where
  home _ h := h.elim (fun h => (nomatch h)) (fun h => (nomatch h))
  oneHalf _ h := nomatch h
  expires _ _ h := nomatch h

lemma remove_within (b : Bucket V) (key : JsString) : Within (b.remove key) b where
  guaranteed _ _ h := get?_of_get?_delete h
  opportunistic _ _ h := get?_of_get?_delete h

lemma sweepExpired_within (now : JsNumber) (b : Bucket V) : Within (b.sweepExpired now) b where
  guaranteed _ _ h := get?_of_get?_filter h
  opportunistic _ _ h := get?_of_get?_filter h

/-- How often a key is held. -/
def count (b : Bucket V) (key : JsString) : ℕ :=
  (b.opportunistic.get? key).elim 0 (fun _ => 1) + (b.guaranteed.get? key).elim 0 (fun _ => 1)

lemma count_pos (h : b.Holds key) : 1 ≤ b.count key := by
  rcases h with h | h
  all_goals
    obtain ⟨entry, hentry⟩ := (mem_keys_iff _ _).1 h
    rw [count, hentry, elim_some]
    omega

variable (b)

lemma size_remove (key : JsString) :
    (b.remove key).size + b.count key = b.size := by
  have hopp := size_delete b.opportunistic key
  have hgua := size_delete b.guaranteed key
  simp only [remove, size, count]
  omega

lemma size_write (key : JsString) (entry : Entry V) (carries : Bool) :
    (b.write key entry carries).size + b.count key = b.size + 1 := by
  cases carries with
  | true =>
    have hopp := size_delete b.opportunistic key
    have hgua := size_set b.guaranteed key entry
    simp only [write, size, count, if_true]
    omega
  | false =>
    have hopp := size_set b.opportunistic key entry
    have hgua := size_delete b.guaranteed key
    simp only [write, size, count, false_eq_true, if_false]
    omega

lemma size_adoptAsGuaranteed_le (key : JsString) (entry : Entry V) :
    (b.adoptAsGuaranteed key entry).size ≤ b.size := by
  rw [adoptAsGuaranteed]
  split
  · next h =>
    obtain ⟨held, hheld⟩ := (mem_keys_iff _ _).1 ((OrderedMap.has_iff _ _).1 h)
    have hopp := size_delete b.opportunistic key
    have hgua := size_set_le b.guaranteed key entry
    rw [hheld, elim_some] at hopp
    simp only [size]
    omega
  · exact le_refl _

variable {b}

lemma size_bump_le (h : b.Holds key) (entry : Entry V) (now : JsNumber) :
    (b.bump c key entry now).size ≤ b.size := by
  have hmove : ∀ (m : OrderedMap JsString (Entry V)) (e : Entry V), key ∈ m.keys →
      ((m.delete key).set key e).size ≤ m.size := by
    intro m e hmem
    obtain ⟨held, hheld⟩ := (mem_keys_iff _ _).1 hmem
    have hdelete := size_delete m key
    have hset := size_set_le (m.delete key) key e
    rw [hheld, elim_some] at hdelete
    omega
  rw [bump]
  split
  · next hgua => exact Nat.add_le_add_left (hmove _ _ ((OrderedMap.has_iff _ _).1 hgua)) _
  · next hgua =>
    rw [OrderedMap.has_iff] at hgua
    exact Nat.add_le_add_right (hmove _ _ (h.resolve_left hgua)) _

lemma size_sweepExpired_le (now : JsNumber) (b : Bucket V) :
    (b.sweepExpired now).size ≤ b.size :=
  Nat.add_le_add (size_filter_le _ _) (size_filter_le _ _)

lemma WellKept.write (h : WellKept c name b) (hname : c.bucketFor key = name) {carries : Bool}
    (hfinite : carries = true → entry.expiresAt.isFinite = true) :
    WellKept c name (b.write key entry carries) := by
  cases carries with
  | true =>
    refine ⟨?_, ?_, ?_⟩
    · rintro other (hother | hother)
      · rcases (mem_keys_set _ _ _ _).1 hother with rfl | hother
        · exact hname
        · exact h.home other (.inl hother)
      · exact h.home other (.inr ((mem_keys_delete _ _ _).1 hother).1)
    · intro other hgua hopp
      obtain ⟨hopp, hne⟩ := (mem_keys_delete _ _ _).1 hopp
      rcases (mem_keys_set _ _ _ _).1 hgua with rfl | hgua
      · exact hne rfl
      · exact h.oneHalf other hgua hopp
    · intro other e he
      rcases get?_set_cases he with ⟨-, rfl⟩ | he
      · exact hfinite rfl
      · exact h.expires other e he
  | false =>
    refine ⟨?_, ?_, ?_⟩
    · rintro other (hother | hother)
      · exact h.home other (.inl ((mem_keys_delete _ _ _).1 hother).1)
      · rcases (mem_keys_set _ _ _ _).1 hother with rfl | hother
        · exact hname
        · exact h.home other (.inr hother)
    · intro other hgua hopp
      obtain ⟨hgua, hne⟩ := (mem_keys_delete _ _ _).1 hgua
      rcases (mem_keys_set _ _ _ _).1 hopp with rfl | hopp
      · exact hne rfl
      · exact h.oneHalf other hgua hopp
    · exact fun other e he => h.expires other e (get?_of_get?_delete he)

lemma WellKept.adoptAsGuaranteed (h : WellKept c name b)
    (hfinite : entry.expiresAt.isFinite = true) :
    WellKept c name (b.adoptAsGuaranteed key entry) := by
  rw [Bucket.adoptAsGuaranteed]
  split
  · next hhas =>
    have hname := h.home key (.inr ((OrderedMap.has_iff _ _).1 hhas))
    have hwrite : WellKept c name (b.write key entry true) := h.write hname fun _ => hfinite
    exact hwrite
  · exact h

lemma notMem_keys_remove_opportunistic (b : Bucket V) (key : JsString) :
    key ∉ (b.remove key).opportunistic.keys :=
  fun h => ((mem_keys_delete _ _ _).1 h).2 rfl

lemma notMem_keys_remove_guaranteed (b : Bucket V) (key : JsString) :
    key ∉ (b.remove key).guaranteed.keys :=
  fun h => ((mem_keys_delete _ _ _).1 h).2 rfl

lemma WellKept.bump_eq (h : WellKept c name b) (entry : Entry V) (now : JsNumber) :
    b.bump c key entry now = (b.remove key).write key
      (if b.guaranteed.has key then entry else c.extendIdleWindow entry now)
      (b.guaranteed.has key) := by
  rw [Bucket.bump]
  cases hhas : b.guaranteed.has key with
  | true =>
    have hopp := h.oneHalf key ((OrderedMap.has_iff _ _).1 hhas)
    simp only [if_true, Bucket.write, delete_of_notMem (notMem_keys_remove_opportunistic b key)]
    simp only [remove, delete_of_notMem hopp]
  | false =>
    have hgua : key ∉ b.guaranteed.keys := by
      rw [← OrderedMap.has_iff, hhas]
      exact false_ne_true
    simp only [false_eq_true, if_false, Bucket.write,
      delete_of_notMem (notMem_keys_remove_guaranteed b key)]
    simp only [remove, delete_of_notMem hgua]

lemma WellKept.bump (h : WellKept c name b) (hname : c.bucketFor key = name) {now : JsNumber}
    (hfinite : key ∈ b.guaranteed.keys → entry.expiresAt.isFinite = true) :
    WellKept c name (b.bump c key entry now) := by
  rw [h.bump_eq]
  refine (h.of_within (remove_within b key)).write hname fun hhas => ?_
  rw [if_pos hhas]
  exact hfinite ((OrderedMap.has_iff _ _).1 hhas)

lemma holds_of_lookup (h : b.lookup key = some entry) : b.Holds key := by
  rcases or_eq_some_iff.1 h with h | ⟨-, h⟩
  · exact .inl ((mem_keys_iff _ _).2 ⟨entry, h⟩)
  · exact .inr ((mem_keys_iff _ _).2 ⟨entry, h⟩)

lemma WellKept.isFinite_of_lookup (h : WellKept c name b) (hlookup : b.lookup key = some entry)
    (hgua : key ∈ b.guaranteed.keys) : entry.expiresAt.isFinite = true := by
  rcases or_eq_some_iff.1 hlookup with hentry | ⟨hnone, -⟩
  · exact h.expires key entry hentry
  · exact absurd hgua ((get?_eq_none_iff _ _).1 hnone)

lemma evict_eq_some {victim : JsString × Bucket V} (h : b.evict = some victim) :
    b.Holds victim.1 ∧ Within victim.2 b ∧ victim.2.size + 1 = b.size ∧
      (0 < b.opportunistic.size → victim.1 ∈ b.opportunistic.keys) := by
  have hsize : ∀ (m : OrderedMap JsString (Entry V)) {key : JsString}, key ∈ m.keys →
      (m.delete key).size + 1 = m.size := by
    intro m key hkey
    obtain ⟨held, hheld⟩ := (mem_keys_iff _ _).1 hkey
    have hdelete := size_delete m key
    rwa [hheld, elim_some] at hdelete
  rw [evict] at h
  split at h
  · obtain ⟨key, hkey, rfl⟩ := map_eq_some_iff.1 h
    have hmem := mem_of_head? hkey
    refine ⟨.inr hmem, ⟨fun _ _ h => h, fun _ _ h => get?_of_get?_delete h⟩, ?_, fun _ => hmem⟩
    have hlen := hsize _ hmem
    simp only [size]
    omega
  · next hempty =>
    obtain ⟨key, hkey, rfl⟩ := map_eq_some_iff.1 h
    have hmem := mem_of_head? hkey
    refine ⟨.inl hmem, ⟨fun _ _ h => get?_of_get?_delete h, fun _ _ h => h⟩, ?_,
      fun hpos => absurd hpos hempty⟩
    have hlen := hsize _ hmem
    simp only [size]
    omega

lemma size_of_evict_eq_none (h : b.evict = none) : b.size = 0 := by
  rw [evict] at h
  split at h
  · next hpos =>
    rw [map_eq_none_iff, head?_eq_none_iff, ← length_eq_zero_iff, length_keys] at h
    omega
  · next hpos =>
    rw [map_eq_none_iff, head?_eq_none_iff, ← length_eq_zero_iff, length_keys] at h
    rw [size]
    omega

end Bucket

/-! ## The whole cache -/

lemma CacheConfig.bucketFor_mem (c : CacheConfig) (key : JsString) :
    c.bucketFor key ∈ c.names := by
  rw [bucketFor, names, mem_cons]
  cases h : c.reservedPrefixes.find? fun pre => pre.isPrefixOf key with
  | none => exact .inl rfl
  | some pre => exact .inr (mem_mergeSort.1 (mem_of_find?_eq_some h))

lemma CacheConfig.nodup_names (c : CacheConfig) : c.names.Nodup :=
  nodup_cons.2 ⟨c.nil_notMem_quotas, c.quotas.nodup_keys⟩

/-- Of a sum over a list without repetitions, a change at one place changes one summand. -/
lemma sum_map_update {l : List JsString} (hl : l.Nodup) {name : JsString} (hname : name ∈ l)
    (f : Bucket V → ℕ) (g : JsString → Bucket V) (b : Bucket V) :
    (l.map fun n => f (update g name b n)).sum + f (g name) =
      (l.map fun n => f (g n)).sum + f b := by
  induction l with
  | nil => cases hname
  | cons n l ih =>
    rw [nodup_cons] at hl
    rw [map_cons, map_cons, sum_cons, sum_cons]
    rcases mem_cons.1 hname with rfl | hmem
    · have hrest : (l.map fun n => f (update g name b n)) = l.map fun n => f (g n) := by
        refine map_congr_left fun n hn => ?_
        have hne : n ≠ name := fun h => hl.1 (h ▸ hn)
        rw [update_of_ne hne]
      rw [hrest, update_self]
      omega
    · have hne : n ≠ name := fun h => hl.1 (h ▸ hmem)
      have hrest := ih hl.2 hmem
      rw [update_of_ne hne]
      omega

namespace InMemoryCache

variable {c : CacheConfig} {s s' : InMemoryCache V} {name key : JsString} {other : JsString}

lemma buckets_update_self (name : JsString) (f : Bucket V → Bucket V) (s : InMemoryCache V) :
    (s.update name f).buckets name = f (s.buckets name) :=
  update_self ..

lemma buckets_update_of_ne (h : other ≠ name) (f : Bucket V → Bucket V) (s : InMemoryCache V) :
    (s.update name f).buckets other = s.buckets other :=
  update_of_ne h ..

lemma totalSize_update (hname : name ∈ c.names) (f : Bucket V → Bucket V) (s : InMemoryCache V) :
    totalSize c (s.update name f) + (s.buckets name).size =
      totalSize c s + (f (s.buckets name)).size :=
  sum_map_update c.nodup_names hname size s.buckets _

lemma evictFrom_eq_some (h : evictFrom name s = some s') :
    ∃ victim, (s.buckets name).evict = some victim ∧
      s' = ⟨Function.update s.buckets name victim.2,
        s.evictions ++ [⟨name, victim.1, s.buckets name⟩]⟩ := by
  obtain ⟨victim, hvictim, rfl⟩ := map_eq_some_iff.1 h
  exact ⟨victim, hvictim, rfl⟩

lemma buckets_evictFrom_of_ne (h : evictFrom name s = some s') (hne : other ≠ name) :
    s'.buckets other = s.buckets other := by
  obtain ⟨victim, -, rfl⟩ := evictFrom_eq_some h
  exact update_of_ne hne ..

lemma evict_of_evictFrom (h : evictFrom name s = some s') :
    ∃ key, (s.buckets name).evict = some (key, s'.buckets name) := by
  obtain ⟨victim, hvictim, rfl⟩ := evictFrom_eq_some h
  refine ⟨victim.1, hvictim.trans (congrArg some (Prod.ext rfl ?_))⟩
  exact (update_self name victim.2 s.buckets).symm

lemma evictFromAnyBucket_eq_some (h : evictFromAnyBucket c s = some s') :
    ∃ name ∈ c.names, evictFrom name s = some s' := by
  rw [evictFromAnyBucket] at h
  split at h
  · next name hfind => exact ⟨name, mem_of_find?_eq_some hfind, h⟩
  · split at h
    · next name hfind => exact ⟨name, mem_of_find?_eq_some hfind, h⟩
    · cases h

lemma totalSize_of_evictFromAnyBucket_eq_none (h : evictFromAnyBucket c s = none) :
    totalSize c s = 0 := by
  have hempty : ∀ name, evictFrom name s = none → (s.buckets name).size = 0 :=
    fun name hname => size_of_evict_eq_none (map_eq_none_iff.1 hname)
  rw [evictFromAnyBucket] at h
  refine sum_eq_zero fun n hn => ?_
  obtain ⟨name, hname, rfl⟩ := mem_map.1 hn
  split at h
  · next found hfind =>
    have hpos := find?_some hfind
    have hzero := hempty found h
    rw [decide_eq_true_iff] at hpos
    rw [Bucket.size] at hzero
    omega
  · next hopp =>
    split at h
    · next found hfind =>
      have hpos := find?_some hfind
      have hzero := hempty found h
      rw [decide_eq_true_iff] at hpos
      rw [Bucket.size] at hzero
      omega
    · next hgua =>
      have hopp := find?_eq_none.1 hopp name hname
      have hgua := find?_eq_none.1 hgua name hname
      rw [decide_eq_true_iff] at hopp hgua
      rw [Bucket.size]
      omega

lemma evictAtQuota_eq_some (h : evictAtQuota c name s = some s') :
    evictFrom name s = some s' := by
  rw [evictAtQuota] at h
  split at h
  · cases h
  · split at h
    · exact h
    · cases h

lemma evictAtBound_eq_some (h : evictAtBound c s = some s') :
    ∃ name ∈ c.names, evictFrom name s = some s' := by
  rw [evictAtBound] at h
  split at h
  · cases h
  · split at h
    · rcases or_eq_some_iff.1 h with h | ⟨-, h⟩
      · exact ⟨[], mem_cons_self, h⟩
      · exact evictFromAnyBucket_eq_some h
    · cases h

/-- What holds of the cache after any operations. -/
structure Sound (c : CacheConfig) (s : InMemoryCache V) : Prop where
  total : ∀ maxEntries, c.maxEntries = some maxEntries → totalSize c s ≤ maxEntries
  quota : ∀ pre quota, c.quotas.get? pre = some quota → (s.buckets pre).size ≤ quota
  kept : ∀ name, (s.buckets name).WellKept c name
  evicted : ∀ e ∈ s.evictions, e.key ∈ e.bucket.guaranteed.keys → e.bucket.opportunistic.size = 0

/-- There is room for another entry in a bucket. -/
def HasRoom (c : CacheConfig) (name : JsString) (s : InMemoryCache V) : Prop :=
  (∀ quota, c.quotas.get? name = some quota → (s.buckets name).size < quota) ∧
    ∀ maxEntries, c.maxEntries = some maxEntries → totalSize c s < maxEntries

lemma sound_initial : Sound c (initial : InMemoryCache V) where
  total maxEntries _ := by
    have hzero : totalSize c (initial : InMemoryCache V) = 0 := by
      refine sum_eq_zero fun n hn => ?_
      obtain ⟨name, -, rfl⟩ := mem_map.1 hn
      rfl
    omega
  quota _ _ _ := zero_le _
  kept _ := wellKept_empty
  evicted _ h := nomatch h

/-- A bucket may be changed that does not grow, or by one entry where there is room. -/
lemma Sound.update (h : Sound c s) (hname : name ∈ c.names) {f : Bucket V → Bucket V}
    (hkept : (f (s.buckets name)).WellKept c name)
    (hsize : (f (s.buckets name)).size ≤ (s.buckets name).size ∨
      (f (s.buckets name)).size ≤ (s.buckets name).size + 1 ∧ HasRoom c name s) :
    Sound c (s.update name f) where
  total maxEntries hmax := by
    have htotal := totalSize_update hname f s
    have hle := h.total maxEntries hmax
    rcases hsize with hsize | ⟨hsize, -, hroom⟩
    · omega
    · have hlt := hroom maxEntries hmax
      omega
  quota pre quota hquota := by
    have hle := h.quota pre quota hquota
    rcases eq_or_ne pre name with rfl | hne
    · rw [buckets_update_self]
      rcases hsize with hsize | ⟨hsize, hroom, -⟩
      · omega
      · have hlt := hroom quota hquota
        omega
    · rw [buckets_update_of_ne hne]
      exact hle
  kept other := by
    rcases eq_or_ne other name with rfl | hne
    · rw [buckets_update_self]
      exact hkept
    · rw [buckets_update_of_ne hne]
      exact h.kept other
  evicted := h.evicted

lemma totalSize_evictFrom (hname : name ∈ c.names) (h : evictFrom name s = some s') :
    totalSize c s' + 1 = totalSize c s := by
  obtain ⟨victim, hvictim, rfl⟩ := evictFrom_eq_some h
  obtain ⟨-, -, hsize, -⟩ := evict_eq_some hvictim
  have htotal := totalSize_update hname (fun _ => victim.2) s
  rw [update] at htotal
  simp only [totalSize] at htotal ⊢
  omega

lemma within_evictFrom (h : evictFrom name s = some s') (other : JsString) :
    Within (s'.buckets other) (s.buckets other) ∧
      (s'.buckets other).size ≤ (s.buckets other).size := by
  rcases eq_or_ne other name with rfl | hne
  · obtain ⟨key, hvictim⟩ := evict_of_evictFrom h
    obtain ⟨-, hwithin, hsize, -⟩ := evict_eq_some hvictim
    exact ⟨hwithin, (le_succ _).trans hsize.le⟩
  · rw [buckets_evictFrom_of_ne h hne]
    exact ⟨⟨fun _ _ h => h, fun _ _ h => h⟩, le_refl _⟩

lemma Sound.evictFrom (h : Sound c s) (hname : name ∈ c.names)
    (hs' : evictFrom name s = some s') : Sound c s' where
  total maxEntries hmax := by
    have htotal := totalSize_evictFrom hname hs'
    have hle := h.total maxEntries hmax
    omega
  quota pre quota hquota :=
    (within_evictFrom hs' pre).2.trans (h.quota pre quota hquota)
  kept other := (h.kept other).of_within (within_evictFrom hs' other).1
  evicted := by
    obtain ⟨victim, hvictim, rfl⟩ := evictFrom_eq_some hs'
    obtain ⟨-, -, -, hvictimOf⟩ := evict_eq_some hvictim
    intro e he hgua
    rcases mem_append.1 he with he | he
    · exact h.evicted e he hgua
    · rw [mem_singleton] at he
      subst he
      by_contra hne
      exact (h.kept name).oneHalf _ hgua (hvictimOf (pos_of_ne_zero hne))

lemma evictIfNeeded_invariant {I : InMemoryCache V → Prop} (key : JsString)
    (hstep : ∀ s s' name, name ∈ c.names → evictFrom name s = some s' → I s → I s')
    (hs : I s) : I (evictIfNeeded c key s) := by
  rw [evictIfNeeded]
  split
  · exact hs
  · refine Loop.repeatWhile_invariant (fun s s' h hI => ?_) _
      (Loop.repeatWhile_invariant (fun s s' h hI => ?_) _ hs)
    · obtain ⟨name, hname, h⟩ := evictAtBound_eq_some h
      exact hstep s s' name hname h hI
    · exact hstep s s' _ (c.bucketFor_mem key) (evictAtQuota_eq_some h) hI

lemma size_lt_of_quota {n : ℕ} (hn : (s.buckets name).size ≤ n) {quota : ℕ}
    (hquota : c.quotas.get? name = some quota) :
    ((Loop.repeatWhile (evictAtQuota c name) n s).buckets name).size < quota := by
  have hless : ∀ s s' : InMemoryCache V, evictAtQuota c name s = some s' →
      (s'.buckets name).size < (s.buckets name).size := by
    intro s s' h
    obtain ⟨victim, hvictim⟩ := evict_of_evictFrom (evictAtQuota_eq_some h)
    exact lt_of_succ_le (evict_eq_some hvictim).2.2.1.le
  have hend := Loop.step_repeatWhile (fun s : InMemoryCache V => (s.buckets name).size) hless hn
  rw [evictAtQuota, hquota] at hend
  simp only at hend
  split at hend
  · have hempty := size_of_evict_eq_none (map_eq_none_iff.1 hend)
    have hone := c.one_le_quota name quota hquota
    omega
  · omega

lemma totalSize_lt_of_maxEntries {n : ℕ} (hn : totalSize c s ≤ n) {maxEntries : ℕ}
    (hmax : c.maxEntries = some maxEntries) :
    totalSize c (Loop.repeatWhile (evictAtBound c) n s) < maxEntries := by
  have hless : ∀ s s' : InMemoryCache V, evictAtBound c s = some s' →
      totalSize c s' < totalSize c s := by
    intro s s' h
    obtain ⟨name, hname, h⟩ := evictAtBound_eq_some h
    exact lt_of_succ_le (totalSize_evictFrom hname h).le
  have hend := Loop.step_repeatWhile (totalSize c) hless hn
  rw [evictAtBound, hmax] at hend
  simp only at hend
  split at hend
  · have hempty := totalSize_of_evictFromAnyBucket_eq_none (or_eq_none_iff.1 hend).2
    have hone := c.one_le_maxEntries maxEntries hmax
    omega
  · omega

lemma hasRoom_evictIfNeeded (key : JsString) (s : InMemoryCache V) :
    (s.buckets (c.bucketFor key)).Holds key ∧ evictIfNeeded c key s = s ∨
      HasRoom c (c.bucketFor key) (evictIfNeeded c key s) := by
  rw [evictIfNeeded]
  split
  · next h => exact .inl ⟨(has_iff _ _).1 h, rfl⟩
  · refine .inr ⟨fun quota hquota => ?_, fun maxEntries hmax => ?_⟩
    · -- The second loop leaves the bucket no larger than the first one did.
      refine Loop.repeatWhile_invariant (I := fun s : InMemoryCache V =>
          (s.buckets (c.bucketFor key)).size < quota) (fun s s' h hlt => ?_) _
        (size_lt_of_quota (le_refl _) hquota)
      obtain ⟨name, -, h⟩ := evictAtBound_eq_some h
      exact lt_of_le_of_lt (within_evictFrom h _).2 hlt
    · exact totalSize_lt_of_maxEntries (le_refl _) hmax

section

variable (h : Sound c s)
include h

lemma Sound.evictIfNeeded (key : JsString) : Sound c (evictIfNeeded c key s) :=
  evictIfNeeded_invariant key (fun _ _ _ hname hs' hsound => hsound.evictFrom hname hs') h

variable {entry : Entry V} {now : JsNumber}

lemma Sound.store {carries : Bool} (hfinite : carries = true → entry.expiresAt.isFinite = true) :
    Sound c (store c key entry carries s) := by
  have hsound := h.evictIfNeeded key
  refine hsound.update (c.bucketFor_mem key) ((hsound.kept _).write rfl hfinite) ?_
  have hsize := Bucket.size_write ((InMemoryCache.evictIfNeeded c key s).buckets (c.bucketFor key))
    key entry carries
  rcases hasRoom_evictIfNeeded key s with ⟨hheld, heq⟩ | hroom
  · rw [heq] at hsize ⊢
    have hcount := count_pos hheld
    exact .inl (by omega)
  · exact .inr ⟨by omega, hroom⟩

lemma Sound.remove (key : JsString) :
    Sound c (s.update (c.bucketFor key) fun b => b.remove key) := by
  refine h.update (c.bucketFor_mem key) ((h.kept _).of_within (remove_within _ key)) (.inl ?_)
  have hsize := size_remove (s.buckets (c.bucketFor key)) key
  omega

lemma Sound.bump (hlookup : (s.buckets (c.bucketFor key)).lookup key = some entry) :
    Sound c (s.update (c.bucketFor key) fun b => b.bump c key entry now) :=
  h.update (c.bucketFor_mem key) ((h.kept _).bump rfl ((h.kept _).isFinite_of_lookup hlookup))
    (.inl (size_bump_le (holds_of_lookup hlookup) entry now))

/-! ## The operations -/

variable (value : CacheValue V) (ttlMs : Option JsNumber)

lemma Sound.put (now : JsNumber) : Sound c (put c key value ttlMs now s) := by
  refine h.store fun hcarries => ?_
  rw [inheritsGuarantee, and_eq_true] at hcarries
  exact hcarries.1

lemma Sound.claim (now : JsNumber) : Sound c (claim c key value ttlMs now s) :=
  h.store fun hcarries => hcarries

/-- A counter that does not expire was not guaranteed, and is not adopted either. -/
lemma Sound.advance {value : CacheValue V}
    (hlookup : (s.buckets (c.bucketFor key)).lookup key = some entry) :
    Sound c (s.update (c.bucketFor key) (advance c key { entry with value := value } now)) := by
  have hheld := holds_of_lookup hlookup
  have hkept := h.kept (c.bucketFor key)
  refine h.update (c.bucketFor_mem key) ?_ (.inl ?_)
  · unfold InMemoryCache.advance
    split
    · next hfinite => exact (hkept.adoptAsGuaranteed hfinite).bump rfl fun _ => hfinite
    · have hexpires := hkept.isFinite_of_lookup hlookup
      exact hkept.bump rfl hexpires
  · unfold InMemoryCache.advance
    split
    · refine (size_bump_le ?_ _ _).trans (size_adoptAsGuaranteed_le _ _ _)
      rw [adoptAsGuaranteed]
      split
      · exact .inl ((mem_keys_set _ _ _ _).2 (.inl rfl))
      · exact hheld
    · exact size_bump_le hheld _ _

lemma Sound.get (now bumpAt : JsNumber) : Sound c (s.get c key now bumpAt).1 := by
  rw [InMemoryCache.get]
  split
  · exact h
  · next entry hlookup =>
    split
    · exact h.remove key
    · exact h.bump hlookup

lemma Sound.incr (now bumpAt : JsNumber) :
    Sound c (s.incr c key ttlMs now bumpAt).1 := by
  rw [InMemoryCache.incr]
  simp only
  split
  · exact h
  · split
    · exact h.claim _ ttlMs now
    · next entry hlookup =>
      split
      · exact h.claim _ ttlMs now
      · split
        · exact h
        · exact h.advance hlookup

lemma Sound.setIfAbsent (now : JsNumber) : Sound c (s.setIfAbsent c key value ttlMs now).1 := by
  rw [InMemoryCache.setIfAbsent]
  split
  · exact h
  · split
    · exact h.claim value ttlMs now
    · split
      · exact h
      · exact h.claim value ttlMs now

end

lemma Sound.mgetKey {s : InMemoryCache V × OrderedMap JsString (CacheValue V)}
    (h : Sound c s.1) (now : JsNumber) (key : JsString × JsNumber) :
    Sound c (mgetKey c now s key).1 := by
  rw [InMemoryCache.mgetKey]
  split
  · exact h
  · next entry hlookup =>
    split
    · exact h.remove key.1
    · exact h.bump hlookup

lemma Sound.sweepExpired (h : Sound c s) (now : JsNumber) : Sound c (s.sweepExpired now) where
  total maxEntries hmax :=
    (sum_le_sum fun name _ => size_sweepExpired_le now (s.buckets name)).trans
      (h.total maxEntries hmax)
  quota pre quota hquota :=
    (size_sweepExpired_le now (s.buckets pre)).trans (h.quota pre quota hquota)
  kept name := (h.kept name).of_within (sweepExpired_within now _)
  evicted := h.evicted

lemma Sound.step (h : Sound c s) (op : Operation V) : Sound c (s.step c op) := by
  cases op with
  | get key now bumpAt => exact h.get now bumpAt
  | set key value ttlMs now =>
    rw [InMemoryCache.step, perform, InMemoryCache.set]
    split
    · exact h
    · exact h.put value ttlMs now
  | incr key ttlMs now bumpAt => exact h.incr ttlMs now bumpAt
  | setIfAbsent key value ttlMs now => exact h.setIfAbsent value ttlMs now
  | delete keys => exact foldlRecOn keys _ h fun s hs key _ => hs.remove key
  | mget keys now =>
    exact foldlRecOn (motive := fun s : InMemoryCache V × OrderedMap JsString
      (CacheValue V) => Sound c s.1) keys _ h fun s hs key _ => hs.mgetKey now key
  | mset entries ttlMs now =>
    rw [InMemoryCache.step, perform, InMemoryCache.mset]
    split
    · exact h
    · exact foldlRecOn entries.entries _ h fun s hs p _ => hs.put p.2 ttlMs now
  | sweep now => exact h.sweepExpired now

lemma sound_run (ops : List (Operation V)) : Sound c (run (step c) initial ops) :=
  invariant (fun _ op _ h => h.step op) along_true sound_initial

end InMemoryCache

end ActorTs.Cache
