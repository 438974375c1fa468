import ActorTs.Cache.Bounds

/-!
# Reserved prefixes

Where the quotas leave a part of the bound to the other keys, the bucket of a reserved prefix
is changed by the operations on its own keys alone. A cache that is at its bound has an entry
in the remainder then, and that is where the room for any key is made once its bucket is
below its quota.

What an operation is to the keys of one bucket is its restriction. Runs with the same restrictions
give the same answers about the keys of the bucket.
-/

open List Option OrderedMap Function

namespace ActorTs.Cache

open Machine

variable {V : Type}

/-- The quotas leave a part of a finite bound to the keys without a reserved prefix. -/
def CacheConfig.LeavesRemainder (c : CacheConfig) : Prop :=
  ∃ maxEntries, c.maxEntries = some maxEntries ∧ c.quotas.total (fun quota => quota) < maxEntries

/-- The key is one of the bucket. -/
def CacheConfig.belongs (c : CacheConfig) (pre key : JsString) : Bool :=
  decide (c.bucketFor key = pre)

namespace InMemoryCache

/-- What an operation does to the keys of one bucket. -/
def Operation.restrict (c : CacheConfig) (pre : JsString) : Operation V → Option (Operation V)
  | .get key now bumpAt => if c.belongs pre key then some (.get key now bumpAt) else none
  | .set key value ttlMs now => if c.belongs pre key then some (.set key value ttlMs now) else none
  | .incr key ttlMs now bumpAt =>
    if c.belongs pre key then some (.incr key ttlMs now bumpAt) else none
  | .setIfAbsent key value ttlMs now =>
    if c.belongs pre key then some (.setIfAbsent key value ttlMs now) else none
  | .delete deleted =>
    let kept := deleted.filter fun key => c.belongs pre key
    if kept = [] then none else some (.delete kept)
  | .mget asked now =>
    let kept := asked.filter fun key => c.belongs pre key.1
    if kept = [] then none else some (.mget kept now)
  | .mset entries ttlMs now =>
    let kept := entries.filter fun p => c.belongs pre p.1
    if kept.entries = [] then none else some (.mset kept ttlMs now)
  | .sweep now => some (.sweep now)

/-- What an answer says about the keys of one bucket. -/
def Answer.restrict (c : CacheConfig) (pre : JsString) : Answer V → Answer V
  | .values found => .values (found.filter fun p => c.belongs pre p.1)
  | answer => answer

/-- The answer of an operation on keys of one bucket. -/
def answers (c : CacheConfig) (pre : JsString) (s : InMemoryCache V) (op : Operation V) :
    List (Answer V) :=
  match op.restrict c pre with
  | none => []
  | some (.sweep _) => []
  | some _ => [(s.perform c op).2.restrict c pre]

/-- Two caches have the same bucket. -/
structure Agree (c : CacheConfig) (pre : JsString) (s t : InMemoryCache V) : Prop where
  left : Sound c s
  right : Sound c t
  bucket : s.buckets pre = t.buckets pre

variable {c : CacheConfig} {pre key : JsString} {s s' t : InMemoryCache V}

lemma size_remainder_pos (hs : Sound c s) {maxEntries : ℕ}
    (hlt : c.quotas.total (fun quota => quota) < maxEntries)
    (hfull : maxEntries ≤ totalSize c s) : 0 < (s.buckets []).size := by
  have hreserved : (c.quotas.keys.map fun name => (s.buckets name).size).sum ≤
      c.quotas.total fun quota => quota := by
    rw [OrderedMap.keys, List.map_map, OrderedMap.total]
    refine sum_le_sum fun p hp => ?_
    exact hs.quota p.1 p.2 ((get?_eq_some_iff _ _ _).2 hp)
  rw [totalSize, CacheConfig.names, map_cons, sum_cons] at hfull
  omega

lemma evictAtBound_bucket (hc : c.LeavesRemainder) (hpre : pre ≠ []) (hs : Sound c s)
    (h : evictAtBound c s = some s') : s'.buckets pre = s.buckets pre := by
  obtain ⟨maxEntries, hmax, hlt⟩ := hc
  rw [evictAtBound, hmax] at h
  simp only at h
  split at h
  · next hfull =>
    rcases or_eq_some_iff.1 h with h | ⟨hnone, -⟩
    · exact buckets_evictFrom_of_ne h hpre
    · have hempty := Bucket.size_of_evict_eq_none (map_eq_none_iff.1 hnone)
      have hpos := size_remainder_pos hs hlt hfull
      omega
  · cases h

lemma repeatWhile_evictAtBound_bucket (hc : c.LeavesRemainder) (hpre : pre ≠ [])
    (hs : Sound c s) (n : ℕ) :
    (Loop.repeatWhile (evictAtBound c) n s).buckets pre = s.buckets pre := by
  refine (Loop.repeatWhile_invariant (I := fun s' : InMemoryCache V =>
    Sound c s' ∧ s'.buckets pre = s.buckets pre) (fun s₁ s₂ h hI => ?_) n ⟨hs, rfl⟩).2
  obtain ⟨name, hname, hevict⟩ := evictAtBound_eq_some h
  exact ⟨hI.1.evictFrom hname hevict, (evictAtBound_bucket hc hpre hI.1 h).trans hI.2⟩

lemma Sound.repeatWhile_evictAtQuota (hs : Sound c s) (key : JsString) (n : ℕ) :
    Sound c (Loop.repeatWhile (evictAtQuota c (c.bucketFor key)) n s) :=
  Loop.repeatWhile_invariant (fun _ _ h hsound =>
    hsound.evictFrom (c.bucketFor_mem key) (evictAtQuota_eq_some h)) n hs

lemma evictIfNeeded_bucket_of_ne (hc : c.LeavesRemainder) (hpre : pre ≠ []) (hs : Sound c s)
    (hkey : c.bucketFor key ≠ pre) : (evictIfNeeded c key s).buckets pre = s.buckets pre := by
  rw [evictIfNeeded]
  split
  · rfl
  · rw [repeatWhile_evictAtBound_bucket hc hpre (hs.repeatWhile_evictAtQuota key _)]
    refine Loop.repeatWhile_invariant (I := fun s' : InMemoryCache V =>
      s'.buckets pre = s.buckets pre) (fun s₁ s₂ h hI => ?_) _ rfl
    exact (buckets_evictFrom_of_ne (evictAtQuota_eq_some h) (Ne.symm hkey)).trans hI

lemma evictAtQuota_rel (h : s.buckets pre = t.buckets pre) :
    Option.Rel (fun s t => s.buckets pre = t.buckets pre)
      (evictAtQuota c pre s) (evictAtQuota c pre t) := by
  rw [evictAtQuota, evictAtQuota, h]
  cases c.quotas.get? pre with
  | none => exact .none
  | some quota =>
    simp only
    split
    · rw [evictFrom, evictFrom, h]
      cases (t.buckets pre).evict with
      | none => exact .none
      | some victim =>
        refine .some ?_
        exact (update_self pre victim.2 s.buckets).trans (update_self pre victim.2 t.buckets).symm
    · exact .none

lemma evictIfNeeded_bucket (hc : c.LeavesRemainder) (hpre : pre ≠ []) (h : Agree c pre s t)
    (hkey : c.bucketFor key = pre) :
    (evictIfNeeded c key s).buckets pre = (evictIfNeeded c key t).buckets pre := by
  rw [evictIfNeeded, evictIfNeeded]
  simp only [hkey, h.bucket]
  split
  · exact h.bucket
  · have hleft := h.left.repeatWhile_evictAtQuota key (t.buckets pre).size
    have hright := h.right.repeatWhile_evictAtQuota key (t.buckets pre).size
    rw [hkey] at hleft hright
    rw [repeatWhile_evictAtBound_bucket hc hpre hleft,
      repeatWhile_evictAtBound_bucket hc hpre hright]
    exact Loop.repeatWhile_rel (fun _ _ => evictAtQuota_rel) _ h.bucket

lemma store_bucket_of_ne (hc : c.LeavesRemainder) (hpre : pre ≠ []) (hs : Sound c s)
    (hkey : c.bucketFor key ≠ pre) (entry : Entry V) (carries : Bool) :
    (store c key entry carries s).buckets pre = s.buckets pre := by
  rw [store, buckets_update_of_ne (Ne.symm hkey)]
  exact evictIfNeeded_bucket_of_ne hc hpre hs hkey

lemma store_bucket (hc : c.LeavesRemainder) (hpre : pre ≠ []) (h : Agree c pre s t)
    (hkey : c.bucketFor key = pre) (entry : Entry V) (carries : Bool) :
    (store c key entry carries s).buckets pre = (store c key entry carries t).buckets pre := by
  have hroom := evictIfNeeded_bucket hc hpre h hkey
  subst hkey
  rw [store, store, buckets_update_self, buckets_update_self, hroom]

lemma put_bucket (hc : c.LeavesRemainder) (hpre : pre ≠ []) (h : Agree c pre s t)
    (hkey : c.bucketFor key = pre) (value : CacheValue V) (ttlMs : Option JsNumber)
    (now : JsNumber) :
    (put c key value ttlMs now s).buckets pre = (put c key value ttlMs now t).buckets pre := by
  rw [put, put, hkey, h.bucket]
  exact store_bucket hc hpre h hkey _ _

lemma update_bucket (h : Agree c pre s t) (hkey : c.bucketFor key = pre)
    (f : Bucket V → Bucket V) :
    (s.update (c.bucketFor key) f).buckets pre = (t.update (c.bucketFor key) f).buckets pre := by
  rw [hkey, buckets_update_self, buckets_update_self, h.bucket]

/-- An operation on a key of another bucket leaves the bucket alone. -/
def Leaves (pre : JsString) (s : InMemoryCache V)
    (f : InMemoryCache V → InMemoryCache V × Answer V) : Prop :=
  (f s).1.buckets pre = s.buckets pre

/-- An operation does the same to both buckets, and gives the same answer. -/
def Alike (pre : JsString) (s t : InMemoryCache V)
    (f : InMemoryCache V → InMemoryCache V × Answer V) : Prop :=
  (f s).1.buckets pre = (f t).1.buckets pre ∧ (f s).2 = (f t).2

lemma get_leaves (hkey : c.bucketFor key ≠ pre) (now bumpAt : JsNumber) (s : InMemoryCache V) :
    Leaves pre s (get c key now bumpAt) := by
  rw [Leaves, get]
  split
  · rfl
  · next entry _ =>
    split
    · exact buckets_update_of_ne (Ne.symm hkey) (fun b => b.remove key) s
    · exact buckets_update_of_ne (Ne.symm hkey) (fun b => b.bump c key entry bumpAt) s

lemma get_alike (h : Agree c pre s t) (hkey : c.bucketFor key = pre) (now bumpAt : JsNumber) :
    Alike pre s t (get c key now bumpAt) := by
  have hupdate := update_bucket h hkey
  rw [hkey] at hupdate
  rw [Alike, get, get]
  simp only [hkey, h.bucket]
  split
  · exact ⟨h.bucket, rfl⟩
  · next entry _ =>
    split
    · exact ⟨hupdate fun b => b.remove key, rfl⟩
    · exact ⟨hupdate fun b => b.bump c key entry bumpAt, rfl⟩

section

variable (hc : c.LeavesRemainder)
include hc

section

variable (hpre : pre ≠ [])
include hpre

lemma set_leaves (hs : Sound c s) (hkey : c.bucketFor key ≠ pre) (value : CacheValue V)
    (ttlMs : Option JsNumber) (now : JsNumber) : Leaves pre s (set c key value ttlMs now) := by
  rw [Leaves, set]
  split
  · rfl
  · exact store_bucket_of_ne hc hpre hs hkey _ _

lemma set_alike (h : Agree c pre s t) (hkey : c.bucketFor key = pre) (value : CacheValue V)
    (ttlMs : Option JsNumber) (now : JsNumber) : Alike pre s t (set c key value ttlMs now) := by
  rw [Alike, set, set]
  split
  · exact ⟨h.bucket, rfl⟩
  · exact ⟨put_bucket hc hpre h hkey value ttlMs now, rfl⟩

lemma incr_leaves (hs : Sound c s) (hkey : c.bucketFor key ≠ pre) (ttlMs : Option JsNumber)
    (now bumpAt : JsNumber) : Leaves pre s (incr c key ttlMs now bumpAt) := by
  have hfresh := store_bucket_of_ne hc hpre hs hkey
  rw [Leaves, incr]
  simp only
  split
  · rfl
  · split
    · exact hfresh _ _
    · split
      · exact hfresh _ _
      · split
        · rfl
        · exact buckets_update_of_ne (Ne.symm hkey) _ s

lemma incr_alike (h : Agree c pre s t) (hkey : c.bucketFor key = pre) (ttlMs : Option JsNumber)
    (now bumpAt : JsNumber) : Alike pre s t (incr c key ttlMs now bumpAt) := by
  have hfresh := store_bucket hc hpre h hkey
  have hupdate := update_bucket h hkey
  rw [hkey] at hupdate
  rw [Alike, incr, incr]
  simp only [hkey, h.bucket]
  split
  · exact ⟨h.bucket, rfl⟩
  · split
    · exact ⟨hfresh _ _, rfl⟩
    · split
      · exact ⟨hfresh _ _, rfl⟩
      · split
        · exact ⟨h.bucket, rfl⟩
        · exact ⟨hupdate _, rfl⟩

lemma setIfAbsent_leaves (hs : Sound c s)
    (hkey : c.bucketFor key ≠ pre) (value : CacheValue V) (ttlMs : Option JsNumber)
    (now : JsNumber) : Leaves pre s (setIfAbsent c key value ttlMs now) := by
  have hfresh := store_bucket_of_ne hc hpre hs hkey
  rw [Leaves, setIfAbsent]
  split
  · rfl
  · split
    · exact hfresh _ _
    · split
      · rfl
      · exact hfresh _ _

lemma setIfAbsent_alike (h : Agree c pre s t)
    (hkey : c.bucketFor key = pre) (value : CacheValue V) (ttlMs : Option JsNumber)
    (now : JsNumber) : Alike pre s t (setIfAbsent c key value ttlMs now) := by
  have hfresh := store_bucket hc hpre h hkey
  rw [Alike, setIfAbsent, setIfAbsent]
  simp only [hkey, h.bucket]
  split
  · exact ⟨h.bucket, rfl⟩
  · split
    · exact ⟨hfresh _ _, rfl⟩
    · split
      · exact ⟨h.bucket, rfl⟩
      · exact ⟨hfresh _ _, rfl⟩

end

end

lemma belongs_iff : c.belongs pre key = true ↔ c.bucketFor key = pre := decide_eq_true_iff

lemma belongs_eq_false_iff : c.belongs pre key = false ↔ c.bucketFor key ≠ pre :=
  decide_eq_false_iff_not

/-- Two caches agree, and what two rounds of `mget` have found so far does too. -/
def AgreeFound (c : CacheConfig) (pre : JsString)
    (s t : InMemoryCache V × OrderedMap JsString (CacheValue V)) : Prop :=
  Agree c pre s.1 t.1 ∧
    s.2.filter (fun p => c.belongs pre p.1) = t.2.filter fun p => c.belongs pre p.1

lemma delete_agree (h : Agree c pre s t) (keys : List JsString) :
    Agree c pre (s.delete c keys).1 (t.delete c (keys.filter fun key => c.belongs pre key)).1 := by
  refine Loop.foldl_filter_rel (fun s t key hkey h => ?_) (fun s t key hkey h => ?_) keys h
  · rw [belongs_iff] at hkey
    exact ⟨h.left.remove key, h.right.remove key, update_bucket h hkey _⟩
  · rw [belongs_eq_false_iff] at hkey
    exact ⟨h.left.remove key, h.right, (buckets_update_of_ne (Ne.symm hkey) _ _).trans h.bucket⟩

lemma mset_agree (hc : c.LeavesRemainder) (hpre : pre ≠ []) (h : Agree c pre s t)
    (entries : OrderedMap JsString (CacheValue V)) (ttlMs : Option JsNumber) (now : JsNumber) :
    Agree c pre (entries.entries.foldl (fun s p => put c p.1 p.2 ttlMs now s) s)
      ((entries.filter fun p => c.belongs pre p.1).entries.foldl
        (fun s p => put c p.1 p.2 ttlMs now s) t) := by
  refine Loop.foldl_filter_rel (fun s t p hkey h => ?_) (fun s t p hkey h => ?_) entries.entries h
  · rw [belongs_iff] at hkey
    exact ⟨h.left.put p.2 ttlMs now, h.right.put p.2 ttlMs now,
      put_bucket hc hpre h hkey p.2 ttlMs now⟩
  · rw [belongs_eq_false_iff] at hkey
    exact ⟨h.left.put p.2 ttlMs now, h.right,
      (store_bucket_of_ne hc hpre h.left hkey _ _).trans h.bucket⟩

lemma mgetKey_agree {s t : InMemoryCache V × OrderedMap JsString (CacheValue V)}
    (h : AgreeFound c pre s t) (now : JsNumber) {key : JsString × JsNumber}
    (hkey : c.bucketFor key.1 = pre) :
    AgreeFound c pre (mgetKey c now s key) (mgetKey c now t key) := by
  have hupdate := update_bucket h.1 hkey
  rw [hkey] at hupdate
  have hboth : (mgetKey c now s key).1.buckets pre = (mgetKey c now t key).1.buckets pre ∧
      (mgetKey c now s key).2.filter (fun p => c.belongs pre p.1) =
        (mgetKey c now t key).2.filter fun p => c.belongs pre p.1 := by
    unfold mgetKey
    simp only [hkey, h.1.bucket]
    split
    · exact ⟨h.1.bucket, h.2⟩
    · next entry _ =>
      split
      · exact ⟨hupdate fun b => b.remove key.1, h.2⟩
      · refine ⟨hupdate fun b => b.bump c key.1 entry key.2, ?_⟩
        rw [filter_set, filter_set, h.2]
  exact ⟨⟨h.1.left.mgetKey now key, h.1.right.mgetKey now key, hboth.1⟩, hboth.2⟩

lemma mgetKey_agree_of_ne {s t : InMemoryCache V × OrderedMap JsString (CacheValue V)}
    (h : AgreeFound c pre s t) (now : JsNumber) {key : JsString × JsNumber}
    (hkey : c.bucketFor key.1 ≠ pre) : AgreeFound c pre (mgetKey c now s key) t := by
  have hupdate := fun f => buckets_update_of_ne (Ne.symm hkey) f s.1
  have hboth : (mgetKey c now s key).1.buckets pre = s.1.buckets pre ∧
      (mgetKey c now s key).2.filter (fun p => c.belongs pre p.1) =
        s.2.filter fun p => c.belongs pre p.1 := by
    unfold mgetKey
    simp only
    split
    · exact ⟨rfl, rfl⟩
    · next entry _ =>
      split
      · exact ⟨hupdate fun b => b.remove key.1, rfl⟩
      · refine ⟨hupdate fun b => b.bump c key.1 entry key.2, ?_⟩
        rw [filter_set, if_neg (by simp [belongs_iff, hkey])]
  exact ⟨⟨h.1.left.mgetKey now key, h.1.right, hboth.1.trans h.1.bucket⟩, hboth.2.trans h.2⟩

lemma mget_agree (h : Agree c pre s t) (keys : List (JsString × JsNumber)) (now : JsNumber) :
    AgreeFound c pre (keys.foldl (mgetKey c now) (s, .empty))
      ((keys.filter fun key => c.belongs pre key.1).foldl (mgetKey c now) (t, .empty)) := by
  have hstart : AgreeFound c pre (s, .empty) (t, .empty) := ⟨h, rfl⟩
  refine Loop.foldl_filter_rel (R := AgreeFound c pre) (fun s t key hkey h => ?_)
    (fun s t key hkey h => ?_) keys hstart
  · exact mgetKey_agree h now (belongs_iff.1 hkey)
  · exact mgetKey_agree_of_ne h now (belongs_eq_false_iff.1 hkey)

lemma Leaves.agree {f : InMemoryCache V → InMemoryCache V × Answer V} (hleaves : Leaves pre s f)
    (h : Agree c pre s t) (hsound : Sound c (f s).1) : Agree c pre (f s).1 t :=
  ⟨hsound, h.right, hleaves.trans h.bucket⟩

lemma Alike.agree {f : InMemoryCache V → InMemoryCache V × Answer V} (halike : Alike pre s t f)
    (hleft : Sound c (f s).1) (hright : Sound c (f t).1) :
    Agree c pre (f s).1 (f t).1 ∧ (f s).2.restrict c pre = (f t).2.restrict c pre :=
  ⟨⟨hleft, hright, halike.1⟩, by rw [halike.2]⟩

variable {op : Operation V} {op' : Operation V}

lemma ne_of_restrict_eq_none (h : (if c.belongs pre key then some op else none) = none) :
    c.bucketFor key ≠ pre :=
  fun hkey => nomatch ite_eq_right_iff.1 h (belongs_iff.2 hkey)

lemma step_agree_of_none (hc : c.LeavesRemainder) (hpre : pre ≠ []) (h : Agree c pre s t)
    (hop : op.restrict c pre = none) : Agree c pre (s.step c op) t := by
  have hsound := h.left.step op
  cases op with
  | get key now bumpAt =>
    exact (get_leaves (ne_of_restrict_eq_none hop) now bumpAt s).agree h hsound
  | set key value ttlMs now =>
    exact (set_leaves hc hpre h.left (ne_of_restrict_eq_none hop) value ttlMs now).agree h hsound
  | incr key ttlMs now bumpAt =>
    exact (incr_leaves hc hpre h.left (ne_of_restrict_eq_none hop) ttlMs now bumpAt).agree h hsound
  | setIfAbsent key value ttlMs now =>
    exact (setIfAbsent_leaves hc hpre h.left (ne_of_restrict_eq_none hop) value ttlMs now).agree h
      hsound
  | delete keys =>
    have hnone := not_not.1 fun hsome => nomatch ite_eq_left_iff.1 hop hsome
    have hagree := delete_agree h keys
    rw [hnone] at hagree
    exact hagree
  | mget keys now =>
    have hnone := not_not.1 fun hsome => nomatch ite_eq_left_iff.1 hop hsome
    have hagree := (mget_agree h keys now).1
    rw [hnone] at hagree
    exact hagree
  | mset entries ttlMs now =>
    have hnone := not_not.1 fun hsome => nomatch ite_eq_left_iff.1 hop hsome
    have hagree := mset_agree hc hpre h entries ttlMs now
    rw [hnone] at hagree
    rw [step, perform, mset]
    split
    · exact h
    · exact hagree
  | sweep now => cases hop

/-- An operation and its restriction do the same to the bucket, and say the same about it. -/
lemma step_agree_of_some (hc : c.LeavesRemainder) (hpre : pre ≠ []) (h : Agree c pre s t)
    (hop : op.restrict c pre = some op') :
    Agree c pre (s.step c op) (t.step c op') ∧
      (s.perform c op).2.restrict c pre = (t.perform c op').2.restrict c pre := by
  have hleft := h.left.step op
  have hright := h.right.step op'
  cases op with
  | get key now bumpAt =>
    obtain ⟨hkey, ⟨⟩⟩ := ite_none_right_eq_some.1 hop
    exact (get_alike h (belongs_iff.1 hkey) now bumpAt).agree hleft hright
  | set key value ttlMs now =>
    obtain ⟨hkey, ⟨⟩⟩ := ite_none_right_eq_some.1 hop
    exact (set_alike hc hpre h (belongs_iff.1 hkey) value ttlMs now).agree hleft hright
  | incr key ttlMs now bumpAt =>
    obtain ⟨hkey, ⟨⟩⟩ := ite_none_right_eq_some.1 hop
    exact (incr_alike hc hpre h (belongs_iff.1 hkey) ttlMs now bumpAt).agree hleft hright
  | setIfAbsent key value ttlMs now =>
    obtain ⟨hkey, ⟨⟩⟩ := ite_none_right_eq_some.1 hop
    exact (setIfAbsent_alike hc hpre h (belongs_iff.1 hkey) value ttlMs now).agree hleft hright
  | delete keys =>
    obtain ⟨-, ⟨⟩⟩ := ite_none_left_eq_some.1 hop
    exact ⟨delete_agree h keys, rfl⟩
  | mget keys now =>
    obtain ⟨-, ⟨⟩⟩ := ite_none_left_eq_some.1 hop
    obtain ⟨hagree, hfound⟩ := mget_agree h keys now
    exact ⟨hagree, congrArg Answer.values hfound⟩
  | mset entries ttlMs now =>
    obtain ⟨-, ⟨⟩⟩ := ite_none_left_eq_some.1 hop
    rw [step, step, perform, perform, mset, mset]
    split
    · exact ⟨h, rfl⟩
    · exact ⟨mset_agree hc hpre h entries ttlMs now, rfl⟩
  | sweep now =>
    cases hop
    exact ⟨⟨hleft, hright, congrArg (Bucket.sweepExpired now) h.bucket⟩, rfl⟩

lemma restrict_restrict (hop : op.restrict c pre = some op') : op'.restrict c pre = some op' := by
  have hpair : ∀ {α : Type} (l : List (JsString × α)),
      (l.filter fun p => c.belongs pre p.1).filter (fun p => c.belongs pre p.1) =
        l.filter fun p => c.belongs pre p.1 := by
    intro α l
    rw [List.filter_filter]
    simp only [Bool.and_self]
  cases op with
  | get key now bumpAt =>
    obtain ⟨hkey, ⟨⟩⟩ := Option.ite_none_right_eq_some.1 hop
    exact hop
  | set key value ttlMs now =>
    obtain ⟨hkey, ⟨⟩⟩ := Option.ite_none_right_eq_some.1 hop
    exact hop
  | incr key ttlMs now bumpAt =>
    obtain ⟨hkey, ⟨⟩⟩ := Option.ite_none_right_eq_some.1 hop
    exact hop
  | setIfAbsent key value ttlMs now =>
    obtain ⟨hkey, ⟨⟩⟩ := Option.ite_none_right_eq_some.1 hop
    exact hop
  | delete keys =>
    obtain ⟨hne, ⟨⟩⟩ := Option.ite_none_left_eq_some.1 hop
    simp only [Operation.restrict, List.filter_filter, Bool.and_self]
    rw [if_neg hne]
  | mget keys now =>
    obtain ⟨hne, ⟨⟩⟩ := Option.ite_none_left_eq_some.1 hop
    simp only [Operation.restrict, hpair]
    rw [if_neg hne]
  | mset entries ttlMs now =>
    obtain ⟨hne, ⟨⟩⟩ := Option.ite_none_left_eq_some.1 hop
    have hfilter : (entries.filter fun p => c.belongs pre p.1).filter
        (fun p => c.belongs pre p.1) = entries.filter fun p => c.belongs pre p.1 :=
      OrderedMap.ext (hpair entries.entries)
    simp only [Operation.restrict, hfilter]
    rw [if_neg hne]
  | sweep now =>
    cases hop
    rfl

/-- A run answers about the keys of the bucket as the run of the restrictions does. -/
lemma log_restrict (hc : c.LeavesRemainder) (hpre : pre ≠ []) (ops : List (Operation V)) :
    log (step c) (answers c pre) initial ops = log (step c) (answers c pre) initial
        (ops.filterMap fun op => op.restrict c pre) := by
  have hanswers : log (step c) (fun _ op => (op.restrict c pre).toList) initial ops =
      ops.filterMap fun op => op.restrict c pre :=
    log_toList _ _ _ _
  rw [← hanswers]
  refine (simulate (R := Agree c pre) (P := fun _ _ => True) ?_ along_true
    ⟨sound_initial, sound_initial, rfl⟩).2
  intro s t op _ h
  cases hop : op.restrict c pre with
  | none =>
    refine ⟨step_agree_of_none hc hpre h hop, ?_⟩
    rw [answers, hop]
    rfl
  | some op' =>
    obtain ⟨hagree, hanswer⟩ := step_agree_of_some hc hpre h hop
    refine ⟨hagree, ?_⟩
    rw [toList_some, log_cons, log_nil, append_nil, answers, answers,
      hop, restrict_restrict hop, hanswer]

end InMemoryCache

open InMemoryCache

/-- With any options that pass, the cache and its buckets stay within their bounds and protect
what is guaranteed. Where the quotas leave a remainder, what is answered about the keys of a
reserved prefix depends on the operations on these keys alone. -/
theorem reservation_isolates (V : Type) (options : InMemoryCacheOptions)
    (h : InMemoryCacheOptionsValidator.rules options = .ok ()) :
    (∀ ops : List (Operation V),
      Sound (options.config h) (run (step (options.config h)) initial ops)) ∧
    ∀ pre ∈ (options.config h).quotas.keys, (options.config h).LeavesRemainder →
      ∀ ops ops' : List (Operation V),
        ops.filterMap (fun op => op.restrict (options.config h) pre) =
          ops'.filterMap (fun op => op.restrict (options.config h) pre) →
        log (step (options.config h)) (answers (options.config h) pre) initial ops =
          log (step (options.config h)) (answers (options.config h) pre) initial ops' := by
  refine ⟨sound_run, fun pre hpre hc ops ops' hsame => ?_⟩
  have hne : pre ≠ [] := fun hnil => (options.config h).nil_notMem_quotas (hnil ▸ hpre)
  rw [log_restrict hc hne ops, log_restrict hc hne ops', hsame]

/-- A cache of three entries, one of which is reserved. -/
def reservedOptions : InMemoryCacheOptions where
  maxEntries := some (.ofInt 3)
  cleanupMs := none
  timeToLiveMs := none
  timeToIdleMs := none
  prefixQuotas := some ⟨[("a:", .ofInt 1)], by decide⟩

lemma rules_reservedOptions : InMemoryCacheOptionsValidator.rules reservedOptions = .ok () := by
  decide +kernel

/-- A claim is refused the second time, whether other keys have flooded the cache or not. -/
theorem reservation_isolates_claim :
    let c := reservedOptions.config rules_reservedOptions
    let again : Operation Unit :=
      .setIfAbsent "a:1" (.number (.ofInt 1)) (some (.ofInt 60000)) (.ofInt 0)
    let flood (key : JsString) : Operation Unit :=
      .setIfAbsent key (.number (.ofInt 1)) (some (.ofInt 60000)) (.ofInt 0)
    log (step c) (answers c "a:") initial [again, flood "b", flood "c", flood "d", again] =
      log (step c) (answers c "a:") initial [again, again] := by
  refine (reservation_isolates Unit reservedOptions rules_reservedOptions).2 "a:" ?_ ?_ _ _ ?_
  · decide +kernel
  · exact ⟨3, by decide +kernel, by decide +kernel⟩
  · decide +kernel

end ActorTs.Cache
