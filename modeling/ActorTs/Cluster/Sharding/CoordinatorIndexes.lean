import ActorTs.Cluster.Sharding.ShardCoordinator

/-!
# The two indexes of a coordinator

A coordinator keeps its allocation twice: each region has the set of its shards, and each
shard has the key of its home. `IndexesAgree` says that the two are one allocation and that
a shard that is handed off is still homed where it is handed off from.

Every handler keeps it except the completion of a snapshot load, which writes the one index from the
snapshot's regions and the other from its homes. `SnapshotFits` says when the two writes come to the
same.
-/

open List Option OrderedSet

namespace ActorTs.Cluster.Sharding.Coordinator

open OrderedMap

variable {config : CoordinatorConfig} {view : View} {s t u : Coordinator}
variable {shardId x : ShardId} {key : JsString}

/-! ### Reading the indexes -/

def shardsOf (s : Coordinator) (key : JsString) : Option (OrderedSet ShardId) :=
  (s.regions.get? key).map RegionInfo.shards

/-- A region is registered, and the shard is in its set. -/
def Holds (s : Coordinator) (key : JsString) (shardId : ShardId) : Prop :=
  ∃ shards, s.shardsOf key = some shards ∧ shardId ∈ shards

def Registered (s : Coordinator) (key : JsString) : Prop := (s.shardsOf key).isSome

instance : Decidable (s.Registered key) := inferInstanceAs (Decidable (_ = true))

lemma registered_iff_has : s.Registered key ↔ s.regions.has key = true := by
  simp [Registered, shardsOf, OrderedMap.has]

/-- The claim of the two indexes on each other. -/
structure IndexesAgree (s : Coordinator) : Prop where
  holds_iff : ∀ shardId key,
    s.Holds key shardId ↔ s.shardHome.get? shardId = some key ∧ s.Registered key
  handOffs : ∀ shardId fromKey, s.rebalanceInProgress.get? shardId = some fromKey →
    s.shardHome.get? shardId = some fromKey

/-- The indexes agree, and a home is registered unless its shard is one of those that are
about to be placed anew. -/
structure Indexed (lost : List ShardId) (s : Coordinator) : Prop extends IndexesAgree s where
  registered : ∀ shardId key, s.shardHome.get? shardId = some key →
    s.Registered key ∨ shardId ∈ lost
  named : ∀ key, s.Registered key → key ≠ []

/-! ### What leaves the indexes alone -/

structure SameIndexes (s t : Coordinator) : Prop where
  shards : ∀ key, t.shardsOf key = s.shardsOf key
  home : t.shardHome = s.shardHome
  handOffs : t.rebalanceInProgress = s.rebalanceInProgress

namespace SameIndexes

lemma refl (s : Coordinator) : SameIndexes s s := ⟨fun _ => rfl, rfl, rfl⟩

lemma trans (hst : SameIndexes s t) (htu : SameIndexes t u) : SameIndexes s u :=
  ⟨fun key => (htu.shards key).trans (hst.shards key), htu.home.trans hst.home,
    htu.handOffs.trans hst.handOffs⟩

lemma holds_iff (h : SameIndexes s t) : t.Holds key shardId ↔ s.Holds key shardId := by
  rw [Holds, Holds, h.shards]

lemma registered_iff (h : SameIndexes s t) : t.Registered key ↔ s.Registered key := by
  rw [Registered, Registered, h.shards]

lemma indexed {lost : List ShardId} (h : SameIndexes s t) (hs : s.Indexed lost) :
    t.Indexed lost where
  holds_iff shardId key := by rw [h.holds_iff, h.home, h.registered_iff, hs.holds_iff]
  handOffs := by
    rw [h.handOffs, h.home]
    exact hs.handOffs
  registered shardId key := by
    rw [h.home, h.registered_iff]
    exact hs.registered shardId key
  named key := by
    rw [h.registered_iff]
    exact hs.named key

lemma foldl {α : Type*} {f : Coordinator → α → Coordinator} (h : ∀ s a, SameIndexes s (f s a))
    (s : Coordinator) (l : List α) : SameIndexes s (l.foldl f s) :=
  List.foldlRecOn l f (refl s) fun t ht a _ => ht.trans (h t a)

lemma ite {p : Prop} [Decidable p] (hst : SameIndexes s t) (hsu : SameIndexes s u) :
    SameIndexes s (if p then t else u) :=
  iteInduction (fun _ => hst) fun _ => hsu

lemma updateRegion {f : RegionInfo → RegionInfo} (hf : ∀ info, (f info).shards = info.shards)
    (s : Coordinator) (key : JsString) : SameIndexes s (s.updateRegion key f) := by
  unfold Coordinator.updateRegion
  split
  · exact refl s
  · rename_i info hinfo
    refine ⟨fun key' => ?_, rfl, rfl⟩
    rw [shardsOf, shardsOf, setRegion, get?_set]
    split
    · rename_i hkey
      rw [← hkey, hinfo, map_some, map_some, hf]
    · rfl

variable (s)

lemma replyTo (path : JsString) (node : NodeAddress) (message : ToRegion) :
    SameIndexes s (s.replyTo path node message) :=
  ⟨fun _ => rfl, rfl, rfl⟩

variable (key)

lemma sendToRegion (message : ToRegion) :
    SameIndexes s (s.sendToRegion key message) := by
  unfold Coordinator.sendToRegion
  split
  · exact refl s
  · exact replyTo s _ _ _

lemma markRegionSeen (view : View) (s : Coordinator) (path : JsString) (node : NodeAddress) :
    SameIndexes s (s.markRegionSeen view path node) :=
  updateRegion (f := fun info => { info with lastSeenAtMs := view.now }) (fun _ => rfl) s _

lemma observeEligibleSet (view : View) (s : Coordinator) (candidates : List RegionEntry) :
    SameIndexes s (s.observeEligibleSet view candidates).1 := by
  unfold Coordinator.observeEligibleSet
  dsimp only
  split
  · exact refl s
  · exact ⟨fun _ => rfl, rfl, rfl⟩

variable (shardId)

lemma flushPending : SameIndexes s (s.flushPending shardId) := by
  unfold Coordinator.flushPending
  split
  · split
    · exact refl s
    · rename_i info _ _ _
      have h := foldl (fun s (query : GetShardHome) =>
        replyTo s query.requester query.requesterNode (.shardHome shardId info.path info.node)) s
      exact (h _).trans ⟨fun _ => rfl, rfl, rfl⟩
  · exact refl s

lemma shipRememberedEntities : SameIndexes s (s.shipRememberedEntities shardId) := by
  unfold Coordinator.shipRememberedEntities
  split
  · exact ite (refl s) (replyTo s _ _ _)
  · exact refl s

lemma announcePlacement (key : JsString) :
    SameIndexes s (s.announcePlacement config shardId key) := by
  unfold Coordinator.announcePlacement
  split
  · exact refl s
  · rename_i info _
    have h := (sendToRegion s key (.shardHome shardId info.path info.node)).trans
      (flushPending _ shardId)
    exact ite (h.trans (shipRememberedEntities _ shardId)) h

variable (event : RememberEvent)

lemma applyRememberEvent : SameIndexes s (s.applyRememberEvent event) :=
  ⟨fun _ => rfl, rfl, rfl⟩

lemma persistRememberEvent : SameIndexes s (s.persistRememberEvent config event) :=
  ite ⟨fun _ => rfl, rfl, rfl⟩ (refl s)

variable (entityId : JsString)

lemma onEntityStarted : SameIndexes s (s.onEntityStarted config shardId entityId) :=
  ite (refl s) ((applyRememberEvent s _).trans (persistRememberEvent _ _))

lemma onEntityStopped : SameIndexes s (s.onEntityStopped config shardId entityId) :=
  ite (applyRememberEvent s _)
    (ite (refl s) ((applyRememberEvent s _).trans (persistRememberEvent _ _)))

lemma onRegionHeartbeat (region : JsString) (node : NodeAddress) :
    SameIndexes s (s.onRegionHeartbeat view region node) := by
  unfold Coordinator.onRegionHeartbeat
  dsimp only
  split
  · exact ite (refl s) (replyTo s _ _ _)
  · rename_i info hinfo
    have h := updateRegion (f := fun info =>
      { info with lastSeenAtMs := view.now, lastHeartbeatAtMs := some view.now })
      (fun _ => rfl) s (regionKey node region)
    rwa [Coordinator.updateRegion, hinfo] at h

lemma releaseConflictingShards (conflicting : List ShardId) :
    SameIndexes s (s.releaseConflictingShards key conflicting) :=
  foldl (fun s _ => ite (refl s) (sendToRegion s key _)) s conflicting

lemma answerRegister (message : RegisterRegion) (verdict : ClaimVerdict) :
    SameIndexes s (s.answerRegister config message verdict) := by
  have h := ((replyTo s message.region message.node .registerAcknowledgment).trans
    (releaseConflictingShards _ (regionKey message.node message.region) verdict.conflicting)).trans
    (foldl flushPending _ verdict.adopted)
  exact ite (h.trans (foldl shipRememberedEntities _ verdict.adopted)) h

lemma reconcileLease : SameIndexes s (s.reconcileLease config view) :=
  ite (refl s) (ite (ite ⟨fun _ => rfl, rfl, rfl⟩ (refl s)) (ite ⟨fun _ => rfl, rfl, rfl⟩ (refl s)))

end SameIndexes

/-! ### Allocation -/

lemma holds_iff_of_indexed (h : s.Indexed []) : s.Holds key x ↔ s.shardHome.get? x = some key := by
  rw [h.holds_iff]
  refine and_iff_left_of_imp fun hhome => ?_
  rcases h.registered x key hhome with hreg | hmem
  · exact hreg
  · cases hmem

variable {lost : List ShardId}

lemma Indexed.unhomed_of_free (h : s.Indexed lost) (hfree : s.shardHome.get? shardId = none) :
    s.rebalanceInProgress.get? shardId = none := by
  cases hfrom : s.rebalanceInProgress.get? shardId with
  | none => rfl
  | some fromKey =>
    have hhome := h.handOffs shardId fromKey hfrom
    rw [hfree] at hhome
    cases hhome

lemma shardsOf_updateRegion (s : Coordinator) (key : JsString) (f : RegionInfo → RegionInfo)
    (g : OrderedSet ShardId → OrderedSet ShardId) (hf : ∀ info, (f info).shards = g info.shards)
    (key' : JsString) :
    (s.updateRegion key f).shardsOf key' =
      if key = key' then (s.shardsOf key').map g else s.shardsOf key' := by
  unfold updateRegion shardsOf
  cases hinfo : s.regions.get? key with
  | none =>
    by_cases hkey : key = key'
    · rw [if_pos hkey, ← hkey]
      simp [hinfo]
    · rw [if_neg hkey]
  | some info =>
    by_cases hkey : key = key'
    · subst hkey
      simp [setRegion, hinfo, hf]
    · simp [setRegion, get?_set, hkey]

lemma shardsOf_assign (s : Coordinator) (shardId : ShardId) (key key' : JsString) :
    (s.assign shardId key).shardsOf key' =
      if key = key' then (s.shardsOf key').map (·.add shardId) else s.shardsOf key' :=
  shardsOf_updateRegion { s with shardHome := s.shardHome.set shardId key } key
    (fun info => { info with shards := info.shards.add shardId }) (·.add shardId)
    (fun _ => rfl) key'

lemma holds_assign (hkey : s.Registered key) {key' : JsString} :
    (s.assign shardId key).Holds key' x ↔ s.Holds key' x ∨ key' = key ∧ x = shardId := by
  obtain ⟨shards, hshards⟩ := isSome_iff_exists.1 hkey
  unfold Holds
  rw [shardsOf_assign]
  by_cases h : key = key'
  · subst h
    simp [hshards, or_comm]
  · simp [h, Ne.symm h]

variable (s) (shardId)

lemma registered_assign (key key' : JsString) :
    (s.assign shardId key).Registered key' ↔ s.Registered key' := by
  unfold Registered
  rw [shardsOf_assign]
  split <;> simp

lemma shardHome_assign (key : JsString) :
    (s.assign shardId key).shardHome = s.shardHome.set shardId key := by
  unfold assign updateRegion
  split <;> rfl

lemma rebalanceInProgress_assign (key : JsString) :
    (s.assign shardId key).rebalanceInProgress = s.rebalanceInProgress := by
  unfold assign updateRegion
  split <;> rfl

variable {shardId} {s}

lemma Indexed.assign (h : s.Indexed lost) (hfree : s.shardHome.get? shardId = none)
    (hkey : s.Registered key) :
    (s.assign shardId key).Indexed lost where
  holds_iff x key' := by
    rw [holds_assign hkey, registered_assign, shardHome_assign, get?_set, h.holds_iff]
    by_cases hx : shardId = x
    · subst hx
      simp only [hfree, reduceCtorEq, false_and, false_or, and_true, if_true, Option.some.injEq]
      constructor
      · rintro rfl
        exact ⟨rfl, hkey⟩
      · exact fun hhome => hhome.1.symm
    · simp [hx, Ne.symm hx]
  handOffs x fromKey hfrom := by
    rw [rebalanceInProgress_assign] at hfrom
    have hx : shardId ≠ x := by
      rintro rfl
      rw [h.unhomed_of_free hfree] at hfrom
      cases hfrom
    rw [shardHome_assign, get?_set, if_neg hx]
    exact h.handOffs x fromKey hfrom
  registered x key' hhome := by
    rw [shardHome_assign] at hhome
    rw [registered_assign]
    rcases get?_set_cases hhome with ⟨-, rfl⟩ | hhome
    · exact .inl hkey
    · exact h.registered x key' hhome
  named key' hreg := h.named key' ((registered_assign s shardId key key').1 hreg)

lemma regionKeyOn_mem {node : NodeAddress} {entries : List RegionEntry}
    (h : regionKeyOn node entries = some key) : ∃ info, (key, info) ∈ entries := by
  obtain ⟨entry, hfind, hkey⟩ := map_eq_some_iff.1 h
  exact ⟨entry.2, hkey ▸ mem_of_find?_eq_some hfind⟩

lemma placementFor_mem {candidates eligible : List RegionEntry}
    (h : s.placementFor config view shardId candidates eligible = some key) :
    ∃ info, (key, info) ∈ eligible := by
  unfold placementFor at h
  dsimp only at h
  split at h
  · rename_i hearly
    split at hearly
    · cases hearly
    · exact regionKeyOn_mem (hearly.trans h)
  · exact regionKeyOn_mem h

/-- What an allocation comes to: the indexes stay, or the shard is the home of a candidate
that is up. -/
lemma tryAllocate_cases (s : Coordinator) (shardId : ShardId) :
    SameIndexes s (s.tryAllocate config view shardId) ∨
      ∃ t key, SameIndexes s t ∧ t.Registered key ∧
        SameIndexes (t.assign shardId key) (s.tryAllocate config view shardId) := by
  have hobserve := SameIndexes.observeEligibleSet view s (s.candidateRegions config view)
  unfold tryAllocate
  dsimp only
  split
  · exact .inl hobserve
  · split
    · exact .inl hobserve
    · rename_i key hplace
      refine .inr ⟨_, key, hobserve, ?_, SameIndexes.announcePlacement _ _ _⟩
      obtain ⟨info, hmem⟩ := placementFor_mem hplace
      have hcandidate : (key, info) ∈ s.candidateRegions config view := by
        unfold observeEligibleSet at hmem
        dsimp only at hmem
        split at hmem <;> exact mem_of_mem_filter hmem
      have hget := (s.regions.get?_eq_some_iff key info).2 (mem_of_mem_filter hcandidate)
      rw [hobserve.registered_iff, Registered, shardsOf, hget]
      rfl

lemma tryAllocate_rest (config : CoordinatorConfig) (view : View) (s : Coordinator)
    (shardId : ShardId) :
    (∀ key, (s.tryAllocate config view shardId).Registered key ↔ s.Registered key) ∧
      ∀ x, x ≠ shardId →
        (s.tryAllocate config view shardId).shardHome.get? x = s.shardHome.get? x := by
  rcases tryAllocate_cases s shardId with hsame | ⟨t, key, hst, -, hsame⟩
  · exact ⟨fun key => hsame.registered_iff, fun x _ => by rw [hsame.home]⟩
  · refine ⟨fun key' => ?_, fun x hx => ?_⟩
    · rw [hsame.registered_iff, registered_assign, hst.registered_iff]
    · rw [hsame.home, shardHome_assign, get?_set, if_neg (Ne.symm hx), hst.home]

lemma Indexed.tryAllocate (h : s.Indexed lost) (hfree : s.shardHome.get? shardId = none) :
    (s.tryAllocate config view shardId).Indexed lost := by
  rcases tryAllocate_cases s shardId with hsame | ⟨t, key, hst, hkey, hsame⟩
  · exact hsame.indexed h
  · refine hsame.indexed ((hst.indexed h).assign ?_ hkey)
    rw [hst.home]
    exact hfree

lemma homeRegion_eq_none (h : s.Indexed []) (hnone : s.homeRegion shardId = none) :
    s.shardHome.get? shardId = none := by
  cases hhome : s.shardHome.get? shardId with
  | none => rfl
  | some key =>
    have hreg : s.Registered key :=
      (h.registered shardId key hhome).resolve_right (not_mem_nil)
    obtain ⟨shards, hshards⟩ := isSome_iff_exists.1 hreg
    obtain ⟨info, hinfo, -⟩ := map_eq_some_iff.1 hshards
    simp [homeRegion, hhome, h.named key hreg, hinfo] at hnone

lemma Indexed.onGetShardHome (h : s.Indexed []) (message : GetShardHome) :
    (s.onGetShardHome config view message).Indexed [] := by
  have hseen := (SameIndexes.markRegionSeen view s message.requester message.requesterNode).indexed h
  unfold Coordinator.onGetShardHome
  dsimp only
  split
  · exact hseen
  · split
    · exact hseen
    · split
      · exact (SameIndexes.replyTo _ _ _ _).indexed hseen
      · rename_i hnone
        have hfree := homeRegion_eq_none hseen hnone
        -- what waits is no part of the indexes
        have hwaits : ∀ pending, Indexed [] { s.markRegionSeen view message.requester
            message.requesterNode with pending := pending } := fun pending =>
          SameIndexes.indexed (s := s.markRegionSeen view message.requester message.requesterNode)
            ⟨fun _ => rfl, rfl, rfl⟩ hseen
        split
        · exact hwaits _
        · exact (hwaits _).tryAllocate hfree

/-! ### The end of a hand-off -/

lemma shardsOf_deleteRegionShard (s : Coordinator) (key key' : JsString) (shardId : ShardId) :
    (s.deleteRegionShard key shardId).shardsOf key' =
      if key = key' then (s.shardsOf key').map (·.delete shardId) else s.shardsOf key' :=
  shardsOf_updateRegion s key (fun info => { info with shards := info.shards.delete shardId })
    (·.delete shardId) (fun _ => rfl) key'

lemma holds_deleteRegionShard {key' : JsString} :
    (s.deleteRegionShard key shardId).Holds key' x ↔
      s.Holds key' x ∧ ¬(key' = key ∧ x = shardId) := by
  unfold Holds
  rw [shardsOf_deleteRegionShard]
  by_cases h : key = key'
  · subst h
    cases s.shardsOf key <;> simp
  · simp [h, Ne.symm h]

lemma registered_deleteRegionShard (s : Coordinator) (shardId : ShardId) (key key' : JsString) :
    (s.deleteRegionShard key shardId).Registered key' ↔ s.Registered key' := by
  unfold Registered
  rw [shardsOf_deleteRegionShard]
  split <;> simp

lemma deleteRegionShard_rest (s : Coordinator) (shardId : ShardId) (key : JsString) :
    (s.deleteRegionShard key shardId).shardHome = s.shardHome ∧
      (s.deleteRegionShard key shardId).rebalanceInProgress = s.rebalanceInProgress := by
  unfold deleteRegionShard updateRegion
  split <;> exact ⟨rfl, rfl⟩

/-- The shard that is handed off leaves both indexes and the table of hand-offs. -/
lemma Indexed.release (h : s.Indexed []) {fromKey : JsString}
    (hfrom : s.rebalanceInProgress.get? shardId = some fromKey) :
    ({ s with rebalanceInProgress := s.rebalanceInProgress.delete shardId }.releaseFromPreviousOwner
      shardId fromKey).Indexed [] := by
  have hhome := h.handOffs shardId fromKey hfrom
  let s₁ := { s with rebalanceInProgress := s.rebalanceInProgress.delete shardId }
  have hrest := deleteRegionShard_rest s₁ shardId fromKey
  have hholds : ∀ x key, (s₁.releaseFromPreviousOwner shardId fromKey).Holds key x ↔
      s.Holds key x ∧ ¬(key = fromKey ∧ x = shardId) :=
    fun x key => holds_deleteRegionShard (s := s₁)
  have hreg : ∀ key, (s₁.releaseFromPreviousOwner shardId fromKey).Registered key ↔
      s.Registered key := registered_deleteRegionShard s₁ shardId fromKey
  have hhomes : (s₁.releaseFromPreviousOwner shardId fromKey).shardHome =
      s.shardHome.delete shardId := congrArg (·.delete shardId) hrest.1
  have hoffs : (s₁.releaseFromPreviousOwner shardId fromKey).rebalanceInProgress =
      s.rebalanceInProgress.delete shardId := hrest.2
  refine { holds_iff := fun x key => ?_, handOffs := fun x key hx => ?_,
           registered := fun x key hx => ?_, named := fun key hkey => h.named key ((hreg key).1 hkey) }
  · rw [hholds, hreg, hhomes, get?_delete, h.holds_iff]
    by_cases hx : shardId = x
    · subst hx
      rw [if_pos rfl, hhome, some.injEq]
      constructor
      · rintro ⟨⟨rfl, -⟩, hne⟩
        exact absurd ⟨rfl, rfl⟩ hne
      · rintro ⟨hcontra, -⟩
        cases hcontra
    · rw [if_neg hx]
      exact and_iff_left fun hboth => hx hboth.2.symm
  · rw [hoffs, get?_delete] at hx
    rw [hhomes, get?_delete]
    split at hx
    · cases hx
    · rename_i hne
      rw [if_neg hne]
      exact h.handOffs x key hx
  · rw [hhomes] at hx
    rw [hreg]
    exact h.registered x key (get?_of_get?_delete hx)

lemma Indexed.endHandOff (h : s.Indexed []) {fromKey : JsString}
    (hfrom : s.rebalanceInProgress.get? shardId = some fromKey) :
    (s.endHandOff config view shardId fromKey).Indexed [] := by
  refine (h.release hfrom).tryAllocate ?_
  simp [releaseFromPreviousOwner, get?_delete]

lemma Indexed.onHandOffComplete (h : s.Indexed []) (region : JsString) (node : NodeAddress) :
    (s.onHandOffComplete config view shardId region node).Indexed [] := by
  have hseen := (SameIndexes.markRegionSeen view s region node).indexed h
  unfold Coordinator.onHandOffComplete
  dsimp only
  split
  · exact hseen
  · split
    · exact hseen
    · exact hseen.endHandOff ‹_›

lemma Indexed.onHandOffTimeout (h : s.Indexed []) :
    (s.onHandOffTimeout config view shardId).Indexed [] := by
  unfold Coordinator.onHandOffTimeout
  split
  · exact h
  · exact h.endHandOff ‹_›

lemma Indexed.beginHandOff (h : s.Indexed []) (shardId : ShardId) :
    (s.beginHandOff shardId).Indexed [] := by
  unfold Coordinator.beginHandOff
  split
  · exact h
  · rename_i ownerKey owner howner
    have hhome : s.shardHome.get? shardId = some ownerKey := by
      unfold homeRegion at howner
      split at howner
      · cases howner
      · rename_i home hhome
        split at howner
        · cases howner
        · obtain ⟨info, -, heq⟩ := map_eq_some_iff.1 howner
          rw [hhome, (Prod.mk.inj heq).1]
    refine (SameIndexes.replyTo _ _ _ _).indexed
      { holds_iff := h.holds_iff, handOffs := fun x fromKey hx => ?_,
        registered := h.registered, named := h.named }
    rcases get?_set_cases hx with ⟨rfl, rfl⟩ | hx
    · exact hhome
    · exact h.handOffs x fromKey hx

/-! ### Regions that go -/

lemma shardsOf_delete (s : Coordinator) (key key' : JsString) :
    { s with regions := s.regions.delete key }.shardsOf key' =
      if key = key' then none else s.shardsOf key' := by
  unfold shardsOf
  rw [get?_delete]
  split <;> rfl

lemma Indexed.delete (h : s.Indexed []) {info : RegionInfo} (hinfo : s.regions.get? key = some info) :
    { s with regions := s.regions.delete key }.Indexed info.shards.elems where
  holds_iff x key' := by
    unfold Holds Registered
    rw [shardsOf_delete]
    split
    · simp
    · exact h.holds_iff x key'
  handOffs := h.handOffs
  registered x key' hhome := by
    unfold Registered
    rw [shardsOf_delete]
    split
    · rename_i hkey
      subst hkey
      have hholds := (holds_iff_of_indexed h).2 hhome
      obtain ⟨shards, hshards, hmem⟩ := hholds
      rw [shardsOf, hinfo, map_some, some.injEq] at hshards
      exact .inr (hshards ▸ hmem)
    · exact .inl ((h.registered x key' hhome).resolve_right not_mem_nil)
  named key' hreg := by
    unfold Registered at hreg
    rw [shardsOf_delete] at hreg
    split at hreg
    · cases hreg
    · exact h.named key' hreg

lemma Indexed.rehome (h : s.Indexed (shardId :: lost)) (hgone : ∀ key,
    s.shardHome.get? shardId = some key → ¬s.Registered key) :
    (s.rehome config view shardId).Indexed lost := by
  have hcleared : Indexed lost { s with
      shardHome := s.shardHome.delete shardId
      rebalanceInProgress := s.rebalanceInProgress.delete shardId } := by
    refine { holds_iff := fun x key => ?_, handOffs := fun x key hx => ?_,
             registered := fun x key hx => ?_, named := h.named }
    · change s.Holds key x ↔ (s.shardHome.delete shardId).get? x = some key ∧ s.Registered key
      rw [h.holds_iff, get?_delete]
      by_cases hx : shardId = x
      · subst hx
        rw [if_pos rfl]
        simp only [reduceCtorEq, false_and, iff_false, not_and]
        exact hgone key
      · rw [if_neg hx]
    · change (s.rebalanceInProgress.delete shardId).get? x = some key at hx
      change (s.shardHome.delete shardId).get? x = some key
      rw [get?_delete] at hx ⊢
      split at hx
      · cases hx
      · rename_i hne
        rw [if_neg hne]
        exact h.handOffs x key hx
    · change (s.shardHome.delete shardId).get? x = some key at hx
      change s.Registered key ∨ x ∈ lost
      rw [get?_delete] at hx
      split at hx
      · cases hx
      · rename_i hne
        exact (h.registered x key hx).imp_right fun hmem =>
          (mem_cons.1 hmem).resolve_left (Ne.symm hne)
  refine hcleared.tryAllocate ?_
  change (s.shardHome.delete shardId).get? shardId = none
  rw [get?_delete, if_pos rfl]

lemma Indexed.rehomeAll (hnodup : lost.Nodup) (h : s.Indexed lost)
    (hgone : ∀ x ∈ lost, ∀ key, s.shardHome.get? x = some key → ¬s.Registered key) :
    (lost.foldl (Coordinator.rehome config view) s).Indexed [] := by
  induction lost generalizing s with
  | nil => exact h
  | cons shardId lost ih =>
    rw [nodup_cons] at hnodup
    refine ih hnodup.2 (h.rehome (hgone shardId mem_cons_self)) fun x hx key hhome hreg => ?_
    have hne : x ≠ shardId := by
      rintro rfl
      exact hnodup.1 hx
    obtain ⟨hregs, hhomes⟩ := tryAllocate_rest config view
      { s with
        shardHome := s.shardHome.delete shardId
        rebalanceInProgress := s.rebalanceInProgress.delete shardId } shardId
    have hreg' : s.Registered key := (hregs key).1 hreg
    have hhome' : (s.shardHome.delete shardId).get? x = some key := (hhomes x hne).symm.trans hhome
    exact hgone x (mem_cons_of_mem _ hx) key (get?_of_get?_delete hhome') hreg'

lemma Indexed.onRegionTerminated (h : s.Indexed []) (region : JsString) (node : NodeAddress) :
    (s.onRegionTerminated config view region node).Indexed [] := by
  unfold Coordinator.onRegionTerminated
  dsimp only
  split
  · exact h
  · rename_i info hinfo
    refine (h.delete hinfo).rehomeAll info.shards.nodup fun x hx key hhome hreg => ?_
    have hholds : s.Holds (regionKey node region) x := ⟨info.shards, by simp [shardsOf, hinfo], hx⟩
    obtain rfl : regionKey node region = key :=
      some.inj (((holds_iff_of_indexed h).1 hholds).symm.trans hhome)
    unfold Registered at hreg
    rw [shardsOf_delete, if_pos rfl] at hreg
    cases hreg

lemma Indexed.onMemberRemoved (h : s.Indexed []) (address : NodeAddress) :
    (s.onMemberRemoved config view address).Indexed [] := by
  refine List.foldlRecOn s.regions.values _ h fun s h info _ => ?_
  split
  · exact h.onRegionTerminated _ _
  · exact h

lemma Indexed.sweepStaleRegions (h : s.Indexed []) :
    (s.sweepStaleRegions config view).Indexed [] := by
  unfold Coordinator.sweepStaleRegions
  split
  · refine List.foldlRecOn s.regions.entries _ h fun s h entry _ => ?_
    unfold sweepRegion
    dsimp only
    split
    · exact (SameIndexes.updateRegion (f := fun info => { info with lastSeenAtMs := view.now })
        (fun _ => rfl) s _).indexed h
    · split
      · exact (SameIndexes.replyTo _ _ _ _).indexed (h.onRegionTerminated _ _)
      · exact h
  · exact h

lemma Indexed.rebalanceTick (h : s.Indexed []) : (s.rebalanceTick config view).Indexed [] := by
  have hswept : (s.sweepStaleRegions config view).Indexed [] := h.sweepStaleRegions
  have hobserved := (SameIndexes.observeEligibleSet view _
    ((s.sweepStaleRegions config view).candidateRegions config view)).indexed hswept
  unfold Coordinator.rebalanceTick
  dsimp only
  split
  · exact hobserved
  · exact List.foldlRecOn _ _ hobserved fun _ h shardId _ => h.beginHandOff shardId

/-! ### Registration -/

lemma foldl_adopt {adopted : List ShardId}
    (hfree : ∀ x ∈ adopted, s.shardHome.get? x = none ∨ s.shardHome.get? x = some key) :
    (adopted.foldl (adopt key) s).regions = s.regions ∧
      (adopted.foldl (adopt key) s).rebalanceInProgress = s.rebalanceInProgress ∧
      ∀ x, (adopted.foldl (adopt key) s).shardHome.get? x =
        if x ∈ adopted then some key else s.shardHome.get? x := by
  induction adopted generalizing s with
  | nil => simp
  | cons shardId adopted ih =>
    have hadopt : adopt key s shardId = { s with shardHome := s.shardHome.set shardId key } := by
      unfold adopt
      rcases hfree shardId mem_cons_self with hnone | hsome
      · rw [hnone]
      · rw [hsome]
        simp
    rw [foldl_cons, hadopt]
    obtain ⟨hregions, hoffs, hhomes⟩ := ih (s := { s with
      shardHome := s.shardHome.set shardId key }) fun x hx => by
        change (s.shardHome.set shardId key).get? x = none ∨ _ = some key
        rw [get?_set]
        split
        · exact .inr rfl
        · exact hfree x (mem_cons_of_mem _ hx)
    refine ⟨hregions, hoffs, fun x => ?_⟩
    rw [hhomes x]
    change (if x ∈ adopted then some key else (s.shardHome.set shardId key).get? x) = _
    rw [get?_set]
    by_cases hx : x = shardId
    · simp [hx]
    · simp [hx, Ne.symm hx]

lemma shardsOf_setRegion (s : Coordinator) (key key' : JsString) (info : RegionInfo) :
    (s.setRegion key info).shardsOf key' = if key = key' then some info.shards else s.shardsOf key' := by
  unfold shardsOf setRegion
  rw [get?_set]
  split <;> rfl

lemma mem_owned (s : Coordinator) (key : JsString) (claimed : OrderedSet ShardId) :
    x ∈ (s.adjudicateClaim key claimed).owned ↔
      x ∈ (s.adjudicateClaim key claimed).adopted ∨ s.shardHome.get? x = some key := by
  simp only [adjudicateClaim, mem_addAll, not_mem_empty, false_or,
    mem_keysWhere_iff, decide_eq_true_eq, exists_eq_right]

/-- The region has what it had and what was adopted, and these are its homes. -/
lemma Indexed.register (h : s.Indexed []) (hkey : key ≠ []) (claimed : OrderedSet ShardId)
    {info : RegionInfo} (hinfo : info.shards = (s.adjudicateClaim key claimed).owned) :
    ((s.adjudicateClaim key claimed).adopted.foldl (adopt key) (s.setRegion key info)).Indexed
      [] := by
  have hfree : ∀ x ∈ (s.adjudicateClaim key claimed).adopted,
      s.shardHome.get? x = none ∨ s.shardHome.get? x = some key := by
    intro x hx
    have hadopts : s.adopts key x = true := (mem_filter.1 hx).2
    cases hhome : s.shardHome.get? x with
    | none => exact .inl rfl
    | some home =>
      have hreg := (h.registered x home hhome).resolve_right not_mem_nil
      have hhas := registered_iff_has.1 hreg
      rw [adopts, hhome, all_some, hhas, Bool.not_true, Bool.or_false,
        decide_eq_true_eq] at hadopts
      exact .inr (congrArg some hadopts)
  obtain ⟨hregions, hoffs, hhomes⟩ := foldl_adopt (s := s.setRegion key info) hfree
  generalize hadopted : (s.adjudicateClaim key claimed).adopted = adopted at *
  have hshards : ∀ key', (adopted.foldl (adopt key) (s.setRegion key info)).shardsOf key' =
      if key = key' then some info.shards else s.shardsOf key' := fun key' => by
    rw [← shardsOf_setRegion, shardsOf, hregions, shardsOf]
  have hreg : ∀ key', (adopted.foldl (adopt key) (s.setRegion key info)).Registered key' ↔
      key = key' ∨ s.Registered key' := fun key' => by
    rw [Registered, hshards]
    split
    · simp [*]
    · simp [*, Registered]
  refine { holds_iff := fun x key' => ?_, handOffs := fun x fromKey hx => ?_,
           registered := fun x key' hx => ?_, named := fun key' hx => ?_ }
  · rw [Holds, hshards, hreg, hhomes]
    change _ ↔ (if x ∈ adopted then some key else s.shardHome.get? x) = some key' ∧ _
    by_cases hkk : key = key'
    · subst hkk
      have howned := mem_owned (x := x) s key claimed
      rw [hadopted] at howned
      simp only [if_true, Option.some.injEq, exists_eq_left', hinfo, howned, true_or, and_true]
      split <;> simp [*]
    · rw [if_neg hkk]
      have hholds := h.holds_iff x key'
      unfold Holds at hholds
      rw [hholds]
      by_cases hx : x ∈ adopted
      · rw [if_pos hx]
        rcases hfree x hx with hnone | hsome
        · simp [hnone, hkk]
        · simp [hsome, hkk]
      · rw [if_neg hx]
        simp [hkk]
  · rw [hoffs] at hx
    rw [hhomes]
    change (if x ∈ adopted then some key else s.shardHome.get? x) = some fromKey
    have hhome := h.handOffs x fromKey hx
    split
    · rename_i hmem
      rcases hfree x hmem with hnone | hsome
      · rw [hnone] at hhome
        cases hhome
      · exact hsome.symm.trans hhome
    · exact hhome
  · rw [hhomes] at hx
    rw [hreg]
    split at hx
    · exact .inl (.inl (Option.some.inj hx))
    · exact (h.registered x key' hx).imp_left .inr
  · rcases (hreg key').1 hx with rfl | hx
    · exact hkey
    · exact h.named key' hx

lemma Indexed.onRegister (h : s.Indexed []) (message : RegisterRegion) :
    (s.onRegister config view message).Indexed [] := by
  have hfile : ∀ refused, Indexed [] { s with refusedRegions := refused } := fun refused =>
    SameIndexes.indexed (s := s) ⟨fun _ => rfl, rfl, rfl⟩ h
  unfold Coordinator.onRegister
  split
  · exact (SameIndexes.replyTo _ _ _ _).indexed (hfile _)
  · exact (SameIndexes.answerRegister _ message _).indexed
      ((hfile _).register (regionKey_ne_nil _ _) (acceptedHostedShards config message) rfl)

/-! ### The snapshot -/

lemma seeds_congr {region : RegionInfoData} (hrefused : t.refusedRegions = s.refusedRegions)
    (hshards : t.shardsOf region.key = s.shardsOf region.key) :
    t.seeds view region = s.seeds view region := by
  have hhas : t.regions.has region.key = s.regions.has region.key := by
    rw [Bool.eq_iff_iff, ← registered_iff_has, ← registered_iff_has, Registered, Registered, hshards]
  rw [seeds, seeds, hrefused, hhas]

variable (view) (s) (region : RegionInfoData)

lemma seedRegion_rest : (s.seedRegion view region).refusedRegions = s.refusedRegions ∧
      (s.seedRegion view region).shardHome = s.shardHome ∧
      (s.seedRegion view region).rebalanceInProgress = s.rebalanceInProgress := by
  unfold seedRegion
  split <;> exact ⟨rfl, rfl, rfl⟩

lemma shardsOf_seedRegion (key : JsString) :
    (s.seedRegion view region).shardsOf key =
      if s.seeds view region = true ∧ region.key = key then
        some (OrderedSet.empty.addAll region.shards)
      else s.shardsOf key := by
  unfold seedRegion
  split
  · rename_i hseeds
    rw [shardsOf_setRegion]
    simp [hseeds]
  · rename_i hseeds
    rw [if_neg fun hboth => hseeds hboth.1]

lemma foldl_seedRegion_rest (regions : List RegionInfoData) :
    (regions.foldl (seedRegion view) s).shardHome = s.shardHome ∧
      (regions.foldl (seedRegion view) s).rebalanceInProgress = s.rebalanceInProgress := by
  induction regions generalizing s with
  | nil => exact ⟨rfl, rfl⟩
  | cons region regions ih =>
    obtain ⟨-, hhome, hoffs⟩ := seedRegion_rest view s region
    exact ⟨(ih _).1.trans hhome, (ih _).2.trans hoffs⟩

variable {regions : List RegionInfoData}

lemma shardsOf_seedRegions_of_not
    (h : ∀ region ∈ regions, region.key = key → s.seeds view region = false) :
    (regions.foldl (seedRegion view) s).shardsOf key = s.shardsOf key := by
  induction regions generalizing s with
  | nil => rfl
  | cons region regions ih =>
    have hkept : (s.seedRegion view region).shardsOf key = s.shardsOf key := by
      rw [shardsOf_seedRegion, if_neg]
      rintro ⟨hseeds, hkey⟩
      rw [h region mem_cons_self hkey] at hseeds
      cases hseeds
    refine (ih _ fun other hother hkey => ?_).trans hkept
    subst hkey
    rw [seeds_congr (seedRegion_rest view s region).1 hkept]
    exact h other (mem_cons_of_mem _ hother) rfl

lemma shardsOf_seedRegions_of_mem
    (hkeys : (regions.map RegionInfoData.key).Nodup) {region : RegionInfoData}
    (hmem : region ∈ regions) (hseeds : s.seeds view region = true) :
    (regions.foldl (seedRegion view) s).shardsOf region.key =
      some (OrderedSet.empty.addAll region.shards) := by
  induction regions generalizing s with
  | nil => cases hmem
  | cons first regions ih =>
    rw [map_cons, nodup_cons] at hkeys
    rcases mem_cons.1 hmem with rfl | hmem
    · -- no later entry has the key
      have hfirst := shardsOf_seedRegion view s region region.key
      rw [if_pos ⟨hseeds, rfl⟩] at hfirst
      rw [foldl_cons, shardsOf_seedRegions_of_not, hfirst]
      exact fun other hother hkey => absurd (mem_map.2 ⟨other, hother, hkey⟩) hkeys.1
    · have hne : first.key ≠ region.key := fun hkey =>
        hkeys.1 (mem_map.2 ⟨region, hmem, hkey.symm⟩)
      refine ih _ hkeys.2 hmem ?_
      rw [seeds_congr (seedRegion_rest view s first).1]
      · exact hseeds
      · rw [shardsOf_seedRegion, if_neg fun hboth => hne hboth.2]

variable {view}

lemma foldl_seedHome_rest (homes : List (ShardId × JsString)) :
    (homes.foldl seedHome s).regions = s.regions ∧
      (homes.foldl seedHome s).rebalanceInProgress = s.rebalanceInProgress := by
  induction homes generalizing s with
  | nil => exact ⟨rfl, rfl⟩
  | cons entry homes ih =>
    have hone : (s.seedHome entry).regions = s.regions ∧
        (s.seedHome entry).rebalanceInProgress = s.rebalanceInProgress := by
      unfold seedHome
      split <;> exact ⟨rfl, rfl⟩
    exact ⟨(ih _).1.trans hone.1, (ih _).2.trans hone.2⟩

/-- A shard that has a home keeps it; another gets the one the snapshot has for it, where
that is on file. -/
lemma shardHome_seedHomes (x : ShardId) (key : JsString)
    {homes : List (ShardId × JsString)} (hnodup : (homes.map Prod.fst).Nodup) :
    (homes.foldl seedHome s).shardHome.get? x = some key ↔
      s.shardHome.get? x = some key ∨
        s.shardHome.get? x = none ∧ (x, key) ∈ homes ∧ s.Registered key := by
  induction homes generalizing s with
  | nil => simp
  | cons entry homes ih =>
    rw [map_cons, nodup_cons] at hnodup
    have hreg : (s.seedHome entry).Registered key ↔ s.Registered key := by
      unfold seedHome
      split <;> rfl
    have hone : (s.seedHome entry).shardHome.get? x =
        if s.Registered entry.2 ∧ s.shardHome.get? entry.1 = none ∧ entry.1 = x then
          some entry.2
        else s.shardHome.get? x := by
      unfold seedHome
      simp only [Bool.and_eq_true, Bool.not_eq_true', ← registered_iff_has]
      by_cases hentry : s.Registered entry.2 ∧ s.shardHome.has entry.1 = false
      · have hfree : s.shardHome.get? entry.1 = none := by simpa [OrderedMap.has] using hentry.2
        rw [if_pos hentry, get?_set]
        simp [hentry.1, hfree]
      · rw [if_neg hentry, if_neg]
        rintro ⟨hentry₂, hfree, -⟩
        exact hentry ⟨hentry₂, by simp [OrderedMap.has, hfree]⟩
    rw [foldl_cons, ih _ hnodup.2, hreg, hone, mem_cons]
    by_cases hx : entry.1 = x
    · -- the first entry is the only one of its shard
      have hlater : (x, key) ∉ homes := fun hmem =>
        hnodup.1 (mem_map.2 ⟨(x, key), hmem, hx.symm⟩)
      subst hx
      have hpair : (entry.1, key) = entry ↔ entry.2 = key := by
        constructor
        · exact fun h => (congrArg Prod.snd h).symm
        · rintro rfl
          rfl
      simp only [hlater, or_false, false_and, and_false, and_true, hpair]
      by_cases hfree : s.shardHome.get? entry.1 = none
      · simp only [hfree, and_true, reduceCtorEq, false_or, true_and]
        by_cases hentry : s.Registered entry.2
        · simp only [hentry, if_true, Option.some.injEq]
          constructor
          · rintro rfl
            exact ⟨rfl, hentry⟩
          · exact fun h => h.1
        · simp only [hentry, if_false, reduceCtorEq, false_iff, not_and]
          rintro rfl
          exact hentry
      · simp [hfree]
    · have hpair : (x, key) ≠ entry := fun h => hx (congrArg Prod.fst h).symm
      simp [hx, hpair]

variable {s}

/-- Each region that is taken over has just the shards that the snapshot homes there and that have
no home yet, and no shard without a home is homed on a region that is on file already. -/
structure SnapshotFits (view : View) (s : Coordinator) (data : CoordinatorStateData) : Prop where
  keys : (data.regions.map RegionInfoData.key).Nodup
  homes : (data.shardHome.map Prod.fst).Nodup
  named : ∀ region ∈ data.regions, region.key ≠ []
  taken : ∀ region ∈ data.regions, s.seeds view region = true → ∀ shardId,
    shardId ∈ region.shards ↔
      (shardId, region.key) ∈ data.shardHome ∧ s.shardHome.get? shardId = none
  onFile : ∀ shardId key, (shardId, key) ∈ data.shardHome → s.Registered key →
    s.shardHome.get? shardId ≠ none

lemma registered_seedRegions (view : View) (s : Coordinator) (key : JsString)
    (hkeys : (regions.map RegionInfoData.key).Nodup) :
    (regions.foldl (seedRegion view) s).Registered key ↔
      s.Registered key ∨ ∃ region ∈ regions, s.seeds view region = true ∧ region.key = key := by
  by_cases hseeded : ∃ region ∈ regions, s.seeds view region = true ∧ region.key = key
  · obtain ⟨region, hmem, hseeds, rfl⟩ := hseeded
    rw [Registered, shardsOf_seedRegions_of_mem view s hkeys hmem hseeds]
    simp only [isSome_some, true_iff]
    exact .inr ⟨region, hmem, hseeds, rfl⟩
  · rw [Registered, shardsOf_seedRegions_of_not view s fun region hmem hkey =>
      Bool.eq_false_iff.2 fun hseeds => hseeded ⟨region, hmem, hseeds, hkey⟩]
    exact (or_iff_left hseeded).symm

lemma Indexed.seed (h : s.Indexed []) {data : CoordinatorStateData}
    (hfits : SnapshotFits view s data) :
    (data.shardHome.foldl seedHome (data.regions.foldl (seedRegion view) s)).Indexed [] := by
  obtain ⟨hhome₁, hoffs₁⟩ := foldl_seedRegion_rest view s data.regions
  obtain ⟨hregions, hoffs₂⟩ :=
    foldl_seedHome_rest (data.regions.foldl (seedRegion view) s) data.shardHome
  have hreg₁ := fun key => registered_seedRegions view s key hfits.keys
  have hhome₂ := fun x key => shardHome_seedHomes
    (data.regions.foldl (seedRegion view) s) x key hfits.homes
  generalize hs₁ : data.regions.foldl (seedRegion view) s = s₁ at *
  generalize hs₂ : data.shardHome.foldl seedHome s₁ = s₂ at *
  have hshards : ∀ key, s₂.shardsOf key = s₁.shardsOf key := fun key => by
    rw [shardsOf, hregions, shardsOf]
  have hreg₂ : ∀ key, s₂.Registered key ↔ s₁.Registered key := fun key => by
    rw [Registered, hshards, Registered]
  rw [hhome₁] at hhome₂
  refine { holds_iff := fun x key => ?_, handOffs := fun x key hx => ?_,
           registered := fun x key hx => ?_, named := fun key hx => ?_ }
  · rw [hreg₂, hhome₂, Holds, hshards]
    by_cases hseeded : ∃ region ∈ data.regions, s.seeds view region = true ∧ region.key = key
    · obtain ⟨region, hmem, hseeds, rfl⟩ := hseeded
      have hreg : s₁.Registered region.key := (hreg₁ _).2 (.inr ⟨region, hmem, hseeds, rfl⟩)
      have hnew : s.shardHome.get? x ≠ some region.key := fun hhome => by
        have hhas := registered_iff_has.1 ((h.registered x _ hhome).resolve_right not_mem_nil)
        simp [seeds, hhas] at hseeds
      rw [← hs₁, shardsOf_seedRegions_of_mem view s hfits.keys hmem hseeds]
      simp only [Option.some.injEq, exists_eq_left', mem_addAll,
        not_mem_empty, false_or, hfits.taken region hmem hseeds, hnew, hs₁, hreg,
        and_true]
      exact and_comm
    · have hsame := shardsOf_seedRegions_of_not view s fun region hmem hkey =>
        Bool.eq_false_iff.2 fun hseeds => hseeded ⟨region, hmem, hseeds, hkey⟩
      have hreg : s₁.Registered key ↔ s.Registered key := (hreg₁ key).trans (or_iff_left hseeded)
      have hholds := h.holds_iff x key
      rw [Holds, ← hsame, hs₁] at hholds
      rw [hholds, hreg]
      constructor
      · exact fun hboth => ⟨.inl hboth.1, hboth.2⟩
      · rintro ⟨hhome | ⟨hfree, hmem, -⟩, hkey⟩
        · exact ⟨hhome, hkey⟩
        · exact absurd hfree (hfits.onFile x key hmem hkey)
  · rw [hoffs₂, hoffs₁] at hx
    exact (hhome₂ x key).2 (.inl (h.handOffs x key hx))
  · rw [hreg₂]
    rcases (hhome₂ x key).1 hx with hhome | ⟨-, -, hreg⟩
    · exact .inl ((hreg₁ key).2 (.inl ((h.registered x key hhome).resolve_right not_mem_nil)))
    · exact .inl hreg
  · rcases (hreg₁ key).1 ((hreg₂ key).1 hx) with hreg | ⟨region, hmem, -, rfl⟩
    · exact h.named key hreg
    · exact hfits.named region hmem

lemma Indexed.loadCoordinatorState (h : s.Indexed []) {data : CoordinatorStateData}
    (hfits : data.numShards = some config.numShards → SnapshotFits view s data) :
    (s.loadCoordinatorState config view data).Indexed [] := by
  unfold Coordinator.loadCoordinatorState
  split
  · exact h
  · rename_i hcount
    have hseeded := h.seed (hfits (not_not.1 hcount))
    split
    · exact hseeded
    · exact (SameIndexes.foldl (fun s (region : RegionInfoData) =>
        SameIndexes.replyTo s region.path region.node .registrationRequest) _ _).indexed hseeded

/-! ### Runs -/

lemma indexed_of_empty (hregions : s.regions = .empty) (hhome : s.shardHome = .empty)
    (hoffs : s.rebalanceInProgress = .empty) : s.Indexed [] where
  holds_iff := by simp [Holds, Registered, shardsOf, hregions, hhome]
  handOffs := by simp [hoffs]
  registered := by simp [hhome]
  named := by simp [Registered, shardsOf, hregions]

section

variable (h : s.Indexed [])
include h

lemma Indexed.onLeaderChanged : (s.onLeaderChanged view).Indexed [] := by
  unfold Coordinator.onLeaderChanged
  split
  · exact h
  · exact indexed_of_empty rfl rfl rfl

lemma Indexed.onLeaseLost : s.onLeaseLost.Indexed [] := by
  unfold Coordinator.onLeaseLost
  split
  · exact h
  · exact { holds_iff := h.holds_iff, handOffs := by simp, registered := h.registered,
            named := h.named }

variable (message : ToCoordinator)

lemma Indexed.dispatchShardingMessage :
    (s.dispatchShardingMessage config view message).Indexed [] := by
  cases message with
  | register message => exact h.onRegister message
  | getShardHome message => exact h.onGetShardHome message
  | handOffComplete shardId region node => exact h.onHandOffComplete region node
  | beginHandOffAcknowledgment shardId => exact h
  | regionTerminated region node => exact h.onRegionTerminated region node
  | regionHeartbeat region node => exact (SameIndexes.onRegionHeartbeat s region node).indexed h
  | entityStarted shardId entityId =>
    exact (SameIndexes.onEntityStarted s shardId entityId).indexed h
  | entityStopped shardId entityId =>
    exact (SameIndexes.onEntityStopped s shardId entityId).indexed h
  | getRememberedEntities shardId =>
    exact (SameIndexes.ite (.refl s) (.shipRememberedEntities s shardId)).indexed h

lemma Indexed.receiveShardingMessage (peer : Option NodeAddress) :
    (s.receiveShardingMessage config view message peer).Indexed [] := by
  unfold Coordinator.receiveShardingMessage
  split
  · exact h
  · split
    · exact h
    · split
      · split
        · exact SameIndexes.indexed (s := s) ⟨fun _ => rfl, rfl, rfl⟩ h
        · exact h
      · exact h.dispatchShardingMessage message

lemma Indexed.onLeaseAcquireResult (got : Bool) :
    (s.onLeaseAcquireResult config view got).Indexed [] := by
  unfold Coordinator.onLeaseAcquireResult
  split
  · exact h
  · split
    · exact SameIndexes.indexed (s := s) ⟨fun _ => rfl, rfl, rfl⟩ h
    · have hheld : Indexed [] { s with leaseState := .held, acquireBuffer := [] } :=
        SameIndexes.indexed (s := s) ⟨fun _ => rfl, rfl, rfl⟩ h
      exact List.foldlRecOn _ _ hheld fun _ h message _ => h.dispatchShardingMessage message

/-- The one condition of a step: a snapshot that is taken over fits. -/
def LoadsFitting (config : CoordinatorConfig) (s : Coordinator) (view : View) : Input → Prop
  | .loaded (some data) => data.numShards = some config.numShards → SnapshotFits view s data
  | _ => True

lemma Indexed.step {input : Input}
    (hloads : LoadsFitting config s view input) : (s.step config view input).Indexed [] := by
  have hstart : Indexed [] { s with outbox := [] } :=
    SameIndexes.indexed (s := s) ⟨fun _ => rfl, rfl, rfl⟩ h
  unfold Coordinator.step
  cases input with
  | message message peer => exact hstart.receiveShardingMessage message peer
  | memberRemoved address => exact hstart.onMemberRemoved address
  | leaderChanged => exact hstart.onLeaderChanged
  | loaded data =>
    cases data with
    | none => exact hstart
    | some data =>
      refine hstart.loadCoordinatorState fun hcount => ?_
      have hfits := hloads hcount
      exact ⟨hfits.keys, hfits.homes, hfits.named, hfits.taken, hfits.onFile⟩
  | rebalanceTick =>
    unfold handle
    dsimp only
    split
    · exact hstart.rebalanceTick
    · exact hstart
  | handOffTimeout shardId => exact hstart.onHandOffTimeout
  | reconcile => exact (SameIndexes.reconcileLease _).indexed hstart
  | leaseAcquireResult got => exact hstart.onLeaseAcquireResult got
  | leaseLost => exact hstart.onLeaseLost

lemma Indexed.run {steps : List (View × Input)}
    (hloads : Along config (LoadsFitting config) s steps) : (s.run config steps).Indexed [] := by
  induction steps generalizing s with
  | nil => exact h
  | cons x steps ih => exact ih (h.step hloads.1) hloads.2

end

lemma sameIndexes_preStart (log : List RememberEvent) : SameIndexes {} (preStart config log) :=
  SameIndexes.ite (SameIndexes.foldl SameIndexes.applyRememberEvent {} log) (.refl {})

/-- In a run whose loads all fit, the two indexes agree in every state. -/
theorem indexesAgree_of_loadsFitting (config : CoordinatorConfig) (log : List RememberEvent)
    (steps : List (View × Input))
    (hloads : Along config (LoadsFitting config) (preStart config log) steps) :
    ((preStart config log).run config steps).IndexesAgree :=
  ((sameIndexes_preStart log).indexed (indexed_of_empty rfl rfl rfl)).run hloads |>.toIndexesAgree

/-! ### A load that is late -/

def lateConfig : CoordinatorConfig where
  numShards := 10
  coordinatorStateStore := true

def hostNode (host : String) : NodeAddress := ⟨"app", host.toJs, 2552, none⟩

def regionPath : JsString := "/system/sharding/cart"

/-- The first host it is offered. -/
def firstHost : AllocationStrategy where
  allocate _ hosts _ := hosts.headD (hostNode "a")
  rebalance _ _ _ := .empty

/-- Hosts `a` and `b` are up, and this node leads. -/
def leading : View where
  isLeader := true
  members := [{ address := hostNode "a", status := .up, version := 1 },
    { address := hostNode "b", status := .up, version := 1 }]
  strategy := firstHost

/-- The last leader had shard 5 on host `a`. -/
def formerMap : CoordinatorStateData where
  regions := [⟨regionKey (hostNode "a") regionPath, hostNode "a", regionPath, false, [5]⟩]
  shardHome := [(5, regionKey (hostNode "a") regionPath)]
  numShards := some 10

/-- The region on host `b` registers, and brings shard 5. -/
def registersFive : Input :=
  .message (.register ⟨regionPath, hostNode "b", false, [5], 10⟩) (some (hostNode "b"))

lemma snapshotFits_formerMap : SnapshotFits leading {} formerMap where
  keys := by decide
  homes := by decide
  named := by decide
  taken region hmem _ shardId := by
    obtain rfl := mem_singleton.1 hmem
    simp [formerMap]
  onFile _ key _ hreg := absurd hreg (by simp [Registered, shardsOf])

/-- The load comes first, and the claim on shard 5 is refused. -/
theorem indexesAgree_of_loadsFitting_formerMap :
    ((preStart lateConfig []).run lateConfig [(leading, .leaderChanged),
      (leading, .loaded (some formerMap)), (leading, registersFive)]).IndexesAgree :=
  indexesAgree_of_loadsFitting lateConfig [] _
    ⟨trivial, fun _ => snapshotFits_formerMap, trivial, trivial⟩

/-- The load comes second: shard 5 is in the set of `a` and has its home on `b`. -/
theorem not_indexesAgree_late :
    ¬((preStart lateConfig []).run lateConfig [(leading, .leaderChanged),
      (leading, registersFive), (leading, .loaded (some formerMap))]).IndexesAgree := by
  intro hagree
  have hhome := ((hagree.holds_iff 5 (regionKey (hostNode "a") regionPath)).1
    ⟨⟨[5], nodup_singleton 5⟩, by decide +kernel, by decide⟩).1
  exact absurd hhome (by decide +kernel)

end ActorTs.Cluster.Sharding.Coordinator
