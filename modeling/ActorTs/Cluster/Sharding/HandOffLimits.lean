import ActorTs.Cluster.Sharding.HandOffTimers
import Mathlib

/-!
# The limits of placement and of hand-offs

Whatever an allocation strategy answers, a shard is placed on a region that may host it, and no more
hand-offs are in progress than the ceiling allows. That a timer belongs to the entry of its shard
holds as long as no tick begins a hand-off of a shard that is in progress.
-/

open List Option OrderedMap Bool Nat

namespace ActorTs.Cluster.Sharding

open HandOffTimers

namespace Coordinator

variable {config : CoordinatorConfig} {view : View} {s t : Coordinator} {shardId : ShardId}
  {key : JsString}

/-! ### Placement -/

/-- A region that may be given a shard. -/
structure MayHost (config : CoordinatorConfig) (view : View) (s : Coordinator) (key : JsString) :
    Prop where
  registered : ∃ info, s.regions.get? key = some info ∧ info.proxy = false ∧
    view.isUpMember info.node = true ∧
    ∀ role, config.role = some role → role ≠ [] →
      ∃ member, view.memberRecord info.node = some member ∧ member.hasRole role = true
  notRefused : s.refusedRegions.has key = false

lemma mayHost_of_eligible {info : RegionInfo}
    (h : (key, info) ∈ (s.candidateRegions config view).filter fun entry =>
      view.isUpMember entry.2.node) : MayHost config view s key := by
  obtain ⟨hcandidate, hup⟩ := mem_filter.1 h
  obtain ⟨hentry, hhosts⟩ := mem_filter.1 hcandidate
  rw [and_eq_true, not_eq_true', or_eq_false_iff] at hhosts
  obtain ⟨⟨hproxy, hrefused⟩, hrole⟩ := hhosts
  refine ⟨⟨info, (s.regions.get?_eq_some_iff key info).2 hentry, hproxy, hup,
    fun role hconfig hsome => ?_⟩, hrefused⟩
  rw [hconfig, filter_some, if_pos (decide_eq_true hsome), all_some] at hrole
  obtain ⟨member, hmember, hhas⟩ := any_eq_true _ _ |>.1 hrole
  exact ⟨member, hmember, hhas⟩

variable (view) (s)

lemma observeEligibleSet_snd (candidates : List RegionEntry) :
    (s.observeEligibleSet view candidates).2 =
      candidates.filter fun entry => view.isUpMember entry.2.node := by
  unfold observeEligibleSet
  dsimp only
  split <;> rfl

variable (config) (shardId)

/-- An allocation writes no home, or that of a region that may host the shard. -/
lemma shardHome_tryAllocate : (s.tryAllocate config view shardId).shardHome = s.shardHome ∨
      ∃ key, (s.tryAllocate config view shardId).shardHome = s.shardHome.set shardId key ∧
        MayHost config view s key := by
  have hobserve := SameIndexes.observeEligibleSet view s (s.candidateRegions config view)
  have heligible := observeEligibleSet_snd view s (s.candidateRegions config view)
  unfold tryAllocate
  dsimp only
  split
  · exact .inl hobserve.home
  · split
    · exact .inl hobserve.home
    · next key hplace =>
      obtain ⟨info, hmem⟩ := placementFor_mem hplace
      rw [heligible] at hmem
      refine .inr ⟨key, ?_, mayHost_of_eligible hmem⟩
      rw [(SameIndexes.announcePlacement _ _ _).home, shardHome_assign, hobserve.home]

lemma handOffs_tryAllocate :
    (s.tryAllocate config view shardId).rebalanceInProgress = s.rebalanceInProgress := by
  rcases tryAllocate_cases s shardId with hsame | ⟨t, key, hst, -, hsame⟩
  · exact hsame.handOffs
  · rw [hsame.handOffs, rebalanceInProgress_assign, hst.handOffs]

/-! ### What leaves the hand-offs alone -/

lemma handOffs_endHandOff (fromKey : JsString) :
    (s.endHandOff config view shardId fromKey).rebalanceInProgress =
      s.rebalanceInProgress.delete shardId := by
  unfold endHandOff releaseFromPreviousOwner
  rw [handOffs_tryAllocate]
  exact (deleteRegionShard_rest _ shardId fromKey).2

lemma handOffs_rehome :
    (s.rehome config view shardId).rebalanceInProgress = s.rebalanceInProgress.delete shardId :=
  handOffs_tryAllocate config view _ shardId

variable {shardId}

lemma handOffs_onGetShardHome (message : GetShardHome) :
    (s.onGetShardHome config view message).rebalanceInProgress = s.rebalanceInProgress := by
  have hseen := (SameIndexes.markRegionSeen view s message.requester message.requesterNode).handOffs
  unfold onGetShardHome
  dsimp only
  split
  · exact hseen
  · split
    · exact hseen
    · split
      · exact (SameIndexes.replyTo _ _ _ _).handOffs.trans hseen
      · split
        · exact hseen
        · exact (handOffs_tryAllocate _ _ _ _).trans hseen

lemma handOffs_adopt (key : JsString) (s : Coordinator) (adopted : List ShardId) :
    (adopted.foldl (adopt key) s).rebalanceInProgress = s.rebalanceInProgress := by
  induction adopted generalizing s with
  | nil => rfl
  | cons shardId adopted ih =>
    refine (ih _).trans ?_
    unfold adopt
    split
    · rfl
    · split
      · rfl
      · exact (deleteRegionShard_rest s shardId _).2

lemma handOffs_onRegister (message : RegisterRegion) :
    (s.onRegister config view message).rebalanceInProgress = s.rebalanceInProgress := by
  unfold onRegister
  split
  · rfl
  · exact (SameIndexes.answerRegister _ message _).handOffs.trans (handOffs_adopt _ _ _)

lemma handOffs_loadCoordinatorState (data : CoordinatorStateData) :
    (s.loadCoordinatorState config view data).rebalanceInProgress = s.rebalanceInProgress := by
  have hloaded := (foldl_seedHome_rest (data.regions.foldl (seedRegion view) s)
    data.shardHome).2.trans (foldl_seedRegion_rest view s data.regions).2
  unfold loadCoordinatorState
  dsimp only
  split
  · rfl
  · split
    · exact hloaded
    · exact (SameIndexes.foldl (fun s (region : RegionInfoData) =>
        SameIndexes.replyTo s region.path region.node .registrationRequest) _ _).handOffs.trans
        hloaded

lemma handOffs_dispatchShardingMessage (message : ToCoordinator)
    (hcomplete : ∀ shardId region node, message ≠ .handOffComplete shardId region node)
    (hterminated : ∀ region node, message ≠ .regionTerminated region node) :
    (s.dispatchShardingMessage config view message).rebalanceInProgress =
      s.rebalanceInProgress := by
  cases message with
  | register message => exact handOffs_onRegister config view s message
  | getShardHome message => exact handOffs_onGetShardHome config view s message
  | handOffComplete shardId region node => exact absurd rfl (hcomplete shardId region node)
  | beginHandOffAcknowledgment shardId => rfl
  | regionTerminated region node => exact absurd rfl (hterminated region node)
  | regionHeartbeat region node => exact (SameIndexes.onRegionHeartbeat s region node).handOffs
  | entityStarted shardId entityId =>
    exact (SameIndexes.onEntityStarted s shardId entityId).handOffs
  | entityStopped shardId entityId =>
    exact (SameIndexes.onEntityStopped s shardId entityId).handOffs
  | getRememberedEntities shardId =>
    unfold dispatchShardingMessage onGetRememberedEntities
    dsimp only
    split
    · rfl
    · exact (SameIndexes.shipRememberedEntities s shardId).handOffs

/-! ### What a tick begins -/

variable {s}

lemma rounds_perm (queues : List (List ShardId)) (n : ℕ) :
    ((range n).flatMap fun round => queues.filterMap fun queue => queue[round]?).Perm
      (queues.flatMap fun queue => queue.take n) := by
  induction queues with
  | nil => simp
  | cons queue queues ih =>
    have hqueue : (range n).flatMap (fun round => queue[round]?.toList) = queue.take n := by
      clear ih
      induction n with
      | zero => rfl
      | succ n ih => rw [range_succ, flatMap_append, ih, take_add_one]; simp
    have hsplit : (fun round : ℕ => (queue :: queues).filterMap fun queue => queue[round]?) =
        fun round => queue[round]?.toList ++ queues.filterMap fun queue => queue[round]? := by
      funext round
      rw [filterMap_cons]
      cases queue[round]? <;> rfl
    rw [hsplit, flatMap_cons, ← hqueue]
    exact (flatMap_append_perm _ _ _).symm.trans (ih.append_left _)

lemma roundRobin_perm (queues : List (List ShardId)) :
    (roundRobin queues).Perm queues.flatten := by
  have hlongest : ∀ (queues : List (List ShardId)) (n : ℕ),
      n ≤ queues.foldl (fun n queue => max n queue.length) n ∧ ∀ queue ∈ queues,
        queue.length ≤ queues.foldl (fun n queue => max n queue.length) n := by
    intro queues
    induction queues with
    | nil => exact fun n => ⟨le_rfl, by simp⟩
    | cons queue queues ih =>
      intro n
      obtain ⟨hle, hmem⟩ := ih (max n queue.length)
      exact ⟨(le_max_left ..).trans hle, forall_mem_cons.2 ⟨(le_max_right ..).trans hle, hmem⟩⟩
  refine (rounds_perm queues _).trans (.of_eq ?_)
  rw [← flatMap_id]
  exact flatMap_congr fun queue hqueue => take_of_length_le ((hlongest queues 0).2 queue hqueue)

/-- The shards by their owners, and the shards without one left out. -/
def byOwner (s : Coordinator) (shards : List ShardId) : OrderedMap JsString (List ShardId) :=
  shards.foldl (fun byOwner shardId =>
    match s.shardHome.get? shardId with
    | none => byOwner
    | some ownerKey => byOwner.set ownerKey ((byOwner.get? ownerKey).getD [] ++ [shardId])) .empty

lemma total_byOwner (s : Coordinator) (shards : List ShardId) (p : ShardId → Bool) :
    (s.byOwner shards).total (countP p) =
      shards.countP fun shardId => p shardId && (s.shardHome.get? shardId).isSome := by
  have hfold : ∀ (shards : List ShardId) (owners : OrderedMap JsString (List ShardId)),
      (shards.foldl (fun byOwner shardId =>
        match s.shardHome.get? shardId with
        | none => byOwner
        | some ownerKey => byOwner.set ownerKey ((byOwner.get? ownerKey).getD [] ++ [shardId]))
        owners).total (countP p) = owners.total (countP p) +
          shards.countP fun shardId => p shardId && (s.shardHome.get? shardId).isSome := by
    intro shards
    induction shards with
    | nil => exact fun owners => rfl
    | cons shardId shards ih =>
      intro owners
      refine (ih _).trans ?_
      rw [countP_cons]
      dsimp only
      cases s.shardHome.get? shardId with
      | none => simp
      | some ownerKey =>
        have htotal := total_set (countP p) owners ownerKey
          ((owners.get? ownerKey).getD [] ++ [shardId])
        have hbefore : (owners.get? ownerKey).elim 0 (countP p) =
            ((owners.get? ownerKey).getD []).countP p := by
          cases owners.get? ownerKey <;> rfl
        rw [hbefore, countP_append, countP_singleton] at htotal
        simp only [isSome_some, Bool.and_true]
        omega
  exact (hfold shards .empty).trans (Nat.zero_add _)

/-- The shards of each owner, in the order in which they take turns. -/
def queues (s : Coordinator) (shards : List ShardId) : List (List ShardId) :=
  ((s.byOwner shards).entries.insertionSort fun left right => left.1 ≤ right.1).map
    fun owned => owned.2.insertionSort (· ≤ ·)

variable (s) (shards : List ShardId)

/-- What is summed up over the queues may be summed up over the owners. -/
lemma sum_queues {f g : List ShardId → ℕ}
    (hf : ∀ owned ∈ (s.byOwner shards).entries, f (owned.2.insertionSort (· ≤ ·)) = g owned.2) :
    ((s.queues shards).map f).sum = (s.byOwner shards).total g := by
  rw [queues, List.map_map, total]
  refine (((s.byOwner shards).entries.perm_insertionSort _).map _).sum_eq.trans ?_
  exact congrArg List.sum (map_congr_left hf)

lemma countP_roundRobin (p : ShardId → Bool) :
    (roundRobin (s.queues shards)).countP p =
      shards.countP fun shardId => p shardId && (s.shardHome.get? shardId).isSome := by
  rw [(roundRobin_perm _).countP_eq, countP_flatten, ← total_byOwner]
  exact sum_queues s shards fun owned _ => (owned.2.perm_insertionSort (· ≤ ·)).countP_eq p

/-- What is handed off is the beginning of the rounds. -/
lemma shardsWithinBudget_begins (budget : Option ℕ) :
    ∃ n, s.shardsWithinBudget shards budget = (roundRobin (s.queues shards)).take n ∧
      (budget = some n ∨ budget = none ∧ n = (roundRobin (s.queues shards)).length) := by
  cases budget with
  | none => exact ⟨_, (take_length).symm, .inr ⟨rfl, rfl⟩⟩
  | some budget => exact ⟨budget, rfl, .inl rfl⟩

lemma nodup_shardsWithinBudget {shards : List ShardId} (hnodup : shards.Nodup)
    (budget : Option ℕ) : (s.shardsWithinBudget shards budget).Nodup := by
  obtain ⟨n, hbegin, -⟩ := s.shardsWithinBudget_begins shards budget
  rw [hbegin]
  refine Nodup.sublist (take_sublist _ _) (nodup_iff_count_le_one.2 fun x => ?_)
  refine (countP_roundRobin s shards (· == x)).trans_le ?_
  refine (countP_mono_left fun y _ => ?_).trans (nodup_iff_count_le_one.1 hnodup x)
  exact fun h => (and_eq_true_iff.1 h).1

lemma length_shardsWithinBudget (budget : ℕ) :
    (s.shardsWithinBudget shards (some budget)).length ≤ budget :=
  length_take_le _ _

lemma nodup_handOffsToBegin (s : Coordinator) :
    (s.handOffsToBegin config view).Nodup := by
  unfold handOffsToBegin
  dsimp only
  split
  · exact nodup_nil
  · exact nodup_shardsWithinBudget _ (List.Nodup.filter _ (OrderedSet.nodup _)) _

variable {config}

lemma length_handOffsToBegin (s : Coordinator) {ceiling : ℕ}
    (hceiling : config.rebalanceCeiling = some ceiling) :
    (s.handOffsToBegin config view).length ≤ ceiling - s.rebalanceInProgress.size := by
  have hobserve := SameIndexes.observeEligibleSet view s (s.candidateRegions config view)
  unfold handOffsToBegin
  dsimp only
  split
  · exact zero_le _
  · rw [hceiling, hobserve.handOffs]
    exact length_shardsWithinBudget _ _ _

lemma handOffs_observed (config : CoordinatorConfig) (view : View) (s : Coordinator) :
    (s.observed config view).rebalanceInProgress = s.rebalanceInProgress :=
  (SameIndexes.observeEligibleSet view s (s.candidateRegions config view)).handOffs

end Coordinator

namespace TimedCoordinator

open Coordinator (Input)

variable {config : CoordinatorConfig} {timeoutMs : ℚ} {view : View} {t t' t'' : TimedCoordinator}

/-! ### The coordinator in it -/

lemma coordinator_foldl {α : Type*} {f : TimedCoordinator → α → TimedCoordinator}
    {g : Coordinator → α → Coordinator} (h : ∀ t a, (f t a).coordinator = g t.coordinator a)
    (t : TimedCoordinator) (l : List α) : (l.foldl f t).coordinator = l.foldl g t.coordinator :=
  (foldl_hom _ fun t a => (h t a).symm).symm

variable (t)

lemma coordinator_onRegionTerminated (region : JsString) (node : NodeAddress) :
    (t.onRegionTerminated config view region node).coordinator =
      t.coordinator.onRegionTerminated config view region node := by
  unfold onRegionTerminated Coordinator.onRegionTerminated
  dsimp only
  cases t.coordinator.regions.get? (regionKey node region) with
  | none => rfl
  | some info => exact coordinator_foldl (g := Coordinator.rehome config view) (fun _ _ => rfl) _ _

lemma coordinator_onMemberRemoved (address : NodeAddress) :
    (t.onMemberRemoved config view address).coordinator =
      t.coordinator.onMemberRemoved config view address := by
  refine coordinator_foldl (fun t info => ?_) t _
  split
  · exact coordinator_onRegionTerminated t _ _
  · rfl

lemma coordinator_sweepStaleRegions : (t.sweepStaleRegions config view).coordinator =
      t.coordinator.sweepStaleRegions config view := by
  unfold sweepStaleRegions Coordinator.sweepStaleRegions
  split
  · refine coordinator_foldl (fun t entry => ?_) t _
    unfold sweepRegion Coordinator.sweepRegion
    dsimp only
    split
    · rfl
    · split
      · exact congrArg (fun s : Coordinator => s.replyTo _ _ _)
          (coordinator_onRegionTerminated t _ _)
      · rfl
  · rfl

lemma coordinator_rebalanceTick : (t.rebalanceTick config timeoutMs view).coordinator =
      t.coordinator.rebalanceTick config view := by
  rw [Coordinator.rebalanceTick_eq, ← coordinator_sweepStaleRegions]
  exact coordinator_foldl (fun _ _ => rfl) _ _

lemma coordinator_dispatchShardingMessage (message : ToCoordinator) :
    (t.dispatchShardingMessage config view message).coordinator =
      t.coordinator.dispatchShardingMessage config view message := by
  cases message with
  | regionTerminated region node => exact coordinator_onRegionTerminated t region node
  | _ => rfl

lemma coordinator_onLeaseAcquireResult (got : Bool) :
    (t.onLeaseAcquireResult config view got).coordinator =
      t.coordinator.onLeaseAcquireResult config view got := by
  unfold onLeaseAcquireResult
  split
  · rfl
  · next hgot =>
    obtain ⟨hacquiring, hleads⟩ := not_or.1 hgot
    unfold Coordinator.onLeaseAcquireResult
    rw [if_neg hacquiring, if_neg hleads]
    exact coordinator_foldl coordinator_dispatchShardingMessage _ _

/-- The coordinator takes the step, but for a timer that the scheduler does not have. -/
lemma coordinator_step (input : Input)
    (hdue : ∀ shardId, input = .handOffTimeout shardId → t.timers.due view.now shardId ≠ none) :
    (t.step config timeoutMs view input).coordinator = t.coordinator.step config view input := by
  unfold step Coordinator.step
  generalize hcleared : t.plain (fun s => { s with outbox := [] }) = cleared
  have hsame : cleared.coordinator = { t.coordinator with outbox := [] } := by
    rw [← hcleared]
    rfl
  have htimers : cleared.timers = t.timers := by
    rw [← hcleared]
    rfl
  rw [← hsame]
  cases input with
  | message message peer =>
    unfold handle Coordinator.handle receiveShardingMessage Coordinator.receiveShardingMessage
    dsimp only
    split
    · rfl
    · split
      · rfl
      · split
        · next hlease =>
          unfold plain
          dsimp only
          rw [if_pos hlease]
        · exact coordinator_dispatchShardingMessage cleared message
  | memberRemoved address => exact coordinator_onMemberRemoved cleared address
  | rebalanceTick =>
    unfold handle Coordinator.handle
    dsimp only
    split
    · exact coordinator_rebalanceTick cleared
    · rfl
  | handOffTimeout shardId =>
    unfold handle onHandOffTimeout
    dsimp only
    rw [htimers]
    split
    · next hnone => exact absurd hnone (hdue shardId rfl)
    · rfl
  | leaseAcquireResult got => exact coordinator_onLeaseAcquireResult cleared got
  | leaderChanged => rfl
  | loaded data => rfl
  | reconcile => rfl
  | leaseLost => rfl

/-! ### Timers and entries -/

variable {t}

/-- The entries are those of the hand-offs in progress, and a timer that is scheduled is that of
the entry of its shard. -/
structure Coherent (t : TimedCoordinator) : Prop where
  entries : ∀ shardId, t.timers.entries.has shardId = t.coordinator.rebalanceInProgress.has shardId
  current : ∀ timer ∈ t.timers.scheduled, t.timers.entries.get? timer.shardId = some timer

/-- Entries go with their timers, and none is made. -/
structure Lessens (t t' : TimedCoordinator) : Prop where
  coherent : t.Coherent → t'.Coherent
  size : t'.coordinator.rebalanceInProgress.size ≤ t.coordinator.rebalanceInProgress.size

namespace Lessens

lemma refl (t : TimedCoordinator) : Lessens t t := ⟨id, le_rfl⟩

lemma trans (h : Lessens t t') (h' : Lessens t' t'') : Lessens t t'' :=
  ⟨fun ht => h'.coherent (h.coherent ht), h'.size.trans h.size⟩

lemma foldl {α : Type*} {f : TimedCoordinator → α → TimedCoordinator}
    (h : ∀ t a, Lessens t (f t a)) (t : TimedCoordinator) (l : List α) :
    Lessens t (l.foldl f t) :=
  foldlRecOn l f (refl t) fun t' ht a _ => ht.trans (h t' a)

lemma same (hoffs : t'.coordinator.rebalanceInProgress = t.coordinator.rebalanceInProgress)
    (htimers : t'.timers = t.timers) : Lessens t t' := by
  refine ⟨fun ht => ⟨fun shardId => ?_, ?_⟩, ?_⟩
  · rw [hoffs, htimers]
    exact ht.entries shardId
  · rw [htimers]
    exact ht.current
  · rw [hoffs]

lemma drop (shardId : ShardId) (hoffs : t'.coordinator.rebalanceInProgress =
      t.coordinator.rebalanceInProgress.delete shardId)
    (htimers : t'.timers = t.timers.cancel shardId) : Lessens t t' := by
  refine ⟨fun ht => ?_, ?_⟩
  · unfold cancel at htimers
    cases hentry : t.timers.entries.get? shardId with
    | none =>
      rw [hentry] at htimers
      have hgone : t.coordinator.rebalanceInProgress.has shardId = false := by
        rw [← ht.entries shardId, has, hentry]
        rfl
      refine ⟨fun shardId' => ?_, ?_⟩
      · rw [hoffs, htimers, ht.entries shardId', has, has, get?_delete]
        split
        · next heq => rw [← heq, ← has, hgone]; rfl
        · rfl
      · rw [htimers]
        exact ht.current
    | some timer =>
      rw [hentry] at htimers
      refine ⟨fun shardId' => ?_, fun timer' htimer' => ?_⟩
      · rw [hoffs, htimers, has, has, get?_delete, get?_delete]
        split
        · rfl
        · exact ht.entries shardId'
      · rw [htimers] at htimer' ⊢
        obtain ⟨hmem, hne⟩ := mem_filter.1 htimer'
        have hcurrent := ht.current timer' hmem
        rw [get?_delete, if_neg fun heq => ?_]
        · exact hcurrent
        · rw [← heq, hentry] at hcurrent
          exact of_decide_eq_true hne (some.inj hcurrent).symm
  · rw [hoffs]
    exact size_delete_le _ _

lemma clear (hoffs : t'.coordinator.rebalanceInProgress = .empty)
    (htimers : t'.timers = t.timers.cancelAll) : Lessens t t' := by
  refine ⟨fun ht => ⟨fun shardId => ?_, fun timer htimer => ?_⟩, ?_⟩
  · rw [hoffs, htimers]
    rfl
  · rw [htimers] at htimer
    obtain ⟨hmem, hother⟩ := mem_filter.1 htimer
    have hentry := (get?_eq_some_iff _ _ _).1 (ht.current timer hmem)
    exact absurd (mem_map_of_mem hentry) (of_decide_eq_true hother)
  · rw [hoffs]
    exact zero_le _

end Lessens

variable (t) (shardId : ShardId)

lemma lessens_rehome : Lessens t (t.rehome config view shardId) :=
  .drop shardId (Coordinator.handOffs_rehome config view t.coordinator shardId) rfl

lemma lessens_onRegionTerminated (region : JsString)
    (node : NodeAddress) : Lessens t (t.onRegionTerminated config view region node) := by
  unfold onRegionTerminated
  dsimp only
  split
  · exact .refl t
  · refine Lessens.trans ?_ (.foldl lessens_rehome _ _)
    exact .same rfl rfl

lemma lessens_onMemberRemoved (address : NodeAddress) :
    Lessens t (t.onMemberRemoved config view address) := by
  refine .foldl (fun t info => ?_) t _
  split
  · exact lessens_onRegionTerminated t _ _
  · exact .refl t

lemma lessens_sweepStaleRegions : Lessens t (t.sweepStaleRegions config view) := by
  unfold sweepStaleRegions
  split
  · refine .foldl (fun t entry => ?_) t _
    unfold sweepRegion
    dsimp only
    split
    · refine .same ?_ rfl
      unfold plain Coordinator.updateRegion
      dsimp only
      split <;> rfl
    · split
      · exact (lessens_onRegionTerminated t _ _).trans (.same rfl rfl)
      · exact .refl t
  · exact .refl t

lemma lessens_onHandOffComplete (region : JsString)
    (node : NodeAddress) : Lessens t (t.onHandOffComplete config view shardId region node) := by
  have hseen := (Coordinator.SameIndexes.markRegionSeen view t.coordinator region node).handOffs
  unfold onHandOffComplete Coordinator.onHandOffComplete
  dsimp only
  split
  · next hnone =>
    rw [hnone, if_neg (Option.some_ne_none _).symm]
    exact .same hseen rfl
  · next fromKey hsome =>
    rw [hsome]
    split
    · next hother =>
      rw [if_neg fun heq => hother (some.inj heq)]
      exact .same hseen rfl
    · next hsender =>
      rw [if_pos (congrArg some (not_not.1 hsender))]
      refine .drop shardId ?_ rfl
      rw [Coordinator.handOffs_endHandOff, hseen]

variable {t}

lemma lessens_onHandOffTimeout (ht : t.Coherent) (shardId : ShardId) :
    Lessens t (t.onHandOffTimeout config view shardId) := by
  unfold onHandOffTimeout
  split
  · exact .refl t
  · next timer hdue =>
    have hmem := mem_of_find?_eq_some hdue
    have hfires := find?_some hdue
    have hshard : timer.shardId = shardId := (of_decide_eq_true hfires).1
    have hentry := ht.current timer hmem
    rw [hshard] at hentry
    have hthere : t.coordinator.rebalanceInProgress.has shardId = true := by
      rw [← ht.entries, has, hentry]
      rfl
    obtain ⟨fromKey, hfrom⟩ := isSome_iff_exists.1 hthere
    refine .drop shardId ?_ ?_
    · unfold Coordinator.onHandOffTimeout
      rw [hfrom]
      exact Coordinator.handOffs_endHandOff _ _ _ _ _
    · unfold fire cancel
      rw [hentry, hshard]

variable (t) (message : ToCoordinator)

lemma lessens_dispatchShardingMessage :
    Lessens t (t.dispatchShardingMessage config view message) := by
  unfold dispatchShardingMessage
  split
  · exact lessens_onHandOffComplete t _ _ _
  · exact lessens_onRegionTerminated t _ _
  · next hcomplete hterminated =>
    exact .same (Coordinator.handOffs_dispatchShardingMessage config view _ _ hcomplete
      hterminated) rfl

lemma lessens_receiveShardingMessage (peer : Option NodeAddress) :
    Lessens t (t.receiveShardingMessage config view message peer) := by
  unfold receiveShardingMessage
  split
  · exact .refl t
  · next hleads =>
    split
    · exact .refl t
    · next hspeaks =>
      split
      · next hlease =>
        refine .same ?_ rfl
        unfold plain Coordinator.receiveShardingMessage
        dsimp only
        rw [if_neg hleads, if_neg hspeaks, if_pos hlease]
        split <;> rfl
      · exact lessens_dispatchShardingMessage t message

lemma lessens_onLeaseAcquireResult (got : Bool) :
    Lessens t (t.onLeaseAcquireResult config view got) := by
  unfold onLeaseAcquireResult
  split
  · next hgot =>
    refine .same ?_ rfl
    unfold plain Coordinator.onLeaseAcquireResult
    dsimp only
    split
    · rfl
    · next hacquiring =>
      rw [if_pos (hgot.resolve_left hacquiring)]
  · refine Lessens.trans ?_ (.foldl lessens_dispatchShardingMessage _ _)
    exact .same rfl rfl

lemma lessens_onLeaderChanged : Lessens t (t.onLeaderChanged view) := by
  unfold onLeaderChanged Coordinator.onLeaderChanged
  split
  · exact .refl t
  · exact .clear rfl rfl

lemma lessens_onLeaseLost : Lessens t t.onLeaseLost := by
  unfold onLeaseLost Coordinator.onLeaseLost
  split
  · exact .refl t
  · exact .clear rfl rfl

/-! ### Steps and runs -/

variable {t}

/-- The hand-off of a shard that is in progress is not begun. -/
def BeginsNoOther (config : CoordinatorConfig) (t : TimedCoordinator) (view : View) :
    Input → Prop
  | .rebalanceTick =>
    let swept := { t.coordinator with outbox := [] }.sweepStaleRegions config view
    ∀ shardId ∈ swept.handOffsToBegin config view,
      swept.rebalanceInProgress.has shardId = false
  | _ => True

lemma handOffs_beginHandOff (s : Coordinator) (shardId : ShardId) :
    (s.beginHandOff shardId).rebalanceInProgress =
      match s.homeRegion shardId with
      | none => s.rebalanceInProgress
      | some (ownerKey, _) => s.rebalanceInProgress.set shardId ownerKey := by
  unfold Coordinator.beginHandOff
  cases s.homeRegion shardId <;> rfl

lemma Coherent.beginHandOff (ht : t.Coherent) {shardId : ShardId}
    (hfresh : t.coordinator.rebalanceInProgress.has shardId = false) :
    (t.beginHandOff timeoutMs view shardId).Coherent := by
  have hoffs := handOffs_beginHandOff t.coordinator shardId
  unfold TimedCoordinator.beginHandOff
  cases hhome : t.coordinator.homeRegion shardId with
  | none =>
    rw [hhome] at hoffs
    refine ⟨fun shardId' => ?_, ht.current⟩
    rw [hoffs]
    exact ht.entries shardId'
  | some home =>
    rw [hhome] at hoffs
    have hnone : t.timers.entries.get? shardId = none := by
      rw [← ht.entries, has] at hfresh
      exact isNone_iff_eq_none.1 (by rw [← not_isSome, hfresh]; rfl)
    unfold arm
    refine ⟨fun shardId' => ?_, fun timer htimer => ?_⟩
    · dsimp only at hoffs ⊢
      rw [hoffs, has, has, get?_set, get?_set]
      split
      · rfl
      · exact ht.entries shardId'
    · dsimp only at htimer ⊢
      rw [get?_set]
      rcases mem_append.1 htimer with hmem | hnew
      · have hcurrent := ht.current timer hmem
        rw [if_neg fun heq => ?_]
        · exact hcurrent
        · rw [← heq, hnone] at hcurrent
          cases hcurrent
      · obtain rfl := mem_singleton.1 hnew
        rw [if_pos rfl]

lemma has_beginHandOff {s : Coordinator} {shardId shardId' : ShardId} (hne : shardId ≠ shardId') :
    (s.beginHandOff shardId).rebalanceInProgress.has shardId' =
      s.rebalanceInProgress.has shardId' := by
  rw [handOffs_beginHandOff]
  cases s.homeRegion shardId with
  | none => rfl
  | some home =>
    rw [has, has, get?_set, if_neg hne]

lemma Coherent.beginHandOffs (ht : t.Coherent) {shardIds : List ShardId} (hnodup : shardIds.Nodup)
    (hfresh : ∀ shardId ∈ shardIds, t.coordinator.rebalanceInProgress.has shardId = false) :
    (shardIds.foldl (TimedCoordinator.beginHandOff timeoutMs view) t).Coherent := by
  induction shardIds generalizing t with
  | nil => exact ht
  | cons shardId shardIds ih =>
    obtain ⟨hnot, hrest⟩ := nodup_cons.1 hnodup
    refine ih (ht.beginHandOff (hfresh shardId mem_cons_self)) hrest fun shardId' hmem => ?_
    have hne : shardId ≠ shardId' := by
      rintro rfl
      exact hnot hmem
    refine (has_beginHandOff hne).trans ?_
    exact hfresh shardId' (mem_cons_of_mem _ hmem)

lemma size_beginHandOffs (shardIds : List ShardId) (s : Coordinator) :
    (shardIds.foldl Coordinator.beginHandOff s).rebalanceInProgress.size ≤
      s.rebalanceInProgress.size + shardIds.length := by
  induction shardIds generalizing s with
  | nil => exact le_rfl
  | cons shardId shardIds ih =>
    refine (ih _).trans ?_
    have hone : (s.beginHandOff shardId).rebalanceInProgress.size ≤
        s.rebalanceInProgress.size + 1 := by
      rw [handOffs_beginHandOff]
      cases s.homeRegion shardId with
      | none => exact le_succ _
      | some home => exact size_set_le _ _ _
    rw [length_cons]
    omega

lemma Coherent.rebalanceTick (ht : t.Coherent)
    (hfresh : ∀ shardId ∈ (t.coordinator.sweepStaleRegions config view).handOffsToBegin config view,
      (t.coordinator.sweepStaleRegions config view).rebalanceInProgress.has shardId = false) :
    (t.rebalanceTick config timeoutMs view).Coherent := by
  have hswept : Lessens t (t.sweepStaleRegions config view) := lessens_sweepStaleRegions t
  rw [← coordinator_sweepStaleRegions] at hfresh
  have hobserved := Coordinator.handOffs_observed config view
    (t.sweepStaleRegions config view).coordinator
  refine Coherent.beginHandOffs ?_ (Coordinator.nodup_handOffsToBegin _ _ _) fun shardId hmem => ?_
  · have hsame : Lessens (t.sweepStaleRegions config view)
        ((t.sweepStaleRegions config view).plain (Coordinator.observed config view)) :=
      .same hobserved rfl
    exact hsame.coherent (hswept.coherent ht)
  · unfold plain
    rw [hobserved]
    exact hfresh shardId hmem

/-- No more hand-offs are in progress than are allowed. -/
def Bounded (config : CoordinatorConfig) (t : TimedCoordinator) : Prop :=
  ∀ ceiling, config.rebalanceCeiling = some ceiling →
    t.coordinator.rebalanceInProgress.size ≤ ceiling

lemma Bounded.rebalanceTick (ht : Bounded config t) :
    Bounded config (t.rebalanceTick config timeoutMs view) := by
  intro ceiling hceiling
  have hswept : Lessens t (t.sweepStaleRegions config view) := lessens_sweepStaleRegions t
  have hsize := hswept.size
  have hbefore := ht ceiling hceiling
  rw [coordinator_sweepStaleRegions] at hsize
  rw [coordinator_rebalanceTick, Coordinator.rebalanceTick_eq]
  refine (size_beginHandOffs _ _).trans ?_
  have hroom := Coordinator.length_handOffsToBegin view
    (t.coordinator.sweepStaleRegions config view) hceiling
  rw [Coordinator.handOffs_observed]
  omega

variable (t)

/-- All but a tick lessens the hand-offs, if the timers are those of the entries. -/
lemma lessens_handle {input : Input} (hinput : input ≠ .rebalanceTick)
    (htimeout : ∀ shardId, input = .handOffTimeout shardId → t.Coherent) :
    Lessens t (t.handle config timeoutMs view input) := by
  cases input with
  | message message peer => exact lessens_receiveShardingMessage t message peer
  | memberRemoved address => exact lessens_onMemberRemoved t address
  | leaderChanged => exact lessens_onLeaderChanged t
  | loaded data =>
    cases data with
    | none => exact .refl t
    | some data =>
      exact .same (Coordinator.handOffs_loadCoordinatorState config view t.coordinator data) rfl
  | rebalanceTick => exact absurd rfl hinput
  | handOffTimeout shardId => exact lessens_onHandOffTimeout (htimeout shardId rfl) shardId
  | reconcile =>
    exact .same (Coordinator.SameIndexes.reconcileLease t.coordinator).handOffs rfl
  | leaseAcquireResult got => exact lessens_onLeaseAcquireResult t got
  | leaseLost => exact lessens_onLeaseLost t

lemma size_onHandOffTimeout :
    (t.onHandOffTimeout config view shardId).coordinator.rebalanceInProgress.size ≤
      t.coordinator.rebalanceInProgress.size := by
  unfold onHandOffTimeout Coordinator.onHandOffTimeout
  split
  · exact le_rfl
  · dsimp only
    split
    · exact le_rfl
    · rw [Coordinator.handOffs_endHandOff]
      exact size_delete_le _ _

variable {t}

lemma Bounded.step (ht : Bounded config t) (input : Input) :
    Bounded config (t.step config timeoutMs view input) := by
  have hcleared : Bounded config (t.plain fun s => { s with outbox := [] }) := ht
  have hof : ∀ {t' t'' : TimedCoordinator}, Bounded config t' →
      t''.coordinator.rebalanceInProgress.size ≤ t'.coordinator.rebalanceInProgress.size →
      Bounded config t'' := fun h hle ceiling hceiling => hle.trans (h ceiling hceiling)
  unfold TimedCoordinator.step
  by_cases htick : input = .rebalanceTick
  · subst htick
    unfold handle
    dsimp only
    split
    · exact hcleared.rebalanceTick
    · exact hcleared
  · by_cases htimeout : ∃ shardId, input = .handOffTimeout shardId
    · obtain ⟨shardId, rfl⟩ := htimeout
      exact hof hcleared (size_onHandOffTimeout _ shardId)
    · exact hof hcleared (lessens_handle _ htick fun shardId h => absurd ⟨shardId, h⟩ htimeout).size

lemma Coherent.step (ht : t.Coherent) {input : Input}
    (hfresh : BeginsNoOther config t view input) :
    (t.step config timeoutMs view input).Coherent := by
  have hcleared : (t.plain fun s => { s with outbox := [] }).Coherent := ⟨ht.entries, ht.current⟩
  unfold TimedCoordinator.step
  by_cases htick : input = .rebalanceTick
  · subst htick
    unfold handle
    dsimp only
    split
    · exact hcleared.rebalanceTick hfresh
    · exact hcleared
  · exact (lessens_handle _ htick fun _ _ => hcleared).coherent hcleared

lemma Bounded.run (ht : Bounded config t) (steps : List (View × Input)) :
    Bounded config (t.run config timeoutMs steps) := by
  induction steps generalizing t with
  | nil => exact ht
  | cons x steps ih => exact ih (ht.step x.2)

lemma Coherent.run (ht : t.Coherent) {steps : List (View × Input)}
    (hfresh : Along config timeoutMs (BeginsNoOther config) t steps) :
    (t.run config timeoutMs steps).Coherent := by
  induction steps generalizing t with
  | nil => exact ht
  | cons x steps ih => exact ih (ht.step hfresh.1) hfresh.2

/-- Whatever the strategy answers, an allocation places a shard on a region that may host it, and no
more hand-offs are in progress than the ceiling allows. Where no tick begins a hand-off of a shard
that is in progress, a hand-off is forced by a timer of its own, when that is due. -/
theorem limits_hold (config : CoordinatorConfig) (timeoutMs : ℚ) (log : List RememberEvent)
    (steps : List (View × Input))
    (hfresh : Along config timeoutMs (BeginsNoOther config)
      { coordinator := .preStart config log } steps) :
    let t := ({ coordinator := .preStart config log } : TimedCoordinator).run config timeoutMs steps
    (∀ (s : Coordinator) view shardId, (s.tryAllocate config view shardId).shardHome = s.shardHome ∨
        ∃ key, (s.tryAllocate config view shardId).shardHome = s.shardHome.set shardId key ∧
          s.MayHost config view key) ∧
      (∀ ceiling, config.rebalanceCeiling = some ceiling →
        t.coordinator.rebalanceInProgress.size ≤ ceiling) ∧
      (∀ timer ∈ t.timers.scheduled, t.timers.entries.get? timer.shardId = some timer ∧
        t.coordinator.rebalanceInProgress.has timer.shardId = true) ∧
      ∀ now shardId timer, t.timers.due now shardId = some timer →
        t.timers.entries.get? shardId = some timer ∧ timer.dueAtMs ≤ now := by
  intro t
  have hoffs : (Coordinator.preStart config log).rebalanceInProgress = .empty :=
    (Coordinator.sameIndexes_preStart log).handOffs
  have hcoherent : t.Coherent := by
    refine Coherent.run ⟨fun shardId => ?_, fun timer h => absurd h not_mem_nil⟩ hfresh
    rw [hoffs]
    rfl
  have hbounded : Bounded config t := by
    refine Bounded.run (fun ceiling _ => ?_) steps
    rw [hoffs]
    exact zero_le _
  refine ⟨fun s view shardId => Coordinator.shardHome_tryAllocate config view s shardId, hbounded,
    fun timer htimer => ⟨hcoherent.current timer htimer, ?_⟩, fun now shardId timer hdue => ?_⟩
  · rw [← hcoherent.entries, OrderedMap.has, hcoherent.current timer htimer]
    rfl
  · unfold HandOffTimers.due at hdue
    have hfires := find?_some hdue
    obtain ⟨rfl, htime⟩ := of_decide_eq_true hfires
    exact ⟨hcoherent.current timer (mem_of_find?_eq_some hdue), htime⟩

/-- A timer that fires is one that the scheduler has. -/
def FiresDue (t : TimedCoordinator) (view : View) (input : Input) : Prop :=
  ∀ shardId, input = .handOffTimeout shardId → t.timers.due view.now shardId ≠ none

/-- Shard 0 is to move, whatever is in progress. -/
def restless : AllocationStrategy where
  allocate _ hosts _ := hosts.headD (Coordinator.hostNode "a")
  rebalance _ _ _ := OrderedSet.empty.add 0

/-- The surroundings of a tick. -/
def restlessAt (now : ℚ) : View := { Coordinator.leading with now := now, strategy := restless }

/-- A region hosts shard 0, and a tick begins to move it. -/
def movesAway : List (View × Input) :=
  [(restlessAt 0, .message (.register ⟨Coordinator.regionPath, Coordinator.hostNode "a", false,
      [0], 10⟩) (some (Coordinator.hostNode "a"))),
    (restlessAt 1000, .rebalanceTick)]

/-- The timer of the hand-off is due ten seconds later. -/
theorem limits_hold_movesAway :
    let t := ({ coordinator := .preStart Coordinator.lateConfig [] } : TimedCoordinator).run
      Coordinator.lateConfig 10000 movesAway
    t.timers.scheduled = [⟨0, 0, 11000⟩] ∧
      ∀ timer ∈ t.timers.scheduled, t.timers.entries.get? timer.shardId = some timer := by
  intro t
  have hlimits := limits_hold Coordinator.lateConfig 10000 [] movesAway
    ⟨trivial, fun _ _ => rfl, trivial⟩
  exact ⟨by decide +kernel, fun timer htimer => (hlimits.2.2.1 timer htimer).1⟩

/-- A second tick begins to move it again, and the first timer stays. -/
theorem not_limits_hold :
    ¬∀ (config : CoordinatorConfig) (timeoutMs : ℚ) (steps : List (View × Input)),
      let t := ({ coordinator := .preStart config [] } : TimedCoordinator).run config timeoutMs
        steps
      ∀ timer ∈ t.timers.scheduled, t.timers.entries.get? timer.shardId = some timer := by
  intro h
  have hcurrent := h Coordinator.lateConfig 10000
    (movesAway ++ [(restlessAt 6000, .rebalanceTick)]) ⟨0, 0, 11000⟩ (by decide +kernel)
  exact absurd hcurrent (by decide +kernel)

end TimedCoordinator

end ActorTs.Cluster.Sharding
