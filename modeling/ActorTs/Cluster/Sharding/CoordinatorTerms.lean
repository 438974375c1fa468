import ActorTs.Cluster.Sharding.CoordinatorIndexes

/-!
# What a coordinator keeps from one term to the next

A coordinator that handles a change of leader away from its node forgets its allocation. `Forgotten`
is that state. From then on every handler asks whether the node leads before it writes, but for the
completion of a load: it asks at its end.
-/

open List

namespace ActorTs.Cluster.Sharding.Coordinator

open Coordinator

variable {config : CoordinatorConfig} {view : View} {s t : Coordinator} {input : Input}

/-- Nothing of an allocation is left. -/
structure Forgotten (s : Coordinator) : Prop where
  regions : s.regions = .empty
  shardHome : s.shardHome = .empty
  pending : s.pending = .empty
  rebalanceInProgress : s.rebalanceInProgress = .empty

/-- Nothing of a term is left; a refusal is of the term too. -/
structure Cleared (s : Coordinator) : Prop extends Forgotten s where
  refusedRegions : s.refusedRegions = .empty

lemma Cleared.of_eq (h : s.Cleared) (hregions : t.regions = s.regions)
    (hhome : t.shardHome = s.shardHome) (hpending : t.pending = s.pending)
    (hoffs : t.rebalanceInProgress = s.rebalanceInProgress)
    (hrefused : t.refusedRegions = s.refusedRegions) : t.Cleared where
  regions := hregions.trans h.regions
  shardHome := hhome.trans h.shardHome
  pending := hpending.trans h.pending
  rebalanceInProgress := hoffs.trans h.rebalanceInProgress
  refusedRegions := hrefused.trans h.refusedRegions

/-- A load brings something: its snapshot is of the type as it is, and one of its regions
is on a node that is up. -/
def Lands (config : CoordinatorConfig) (view : View) : Input → Prop
  | .loaded (some data) =>
    data.numShards = some config.numShards ∧
      ∃ region ∈ data.regions, region.node.toString ∈ view.livingNodes
  | _ => False

lemma foldl_seedRegion_of_gone {regions : List RegionInfoData}
    (hgone : ∀ region ∈ regions, region.node.toString ∉ view.livingNodes) :
    regions.foldl (seedRegion view) s = s := by
  induction regions with
  | nil => rfl
  | cons region regions ih =>
    have hseeds : s.seeds view region = false := by
      simp [seeds, hgone region mem_cons_self]
    have hsame : s.seedRegion view region = s := by
      rw [seedRegion, hseeds]
      rfl
    rw [foldl_cons, hsame]
    exact ih fun other hother => hgone other (mem_cons_of_mem _ hother)

lemma foldl_seedHome_of_empty (h : s.regions = .empty) (homes : List (ShardId × JsString)) :
    homes.foldl seedHome s = s := by
  induction homes with
  | nil => rfl
  | cons entry homes ih =>
    have hsame : s.seedHome entry = s := by
      rw [seedHome, h]
      rfl
    rw [foldl_cons, hsame, ih]

lemma registered_of_living {regions : List RegionInfoData} {region : RegionInfoData}
    (hrefused : s.refusedRegions.has region.key = false) (hmem : region ∈ regions)
    (hliving : region.node.toString ∈ view.livingNodes) :
    (regions.foldl (seedRegion view) s).Registered region.key := by
  have hkept : ∀ (regions : List RegionInfoData) {t : Coordinator}, t.Registered region.key →
      (regions.foldl (seedRegion view) t).Registered region.key := by
    intro regions
    induction regions with
    | nil => exact fun h => h
    | cons other regions ih =>
      refine fun {t} h => ih ?_
      rw [Registered, shardsOf_seedRegion]
      split
      · rfl
      · exact h
  induction regions generalizing s with
  | nil => cases hmem
  | cons other regions ih =>
    rcases mem_cons.1 hmem with rfl | hmem
    · refine hkept regions ?_
      by_cases hreg : s.Registered region.key
      · rw [Registered, shardsOf_seedRegion]
        split
        · rfl
        · exact hreg
      · rw [registered_iff_has, Bool.not_eq_true] at hreg
        rw [Registered, shardsOf_seedRegion, if_pos]
        · rfl
        · simp [seeds, hliving, hrefused, hreg]
    · refine ih ?_ hmem
      rw [(seedRegion_rest view s other).1]
      exact hrefused

lemma Cleared.loadCoordinatorState (h : s.Cleared) (hfollower : view.isLeader = false)
    {data : CoordinatorStateData} (hlands : ¬Lands config view (.loaded (some data))) :
    s.loadCoordinatorState config view data = s := by
  unfold Coordinator.loadCoordinatorState
  dsimp only
  split
  · rfl
  · rename_i hcount
    have hgone : ∀ region ∈ data.regions, region.node.toString ∉ view.livingNodes :=
      fun region hmem hliving => hlands ⟨not_not.1 hcount, region, hmem, hliving⟩
    rw [foldl_seedRegion_of_gone hgone, foldl_seedHome_of_empty h.regions, hfollower]
    rfl

lemma registered_loadCoordinatorState {data : CoordinatorStateData} {key : JsString}
    (hcount : data.numShards = some config.numShards) :
    (s.loadCoordinatorState config view data).Registered key ↔
      (data.regions.foldl (seedRegion view) s).Registered key := by
  have hregions := (foldl_seedHome_rest (data.regions.foldl (seedRegion view) s) data.shardHome).1
  unfold Coordinator.loadCoordinatorState
  rw [if_neg (not_not_intro hcount)]
  dsimp only
  split
  · rw [Registered, shardsOf, hregions, Registered, shardsOf]
  · have hsame := SameIndexes.foldl (fun s (region : RegionInfoData) =>
      SameIndexes.replyTo s region.path region.node .registrationRequest)
      (data.shardHome.foldl seedHome (data.regions.foldl (seedRegion view) s))
      (seeded view s data.regions)
    refine hsame.registered_iff.trans ?_
    rw [Registered, shardsOf, hregions, Registered, shardsOf]

lemma Cleared.handle (h : s.Cleared) (hfollower : view.isLeader = false)
    (hlands : ¬Lands config view input) : (s.handle config view input).Cleared := by
  cases input with
  | message message peer =>
    rw [handle, receiveShardingMessage, hfollower]
    exact h
  | memberRemoved address =>
    rw [handle, onMemberRemoved, h.regions]
    exact h
  | leaderChanged =>
    rw [handle, onLeaderChanged, hfollower]
    exact ⟨⟨rfl, rfl, rfl, rfl⟩, rfl⟩
  | loaded data =>
    cases data with
    | none => exact h
    | some data =>
      rw [handle, h.loadCoordinatorState hfollower hlands]
      exact h
  | rebalanceTick =>
    have hidle : s.isActive config view = false := by simp [isActive, hfollower]
    rw [handle, hidle]
    exact h
  | handOffTimeout shardId =>
    rw [handle, onHandOffTimeout, h.rebalanceInProgress]
    exact h
  | reconcile =>
    rw [handle, reconcileLease, hfollower]
    split
    · exact h
    · rw [if_neg Bool.false_ne_true]
      split
      · exact h.of_eq rfl rfl rfl rfl rfl
      · exact h
  | leaseAcquireResult got =>
    rw [handle, onLeaseAcquireResult, hfollower]
    split
    · exact h
    · rw [if_pos (by simp)]
      exact h.of_eq rfl rfl rfl rfl rfl
  | leaseLost =>
    rw [handle, onLeaseLost]
    split
    · exact h
    · exact ⟨⟨h.regions, h.shardHome, rfl, rfl⟩, h.refusedRegions⟩

lemma Cleared.step (h : s.Cleared) (hfollower : view.isLeader = false)
    (hlands : ¬Lands config view input) : (s.step config view input).Cleared := by
  have hstart : Cleared { s with outbox := [] } := h.of_eq rfl rfl rfl rfl rfl
  exact hstart.handle hfollower hlands

lemma not_forgotten_of_lands (h : s.Cleared) (hlands : Lands config view input) :
    ¬(s.step config view input).Forgotten := by
  intro hforgotten
  unfold Lands at hlands
  split at hlands
  · rename_i data
    obtain ⟨hcount, region, hmem, hliving⟩ := hlands
    have hreg : (s.step config view (.loaded (some data))).Registered region.key :=
      (registered_loadCoordinatorState hcount).2
        (registered_of_living (by simp [h.refusedRegions, OrderedSet.has]) hmem hliving)
    rw [Registered, shardsOf, hforgotten.regions] at hreg
    cases hreg
  · exact hlands

lemma cleared_onLeaderChanged (config : CoordinatorConfig) (s : Coordinator)
    (hfollower : view.isLeader = false) :
    (s.step config view .leaderChanged).Cleared := by
  rw [step, handle, onLeaderChanged, hfollower]
  exact ⟨⟨rfl, rfl, rfl, rfl⟩, rfl⟩

lemma Cleared.forgotten_along_iff (h : s.Cleared) {steps : List (View × Input)}
    (hfollower : ∀ x ∈ steps, x.1.isLeader = false) :
    (∀ n, (s.run config (steps.take n)).Forgotten) ↔
      ∀ x ∈ steps, ¬Lands config x.1 x.2 := by
  induction steps generalizing s with
  | nil =>
    simp only [take_nil, not_mem_nil, false_implies, implies_true, iff_true]
    exact fun _ => h.toForgotten
  | cons x steps ih =>
    obtain ⟨hx, hsteps⟩ := forall_mem_cons.1 hfollower
    rw [forall_mem_cons]
    constructor
    · intro hall
      have hlands : ¬Lands config x.1 x.2 := fun hlands =>
        not_forgotten_of_lands h hlands (hall 1)
      exact ⟨hlands, (ih (h.step hx hlands) hsteps).1 fun n => hall (n + 1)⟩
    · rintro ⟨hlands, hrest⟩ n
      cases n with
      | zero => exact h.toForgotten
      | succ n => exact (ih (h.step hx hlands) hsteps).2 hrest n

/-- Whatever came before, a node that has handled the end of its term and does not lead
since then has nothing of an allocation in any state, exactly if no load brings something. -/
theorem forgotten_iff (config : CoordinatorConfig) (log : List RememberEvent)
    (before after : List (View × Input)) (view : View) (hview : view.isLeader = false)
    (hafter : ∀ x ∈ after, x.1.isLeader = false) :
    (∀ n, ((preStart config log).run config
        (before ++ (view, .leaderChanged) :: after.take n)).Forgotten) ↔
      ∀ x ∈ after, ¬Lands config x.1 x.2 := by
  have hcleared := cleared_onLeaderChanged config ((preStart config log).run config before) hview
  rw [← hcleared.forgotten_along_iff hafter]
  simp only [run, foldl_append, foldl_cons]

/-- Host `b` leads, not this node. -/
def following : View := { leading with isLeader := false }

/-- Ticks, timers and messages bring nothing. -/
theorem forgotten_iff_following :
    ((preStart lateConfig []).run lateConfig
      ([(leading, .leaderChanged), (leading, registersFive)] ++ (following, .leaderChanged) ::
        [(following, registersFive), (following, .handOffTimeout 5),
          (following, .rebalanceTick)].take 3)).Forgotten :=
  (forgotten_iff lateConfig [] _ [(following, registersFive), (following, .handOffTimeout 5),
    (following, .rebalanceTick)] following rfl (by simp [following])).2 (by
      simp [Lands, registersFive]) 3

/-- The load that the term began ends after it. -/
theorem not_forgotten_late :
    ¬((preStart lateConfig []).run lateConfig [(leading, .leaderChanged),
      (following, .leaderChanged), (following, .loaded (some formerMap))]).Forgotten := by
  intro hforgotten
  have hkeys : ((preStart lateConfig []).run lateConfig [(leading, .leaderChanged),
      (following, .leaderChanged), (following, .loaded (some formerMap))]).regions.keys =
        [regionKey (hostNode "a") regionPath] := by decide +kernel
  rw [hforgotten.regions] at hkeys
  cases hkeys

end ActorTs.Cluster.Sharding.Coordinator
