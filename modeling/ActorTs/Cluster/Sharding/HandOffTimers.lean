import ActorTs.Cluster.Sharding.CoordinatorIndexes

/-!
# The timers of the hand-offs

A hand-off that a coordinator begins has a timer, and is over when that fires. The timers are kept
beside the coordinator here, with the handlers that arm or cancel one. What they do to the
coordinator is what its own handlers do.

A scheduler fires a timer that it has, no earlier than it is due.
-/

namespace ActorTs.Cluster.Sharding

structure HandOffTimer where
  shardId : ShardId
  /-- Tells the timers of one shard apart. -/
  token : ℕ
  dueAtMs : ℚ
  deriving DecidableEq

structure HandOffTimers where
  /-- The timer in the entry of each shard in progress. -/
  entries : OrderedMap ShardId HandOffTimer := .empty
  /-- The timers that the scheduler has. -/
  scheduled : List HandOffTimer := []
  armed : ℕ := 0

namespace HandOffTimers

def arm (t : HandOffTimers) (now timeoutMs : ℚ) (shardId : ShardId) : HandOffTimers :=
  let timer : HandOffTimer := ⟨shardId, t.armed, now + timeoutMs⟩
  { entries := t.entries.set shardId timer
    scheduled := t.scheduled ++ [timer]
    armed := t.armed + 1 }

/-- The entry of a shard goes, and its timer is cancelled. -/
def cancel (t : HandOffTimers) (shardId : ShardId) : HandOffTimers :=
  match t.entries.get? shardId with
  | none => t
  | some timer =>
    { t with
      entries := t.entries.delete shardId
      scheduled := t.scheduled.filter (· ≠ timer) }

def cancelAll (t : HandOffTimers) : HandOffTimers :=
  { t with
    entries := .empty
    scheduled := t.scheduled.filter fun timer => timer ∉ t.entries.values }

/-- A timer of a shard that may fire. -/
def due (t : HandOffTimers) (now : ℚ) (shardId : ShardId) : Option HandOffTimer :=
  t.scheduled.find? fun timer => timer.shardId = shardId ∧ timer.dueAtMs ≤ now

/-- The entry of its shard goes with whatever timer it has. -/
def fire (t : HandOffTimers) (timer : HandOffTimer) : HandOffTimers :=
  { t with
    entries := t.entries.delete timer.shardId
    scheduled := t.scheduled.filter (· ≠ timer) }

end HandOffTimers

structure TimedCoordinator where
  coordinator : Coordinator := {}
  timers : HandOffTimers := {}

namespace Coordinator

/-- The hand-offs that a tick begins, once it has swept. -/
def handOffsToBegin (config : CoordinatorConfig) (view : View) (s : Coordinator) : List ShardId :=
  let (s, eligible) := s.observeEligibleSet view (s.candidateRegions config view)
  if !s.isEligibleSetSettled config view then []
  else
    let upRegions := s.regions.values.filter fun info => view.isUpMember info.node
    let proposed := view.strategy.rebalance (shardCountsOf upRegions) (nodesOf eligible)
      (OrderedSet.empty.addAll s.rebalanceInProgress.keys)
    let budget := config.rebalanceCeiling.map fun ceiling => ceiling - s.rebalanceInProgress.size
    s.shardsWithinBudget (s.ownedByUpMembers view proposed) budget

/-- What a tick leaves of its look at the eligible regions. -/
def observed (config : CoordinatorConfig) (view : View) (s : Coordinator) : Coordinator :=
  (s.observeEligibleSet view (s.candidateRegions config view)).1

lemma rebalanceTick_eq (config : CoordinatorConfig) (view : View) (s : Coordinator) :
    s.rebalanceTick config view =
      ((s.sweepStaleRegions config view).handOffsToBegin config view).foldl beginHandOff
        ((s.sweepStaleRegions config view).observed config view) := by
  unfold rebalanceTick handOffsToBegin observed
  dsimp only
  split <;> rfl

end Coordinator

namespace TimedCoordinator

open Coordinator (Input)

variable (config : CoordinatorConfig) (timeoutMs : ℚ) (view : View)

/-- The timers stay as they are. -/
def plain (t : TimedCoordinator) (f : Coordinator → Coordinator) : TimedCoordinator :=
  { t with coordinator := f t.coordinator }

def onHandOffComplete (t : TimedCoordinator) (shardId : ShardId) (region : JsString)
    (node : NodeAddress) : TimedCoordinator :=
  let s := t.coordinator.markRegionSeen view region node
  { coordinator := t.coordinator.onHandOffComplete config view shardId region node
    timers :=
      if s.rebalanceInProgress.get? shardId = some (regionKey node region) then
        t.timers.cancel shardId
      else t.timers }

/-- A timer fires. -/
def onHandOffTimeout (t : TimedCoordinator) (shardId : ShardId) : TimedCoordinator :=
  match t.timers.due view.now shardId with
  | none => t
  | some timer =>
    { coordinator := t.coordinator.onHandOffTimeout config view shardId
      timers := t.timers.fire timer }

def rehome (t : TimedCoordinator) (shardId : ShardId) : TimedCoordinator where
  coordinator := t.coordinator.rehome config view shardId
  timers := t.timers.cancel shardId

def onRegionTerminated (t : TimedCoordinator) (region : JsString) (node : NodeAddress) :
    TimedCoordinator :=
  let key := regionKey node region
  match t.coordinator.regions.get? key with
  | none => t
  | some info =>
    info.shards.elems.foldl (rehome config view)
      (t.plain fun s => { s with regions := s.regions.delete key })

def onMemberRemoved (t : TimedCoordinator) (address : NodeAddress) : TimedCoordinator :=
  t.coordinator.regions.values.foldl (fun t info =>
    if info.node.equals address then t.onRegionTerminated config view info.path address else t) t

def sweepRegion (t : TimedCoordinator) (entry : RegionEntry) : TimedCoordinator :=
  let info := entry.2
  if view.awaitsMembershipDecision info.node then
    t.plain fun s => s.updateRegion entry.1 fun info => { info with lastSeenAtMs := view.now }
  else if Coordinator.isStale config view info then
    (t.onRegionTerminated config view info.path info.node).plain fun s =>
      s.replyTo info.path info.node (.regionEvicted (view.now - info.lastSeenAtMs))
  else t

def sweepStaleRegions (t : TimedCoordinator) : TimedCoordinator :=
  if config.staleRegionDetection then
    t.coordinator.regions.entries.foldl (sweepRegion config view) t
  else t

/-- An entry that is there already is exchanged, and its timer stays armed. -/
def beginHandOff (t : TimedCoordinator) (shardId : ShardId) : TimedCoordinator where
  coordinator := t.coordinator.beginHandOff shardId
  timers :=
    match t.coordinator.homeRegion shardId with
    | none => t.timers
    | some _ => t.timers.arm view.now timeoutMs shardId

def rebalanceTick (t : TimedCoordinator) : TimedCoordinator :=
  let t := t.sweepStaleRegions config view
  (t.coordinator.handOffsToBegin config view).foldl (beginHandOff timeoutMs view)
    (t.plain (Coordinator.observed config view))

def onLeaderChanged (t : TimedCoordinator) : TimedCoordinator where
  coordinator := t.coordinator.onLeaderChanged view
  timers := if view.isLeader then t.timers else t.timers.cancelAll

def onLeaseLost (t : TimedCoordinator) : TimedCoordinator where
  coordinator := t.coordinator.onLeaseLost
  timers := if t.coordinator.leaseState ≠ .held then t.timers else t.timers.cancelAll

def dispatchShardingMessage (t : TimedCoordinator) : ToCoordinator → TimedCoordinator
  | .handOffComplete shardId region node => t.onHandOffComplete config view shardId region node
  | .regionTerminated region node => t.onRegionTerminated config view region node
  | message => t.plain fun s => s.dispatchShardingMessage config view message

def receiveShardingMessage (t : TimedCoordinator) (message : ToCoordinator)
    (peer : Option NodeAddress) : TimedCoordinator :=
  if !view.isLeader then t
  else if !Coordinator.maySpeakFor message peer then t
  else if config.lease && decide (t.coordinator.leaseState ≠ .held) then
    t.plain fun s => s.receiveShardingMessage config view message peer
  else t.dispatchShardingMessage config view message

def onLeaseAcquireResult (t : TimedCoordinator) (got : Bool) : TimedCoordinator :=
  if t.coordinator.leaseState ≠ .acquiring ∨ !got || !view.isLeader then
    t.plain fun s => s.onLeaseAcquireResult config view got
  else
    t.coordinator.acquireBuffer.foldl (dispatchShardingMessage config view)
      (t.plain fun s => { s with leaseState := .held, acquireBuffer := [] })

def handle (t : TimedCoordinator) : Input → TimedCoordinator
  | .message message peer => t.receiveShardingMessage config view message peer
  | .memberRemoved address => t.onMemberRemoved config view address
  | .leaderChanged => t.onLeaderChanged view
  | .rebalanceTick =>
    if t.coordinator.isActive config view then t.rebalanceTick config timeoutMs view else t
  | .handOffTimeout shardId => t.onHandOffTimeout config view shardId
  | .leaseLost => t.onLeaseLost
  | .leaseAcquireResult got => t.onLeaseAcquireResult config view got
  | input => t.plain fun s => s.handle config view input

def step (t : TimedCoordinator) (input : Input) : TimedCoordinator :=
  (t.plain fun s => { s with outbox := [] }).handle config timeoutMs view input

/-- The steps of a run, each in the surroundings it finds. -/
def run (t : TimedCoordinator) (steps : List (View × Input)) : TimedCoordinator :=
  steps.foldl (fun t x => t.step config timeoutMs x.1 x.2) t

/-- Along a run, each step in the state it meets. -/
def Along (P : TimedCoordinator → View → Input → Prop) :
    TimedCoordinator → List (View × Input) → Prop
  | _, [] => True
  | t, x :: steps => P t x.1 x.2 ∧ Along P (t.step config timeoutMs x.1 x.2) steps

end TimedCoordinator

end ActorTs.Cluster.Sharding
