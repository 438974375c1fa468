import ActorTs.Cluster.Sharding.ShardingProtocol

/-!
# The shard coordinator

A coordinator runs on every node and acts on the one that leads. It keeps two indexes of
the same allocation, the shards of each region and the home of each shard, the queries it
could not answer yet, the hand-offs in progress, and the entities it remembers.

A handler reads the clock, the cluster and the allocation strategy as they are when it runs, so each
step is given a `View` of them. What it sends and what it appends to the store are left in the
outbox of the state, in order. A timer is a step of its own, and so is the completion of a load.
-/

namespace ActorTs.Cluster.Sharding

/-- What one region is on file as. -/
structure RegionInfo where
  node : NodeAddress
  path : JsString
  proxy : Bool
  shards : OrderedSet ShardId
  lastSeenAtMs : ℚ
  lastHeartbeatAtMs : Option ℚ := none
  seededFromSnapshot : Bool
  deriving DecidableEq

abbrev RegionEntry := JsString × RegionInfo

structure RegionInfoData where
  key : JsString
  node : NodeAddress
  path : JsString
  proxy : Bool
  shards : List ShardId
  deriving DecidableEq

/-- The snapshot a coordinator saves of its two indexes. -/
structure CoordinatorStateData where
  regions : List RegionInfoData
  shardHome : List (ShardId × JsString)
  /-- Snapshots of an earlier version do not state it. -/
  numShards : Option ℕ
  deriving DecidableEq

/-- An event of the store of remembered entities. -/
structure RememberEvent where
  started : Bool
  shardId : ShardId
  entityId : JsString
  deriving DecidableEq

inductive LeaseState where
  | none | acquiring | held
  deriving DecidableEq

abbrev ShardCounts := OrderedMap JsString (OrderedSet ShardId)

/-- An allocation strategy is the application's. -/
structure AllocationStrategy where
  allocate : ShardId → List NodeAddress → ShardCounts → NodeAddress
  rebalance : ShardCounts → List NodeAddress → OrderedSet ShardId → OrderedSet ShardId

/-- What a step finds outside the coordinator. -/
structure View where
  now : ℚ := 0
  isLeader : Bool
  /-- `getMembers()`, which leaves out the removed ones. -/
  members : List Member
  strategy : AllocationStrategy

structure CoordinatorConfig where
  numShards : ℕ
  role : Option JsString := none
  rememberEntities : Bool := false
  rememberEntitiesStore : Bool := false
  coordinatorStateStore : Bool := false
  lease : Bool := false
  staleRegionDetection : Bool := false
  regionStaleAfterMs : ℚ := 15000
  membershipSettleWindowMs : ℚ := 0
  /-- What the absolute and the relative limit come to; `none` where neither bounds. -/
  rebalanceCeiling : Option ℕ := some 3

def acquireBufferCap : ℕ := 1000

/-- A message for the region at a path of a node. -/
structure Sent where
  path : JsString
  node : NodeAddress
  message : ToRegion
  deriving DecidableEq

/-- What a step does to the world. -/
inductive Effect where
  | send (message : Sent)
  | append (event : RememberEvent)
  deriving DecidableEq

structure Coordinator where
  regions : OrderedMap JsString RegionInfo := .empty
  shardHome : OrderedMap ShardId JsString := .empty
  pending : OrderedMap ShardId (List GetShardHome) := .empty
  /-- Each shard that is handed off, with the key of the region it is handed off from. -/
  rebalanceInProgress : OrderedMap ShardId JsString := .empty
  entitiesPerShard : OrderedMap ShardId (OrderedSet JsString) := .empty
  refusedRegions : OrderedSet JsString := .empty
  leaseState : LeaseState := .none
  acquireBuffer : List ToCoordinator := []
  /-- The keys of the eligible regions when last looked at, and since when they are these. -/
  eligibleSetRecord : Option (List JsString × ℚ) := none
  outbox : List Effect := []
  deriving DecidableEq

/-! ### The cluster and the regions -/

namespace View

def memberRecord (view : View) (node : NodeAddress) : Option Member :=
  view.members.find? fun member => member.address.equals node

def isUpMember (view : View) (node : NodeAddress) : Bool :=
  (view.memberRecord node).any fun member => member.status = .up

def awaitsMembershipDecision (view : View) (node : NodeAddress) : Bool :=
  (view.memberRecord node).isSome && !view.isUpMember node

def livingNodes (view : View) : List JsString :=
  (view.members.filter fun member => member.status = .up).map addrKey

end View

def nodesOf (entries : List RegionEntry) : List NodeAddress := entries.map fun entry => entry.2.node

def regionKeyOn (node : NodeAddress) (entries : List RegionEntry) : Option JsString :=
  (entries.find? fun entry => entry.2.node.equals node).map Prod.fst

def shardCountsOf (regions : List RegionInfo) : ShardCounts :=
  regions.foldl (fun counts info =>
    if info.proxy then counts
    else
      let address := info.node.toString
      let existing := (counts.get? address).getD .empty
      counts.set address (existing.addAll info.shards.elems)) .empty

namespace Coordinator

variable (config : CoordinatorConfig) (view : View)

def isActive (s : Coordinator) : Bool :=
  if config.lease then view.isLeader && decide (s.leaseState = .held) else view.isLeader

def replyTo (s : Coordinator) (path : JsString) (node : NodeAddress) (message : ToRegion) :
    Coordinator :=
  { s with outbox := s.outbox ++ [.send ⟨path, node, message⟩] }

def sendToRegion (s : Coordinator) (key : JsString) (message : ToRegion) : Coordinator :=
  match s.regions.get? key with
  | none => s
  | some info => s.replyTo info.path info.node message

def requestRegistration (s : Coordinator) (path : JsString) (node : NodeAddress) : Coordinator :=
  s.replyTo path node .registrationRequest

def setRegion (s : Coordinator) (key : JsString) (info : RegionInfo) : Coordinator :=
  { s with regions := s.regions.set key info }

/-- Change what is on file for a region, when there is something. -/
def updateRegion (s : Coordinator) (key : JsString) (f : RegionInfo → RegionInfo) : Coordinator :=
  match s.regions.get? key with
  | none => s
  | some info => s.setRegion key (f info)

def markRegionSeen (s : Coordinator) (path : JsString) (node : NodeAddress) : Coordinator :=
  s.updateRegion (regionKey node path) fun info => { info with lastSeenAtMs := view.now }

def deleteRegionShard (s : Coordinator) (key : JsString) (shardId : ShardId) : Coordinator :=
  s.updateRegion key fun info => { info with shards := info.shards.delete shardId }

/-- The regions that can host the type. -/
def candidateRegions (s : Coordinator) : List RegionEntry :=
  s.regions.entries.filter fun (key, info) =>
    !(info.proxy || s.refusedRegions.has key) &&
      (config.role.filter fun role => role ≠ []).all fun role =>
        (view.memberRecord info.node).any fun member => member.hasRole role

/-- Those of them that are up, and a note of when they changed. -/
def observeEligibleSet (s : Coordinator) (candidates : List RegionEntry) :
    Coordinator × List RegionEntry :=
  let eligible := candidates.filter fun entry => view.isUpMember entry.2.node
  let keys := (eligible.map Prod.fst).insertionSort (· ≤ ·)
  if s.eligibleSetRecord.map Prod.fst = some keys then (s, eligible)
  else ({ s with eligibleSetRecord := some (keys, view.now) }, eligible)

def isEligibleSetSettled (s : Coordinator) : Bool :=
  s.eligibleSetRecord.any fun record =>
    config.membershipSettleWindowMs ≤ view.now - record.2

/-! ### Remembered entities -/

/-- The entities that are remembered after an event. -/
def rememberIn (entitiesPerShard : OrderedMap ShardId (OrderedSet JsString))
    (event : RememberEvent) : OrderedMap ShardId (OrderedSet JsString) :=
  if event.started then
    let entities := (entitiesPerShard.get? event.shardId).getD .empty
    entitiesPerShard.set event.shardId (entities.add event.entityId)
  else match entitiesPerShard.get? event.shardId with
    | none => entitiesPerShard
    | some entities =>
      let entities := entities.delete event.entityId
      if entities.size = 0 then entitiesPerShard.delete event.shardId
      else entitiesPerShard.set event.shardId entities

def applyRememberEvent (s : Coordinator) (event : RememberEvent) : Coordinator :=
  { s with entitiesPerShard := rememberIn s.entitiesPerShard event }

def persistRememberEvent (s : Coordinator) (event : RememberEvent) : Coordinator :=
  if config.rememberEntitiesStore then { s with outbox := s.outbox ++ [.append event] } else s

def homeRegion (s : Coordinator) (shardId : ShardId) : Option RegionEntry :=
  match s.shardHome.get? shardId with
  | none => none
  | some home => if home = [] then none else (s.regions.get? home).map fun info => (home, info)

def shipRememberedEntities (s : Coordinator) (shardId : ShardId) : Coordinator :=
  match s.entitiesPerShard.get? shardId, s.homeRegion shardId with
  | some entities, some (_, info) =>
    if entities.size = 0 then s
    else s.replyTo info.path info.node (.rememberedEntities shardId entities.elems)
  | _, _ => s

def onEntityStarted (s : Coordinator) (shardId : ShardId) (entityId : JsString) : Coordinator :=
  if !config.rememberEntities then s
  else
    let event : RememberEvent := ⟨true, shardId, entityId⟩
    (s.applyRememberEvent event).persistRememberEvent config event

/-- A stop is not forgotten during a hand-off: the shard's entities stop because it moves. -/
def onEntityStopped (s : Coordinator) (shardId : ShardId) (entityId : JsString) : Coordinator :=
  let event : RememberEvent := ⟨false, shardId, entityId⟩
  if !config.rememberEntities then s.applyRememberEvent event
  else if s.rebalanceInProgress.has shardId then s
  else (s.applyRememberEvent event).persistRememberEvent config event

def onGetRememberedEntities (s : Coordinator) (shardId : ShardId) : Coordinator :=
  if !config.rememberEntities then s else s.shipRememberedEntities shardId

/-! ### Allocation -/

/-- The queries that wait for a shard are answered, and forgotten. -/
def flushPending (s : Coordinator) (shardId : ShardId) : Coordinator :=
  match s.pending.get? shardId, s.homeRegion shardId with
  | some pending, some (_, info) =>
    if pending = [] then s
    else
      let s := pending.foldl (fun s query =>
        s.replyTo query.requester query.requesterNode (.shardHome shardId info.path info.node)) s
      { s with pending := s.pending.delete shardId }
  | _, _ => s

/-- Where the strategy wants a shard, if it may be there. While the eligible regions still
change, the strategy is asked over all candidates first. -/
def placementFor (s : Coordinator) (shardId : ShardId) (candidates eligible : List RegionEntry) :
    Option JsString :=
  let early :=
    if s.isEligibleSetSettled config view then none
    else
      let counts := shardCountsOf s.regions.values
      regionKeyOn (view.strategy.allocate shardId (nodesOf candidates) counts) eligible
  match early with
  | some kept => some kept
  | none =>
    let counts := shardCountsOf (eligible.map Prod.snd)
    regionKeyOn (view.strategy.allocate shardId (nodesOf eligible) counts) eligible

/-- The shard is the region's, in both indexes. -/
def assign (s : Coordinator) (shardId : ShardId) (key : JsString) : Coordinator :=
  { s with shardHome := s.shardHome.set shardId key }.updateRegion key
    fun info => { info with shards := info.shards.add shardId }

/-- What an allocation tells the region it picked and all who wait. -/
def announcePlacement (s : Coordinator) (shardId : ShardId) (key : JsString) : Coordinator :=
  match s.regions.get? key with
  | none => s
  | some info =>
    let s := (s.sendToRegion key (.shardHome shardId info.path info.node)).flushPending shardId
    if config.rememberEntities then s.shipRememberedEntities shardId else s

def tryAllocate (s : Coordinator) (shardId : ShardId) : Coordinator :=
  let candidates := s.candidateRegions config view
  let (s, eligible) := s.observeEligibleSet view candidates
  if candidates = [] ∨ eligible = [] then s
  else match s.placementFor config view shardId candidates eligible with
    | none => s
    | some key => (s.assign shardId key).announcePlacement config shardId key

def onGetShardHome (s : Coordinator) (message : GetShardHome) : Coordinator :=
  let s := s.markRegionSeen view message.requester message.requesterNode
  if !isShardIdInRange config.numShards message.shardId then s
  else if s.refusedRegions.has (regionKey message.requesterNode message.requester) then s
  else match s.homeRegion message.shardId with
    | some (_, info) =>
      s.replyTo message.requester message.requesterNode
        (.shardHome message.shardId info.path info.node)
    | none =>
      let waiting := (s.pending.get? message.shardId).getD []
      let s := { s with pending := s.pending.set message.shardId (waiting ++ [message]) }
      if s.rebalanceInProgress.has message.shardId then s
      else s.tryAllocate config view message.shardId

def releaseFromPreviousOwner (s : Coordinator) (shardId : ShardId) (previousOwnerKey : JsString) :
    Coordinator :=
  let s := s.deleteRegionShard previousOwnerKey shardId
  { s with shardHome := s.shardHome.delete shardId }

/-- The hand-off is over: the shard is nobody's, and is placed anew. -/
def endHandOff (s : Coordinator) (shardId : ShardId) (fromKey : JsString) : Coordinator :=
  let s := { s with rebalanceInProgress := s.rebalanceInProgress.delete shardId }
  (s.releaseFromPreviousOwner shardId fromKey).tryAllocate config view shardId

def onHandOffComplete (s : Coordinator) (shardId : ShardId) (region : JsString)
    (node : NodeAddress) : Coordinator :=
  let s := s.markRegionSeen view region node
  match s.rebalanceInProgress.get? shardId with
  | none => s
  | some fromKey =>
    if fromKey ≠ regionKey node region then s else s.endHandOff config view shardId fromKey

def onHandOffTimeout (s : Coordinator) (shardId : ShardId) : Coordinator :=
  match s.rebalanceInProgress.get? shardId with
  | none => s
  | some fromKey => s.endHandOff config view shardId fromKey

/-! ### Registration -/

/-- The claims of a region that are shard ids, each once. -/
def acceptedHostedShards (message : RegisterRegion) : OrderedSet ShardId :=
  message.hostedShards.foldl (fun accepted shardId =>
    if config.numShards ≤ accepted.size then accepted
    else if isShardIdInRange config.numShards shardId then accepted.add shardId
    else accepted) .empty

structure ClaimVerdict where
  adopted : List ShardId
  conflicting : List ShardId
  owned : OrderedSet ShardId

/-- Whether a claim is granted: the shard has no home, or its home is this region or one
that is not registered. -/
def adopts (s : Coordinator) (key : JsString) (shardId : ShardId) : Bool :=
  (s.shardHome.get? shardId).all fun home => decide (home = key) || !s.regions.has home

def adjudicateClaim (s : Coordinator) (key : JsString) (claimed : OrderedSet ShardId) :
    ClaimVerdict :=
  let adopted := claimed.elems.filter (s.adopts key)
  { adopted := adopted
    conflicting := claimed.elems.filter fun shardId => !s.adopts key shardId
    owned := (OrderedSet.empty.addAll adopted).addAll (s.shardHome.keysWhere (· = key)) }

/-- A shard that a region claimed becomes the region's. -/
def adopt (key : JsString) (s : Coordinator) (shardId : ShardId) : Coordinator :=
  let s := match s.shardHome.get? shardId with
    | none => s
    | some previous => if previous = key then s else s.deleteRegionShard previous shardId
  { s with shardHome := s.shardHome.set shardId key }

/-- The claims that are not granted are given up again, unless a hand-off is under way. -/
def releaseConflictingShards (s : Coordinator) (key : JsString) (conflicting : List ShardId) :
    Coordinator :=
  conflicting.foldl (fun s shardId =>
    if s.rebalanceInProgress.has shardId then s else s.sendToRegion key (.handOff shardId)) s

/-- What a region that registered is told, and who waits for a shard that it brought. -/
def answerRegister (s : Coordinator) (message : RegisterRegion) (verdict : ClaimVerdict) :
    Coordinator :=
  let s := s.replyTo message.region message.node .registerAcknowledgment
  let s := s.releaseConflictingShards (regionKey message.node message.region) verdict.conflicting
  let s := verdict.adopted.foldl flushPending s
  if config.rememberEntities then verdict.adopted.foldl shipRememberedEntities s else s

def onRegister (s : Coordinator) (message : RegisterRegion) : Coordinator :=
  let key := regionKey message.node message.region
  if message.numShards ≠ config.numShards then
    { s with refusedRegions := s.refusedRegions.add key }.replyTo message.region message.node
      (.registerRefused config.numShards message.numShards)
  else
    let s := { s with refusedRegions := s.refusedRegions.delete key }
    let verdict := s.adjudicateClaim key (acceptedHostedShards config message)
    let s := s.setRegion key
      { node := message.node, path := message.region, proxy := message.proxy
        shards := verdict.owned, lastSeenAtMs := view.now
        lastHeartbeatAtMs := (s.regions.get? key).bind RegionInfo.lastHeartbeatAtMs
        seededFromSnapshot := false }
    (verdict.adopted.foldl (adopt key) s).answerRegister config message verdict

def onRegionHeartbeat (s : Coordinator) (region : JsString) (node : NodeAddress) : Coordinator :=
  let key := regionKey node region
  match s.regions.get? key with
  | none => if s.refusedRegions.has key then s else s.requestRegistration region node
  | some info =>
    s.setRegion key { info with lastSeenAtMs := view.now, lastHeartbeatAtMs := some view.now }

/-! ### Regions that go -/

/-- A shard of a region that is gone is placed anew. -/
def rehome (s : Coordinator) (shardId : ShardId) : Coordinator :=
  let s := { s with
    shardHome := s.shardHome.delete shardId
    rebalanceInProgress := s.rebalanceInProgress.delete shardId }
  s.tryAllocate config view shardId

def onRegionTerminated (s : Coordinator) (region : JsString) (node : NodeAddress) : Coordinator :=
  let key := regionKey node region
  match s.regions.get? key with
  | none => s
  | some info =>
    info.shards.elems.foldl (rehome config view) { s with regions := s.regions.delete key }

def onMemberRemoved (s : Coordinator) (address : NodeAddress) : Coordinator :=
  s.regions.values.foldl (fun s info =>
    if info.node.equals address then s.onRegionTerminated config view info.path address else s) s

def isStale (info : RegionInfo) : Bool :=
  !(decide (info.lastHeartbeatAtMs = none) && !info.seededFromSnapshot) &&
    decide (config.regionStaleAfterMs ≤ view.now - info.lastSeenAtMs)

/-- A region that is silent while its node is up, or no member, is dropped and told so. -/
def sweepRegion (s : Coordinator) (entry : RegionEntry) : Coordinator :=
  let info := entry.2
  if view.awaitsMembershipDecision info.node then
    s.updateRegion entry.1 fun info => { info with lastSeenAtMs := view.now }
  else if isStale config view info then
    (s.onRegionTerminated config view info.path info.node).replyTo info.path info.node
      (.regionEvicted (view.now - info.lastSeenAtMs))
  else s

def sweepStaleRegions (s : Coordinator) : Coordinator :=
  if config.staleRegionDetection then s.regions.entries.foldl (sweepRegion config view) s else s

/-! ### Rebalancing -/

def ownedByUpMembers (s : Coordinator) (proposed : OrderedSet ShardId) : List ShardId :=
  proposed.elems.filter fun shardId =>
    ((s.shardHome.get? shardId).bind s.regions.get?).any fun owner => view.isUpMember owner.node

/-- One of each list in turn, until all are used up. -/
def roundRobin (queues : List (List ShardId)) : List ShardId :=
  (List.range (queues.foldl (fun n queue => max n queue.length) 0)).flatMap fun round =>
    queues.filterMap fun queue => queue[round]?

/-- As many of the shards as the budget allows, from each owner in turn. -/
def shardsWithinBudget (s : Coordinator) (shardsToMove : List ShardId) (budget : Option ℕ) :
    List ShardId :=
  let byOwner : OrderedMap JsString (List ShardId) := shardsToMove.foldl (fun byOwner shardId =>
    match s.shardHome.get? shardId with
    | none => byOwner
    | some ownerKey => byOwner.set ownerKey ((byOwner.get? ownerKey).getD [] ++ [shardId])) .empty
  let queues := (byOwner.entries.insertionSort fun left right => left.1 ≤ right.1).map
    fun owned => owned.2.insertionSort (· ≤ ·)
  match budget with
  | none => roundRobin queues
  | some budget => (roundRobin queues).take budget

def beginHandOff (s : Coordinator) (shardId : ShardId) : Coordinator :=
  match s.homeRegion shardId with
  | none => s
  | some (ownerKey, owner) =>
    { s with rebalanceInProgress := s.rebalanceInProgress.set shardId ownerKey }.replyTo
      owner.path owner.node (.handOff shardId)

def rebalanceTick (s : Coordinator) : Coordinator :=
  let s := s.sweepStaleRegions config view
  let (s, eligible) := s.observeEligibleSet view (s.candidateRegions config view)
  if !s.isEligibleSetSettled config view then s
  else
    let upRegions := s.regions.values.filter fun info => view.isUpMember info.node
    let proposed := view.strategy.rebalance (shardCountsOf upRegions) (nodesOf eligible)
      (OrderedSet.empty.addAll s.rebalanceInProgress.keys)
    let budget := config.rebalanceCeiling.map fun ceiling => ceiling - s.rebalanceInProgress.size
    (s.shardsWithinBudget (s.ownedByUpMembers view proposed) budget).foldl beginHandOff s

/-! ### The leader, the lease and the snapshot -/

/-- A node that does not lead forgets its allocation. One that does starts to load the
snapshot; the load is a step of its own. -/
def onLeaderChanged (s : Coordinator) : Coordinator :=
  if view.isLeader then s
  else
    { s with
      regions := .empty, shardHome := .empty, pending := .empty, refusedRegions := .empty
      eligibleSetRecord := none, acquireBuffer := [], rebalanceInProgress := .empty }

/-- Whether a region of a snapshot is taken over. -/
def seeds (s : Coordinator) (region : RegionInfoData) : Bool :=
  decide (region.node.toString ∈ view.livingNodes) && !s.refusedRegions.has region.key &&
    !s.regions.has region.key

def seedRegion (s : Coordinator) (region : RegionInfoData) : Coordinator :=
  if s.seeds view region then
    s.setRegion region.key
      { node := region.node, path := region.path, proxy := region.proxy
        shards := OrderedSet.empty.addAll region.shards, lastSeenAtMs := view.now
        seededFromSnapshot := true }
  else s

def seedHome (s : Coordinator) (entry : ShardId × JsString) : Coordinator :=
  if s.regions.has entry.2 && !s.shardHome.has entry.1 then
    { s with shardHome := s.shardHome.set entry.1 entry.2 }
  else s

/-- The regions of a snapshot that are taken over, in order. -/
def seeded : Coordinator → List RegionInfoData → List RegionInfoData
  | _, [] => []
  | s, region :: regions =>
    let rest := seeded (s.seedRegion view region) regions
    if s.seeds view region then region :: rest else rest

/-- What the load does once the store has answered. Only the requests at its end ask
whether this node leads. -/
def loadCoordinatorState (s : Coordinator) (data : CoordinatorStateData) : Coordinator :=
  if data.numShards ≠ some config.numShards then s
  else
    let loaded := data.shardHome.foldl seedHome (data.regions.foldl (seedRegion view) s)
    if !view.isLeader then loaded
    else (seeded view s data.regions).foldl
      (fun s region => s.requestRegistration region.path region.node) loaded

def snapshotCoordinatorState (s : Coordinator) : CoordinatorStateData where
  regions := s.regions.entries.map fun (key, info) =>
    ⟨key, info.node, info.path, info.proxy, info.shards.elems⟩
  shardHome := s.shardHome.entries
  numShards := some config.numShards

def reconcileLease (s : Coordinator) : Coordinator :=
  if !config.lease then s
  else if view.isLeader then
    if s.leaseState = .none then { s with leaseState := .acquiring } else s
  else if s.leaseState = .held then { s with leaseState := .none }
  else s

def onLeaseLost (s : Coordinator) : Coordinator :=
  if s.leaseState ≠ .held then s
  else
    { s with
      leaseState := .none, rebalanceInProgress := .empty, pending := .empty, acquireBuffer := [] }

/-! ### Dispatch -/

def dispatchShardingMessage (s : Coordinator) : ToCoordinator → Coordinator
  | .register message => s.onRegister config view message
  | .getShardHome message => s.onGetShardHome config view message
  | .handOffComplete shardId region node => s.onHandOffComplete config view shardId region node
  | .beginHandOffAcknowledgment _ => s
  | .regionTerminated region node => s.onRegionTerminated config view region node
  | .regionHeartbeat region node => s.onRegionHeartbeat view region node
  | .entityStarted shardId entityId => s.onEntityStarted config shardId entityId
  | .entityStopped shardId entityId => s.onEntityStopped config shardId entityId
  | .getRememberedEntities shardId => s.onGetRememberedEntities config shardId

def claimedNode : ToCoordinator → Option NodeAddress
  | .register message => some message.node
  | .regionTerminated _ node => some node
  | .regionHeartbeat _ node => some node
  | .handOffComplete _ _ node => some node
  | .getShardHome message => some message.requesterNode
  | _ => none

/-- A message speaks for the node whose connection carried it, and for no other. -/
def maySpeakFor (message : ToCoordinator) (peer : Option NodeAddress) : Bool :=
  peer.any fun peer => (claimedNode message).all fun claimed => claimed.equals peer

def receiveShardingMessage (s : Coordinator) (message : ToCoordinator)
    (peer : Option NodeAddress) : Coordinator :=
  if !view.isLeader then s
  else if !maySpeakFor message peer then s
  else if config.lease && decide (s.leaseState ≠ .held) then
    if s.acquireBuffer.length < acquireBufferCap then
      { s with acquireBuffer := s.acquireBuffer ++ [message] }
    else s
  else s.dispatchShardingMessage config view message

def onLeaseAcquireResult (s : Coordinator) (got : Bool) : Coordinator :=
  if s.leaseState ≠ .acquiring then s
  else if !got || !view.isLeader then { s with leaseState := .none }
  else
    s.acquireBuffer.foldl (dispatchShardingMessage config view)
      { s with leaseState := .held, acquireBuffer := [] }

inductive Input where
  | message (message : ToCoordinator) (peer : Option NodeAddress)
  | memberRemoved (address : NodeAddress)
  | leaderChanged
  /-- A load completes, with what the store held. -/
  | loaded (data : Option CoordinatorStateData)
  | rebalanceTick
  | handOffTimeout (shardId : ShardId)
  | reconcile
  | leaseAcquireResult (got : Bool)
  | leaseLost

def handle (s : Coordinator) : Input → Coordinator
  | .message message peer => s.receiveShardingMessage config view message peer
  | .memberRemoved address => s.onMemberRemoved config view address
  | .leaderChanged => s.onLeaderChanged view
  | .loaded none => s
  | .loaded (some data) => s.loadCoordinatorState config view data
  | .rebalanceTick => if s.isActive config view then s.rebalanceTick config view else s
  | .handOffTimeout shardId => s.onHandOffTimeout config view shardId
  | .reconcile => s.reconcileLease config view
  | .leaseAcquireResult got => s.onLeaseAcquireResult config view got
  | .leaseLost => s.onLeaseLost

/-- A step, its outbox empty at first. -/
def step (s : Coordinator) (input : Input) : Coordinator :=
  { s with outbox := [] }.handle config view input

/-- The steps of a run, each in the surroundings it finds. -/
def run (s : Coordinator) (steps : List (View × Input)) : Coordinator :=
  steps.foldl (fun s x => s.step config x.1 x.2) s

/-- Along a run, each step in the state it meets. -/
def Along (P : Coordinator → View → Input → Prop) : Coordinator → List (View × Input) → Prop
  | _, [] => True
  | s, x :: steps => P s x.1 x.2 ∧ Along P (s.step config x.1 x.2) steps

/-- The actor starts: with a store it remembers what the store's log says. -/
def preStart (log : List RememberEvent) : Coordinator :=
  if config.rememberEntities && config.rememberEntitiesStore then
    log.foldl applyRememberEvent {}
  else {}

end Coordinator

end ActorTs.Cluster.Sharding
