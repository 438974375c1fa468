import ActorTs.Cluster.Sharding.ShardingProtocol

/-!
# A shard region

A region routes the messages of its type: to a shard of its own, to the region that a shard
has for a home, or into its buffer until one of these is known. The coordinator tells it
where shards are and which to hand off. Its shards are actors, which it starts, asks to stop
and hears of when they have.

What a region knows of its shards is one record, `Placement`, and what it knows of their entities
another. The effects of a step are listed in order, the arrivals of messages among them. Nothing
reads the effects.
-/

namespace ActorTs.Cluster.Sharding

inductive ShardState where
  | owned | handingOff | passivating | backingOff
  deriving DecidableEq

/-- What a region is given to route: a message of the application, or an envelope that
names its entity. -/
inductive RoutableMessage (T : Type) where
  | plain (message : T)
  | envelope (entityId : JsString) (message : T)
  deriving DecidableEq

/-- A message with its sender, as the buffer keeps them. -/
structure Buffered (T : Type) where
  message : RoutableMessage T
  sender : Option JsString
  deriving DecidableEq

/-- What a shard is told. -/
inductive ShardMessage (T : Type) where
  | entityEnvelope (entityId : JsString) (message : T)
  | startEntities (entityIds : List JsString)
  | startEntity (entityId : JsString)
  | passivateEntity (entityId : JsString)
  | getShardStats (replyTo : JsString)
  deriving DecidableEq

structure RegionConfig (T : Type) where
  numShards : ℕ
  selfAddress : NodeAddress
  /-- The region's own path. -/
  path : JsString
  proxy : Bool := false
  rememberEntities : Bool := false
  bufferSize : ℕ := 100000
  extractEntityId : T → JsString
  extractEntityMessage : T → T
  passivationIdleMs : ℚ := 120000
  shardPassivationIdleMs : ℚ := 120000
  /-- Remembered entities start a few at a time. -/
  constantRate : Bool := false
  entityRecoveryConstantRateNumberOfEntities : ℕ := 5

/-- What a step finds outside the region. -/
structure RegionView where
  now : ℚ := 0
  /-- `cluster.leader()` -/
  leader : Option NodeAddress
  /-- Whether the coordinator's path resolves on this node. -/
  coordinatorResolves : Bool := true
  /-- Whom the passivation strategy evicts to admit an entity. -/
  victim : JsString → Option JsString := fun _ => none

/-- Where shards are, and what becomes of those that are here. -/
structure Placement where
  shardHomes : OrderedMap ShardId JsString := .empty
  shardHomeNodes : OrderedMap ShardId NodeAddress := .empty
  localShards : OrderedSet ShardId := .empty
  shardState : OrderedMap ShardId ShardState := .empty
  /-- The shards that have an actor here. -/
  shards : OrderedSet ShardId := .empty
  handingOff : OrderedSet ShardId := .empty
  passivatingShards : OrderedSet ShardId := .empty
  releasingShards : OrderedSet ShardId := .empty
  handOffsAwaitingRelease : OrderedSet ShardId := .empty
  /-- The record of a shard that failed; a respawn tick is for one record. -/
  shardFailures : OrderedMap ShardId ℕ := .empty
  nextFailure : ℕ := 0
  deriving DecidableEq

/-- What is known of the entities of the shards here. -/
structure EntityTables where
  shardEntities : OrderedMap ShardId (OrderedSet JsString) := .empty
  /-- The shard of each active entity, and when it was last active. -/
  entityActivity : OrderedMap JsString (ShardId × ℚ) := .empty
  passivating : OrderedSet JsString := .empty
  shardEmptySince : OrderedMap ShardId ℚ := .empty
  entityRecoveryQueued : OrderedSet JsString := .empty
  deriving DecidableEq

/-! ### What becomes of a shard -/

namespace Placement

variable (p : Placement) (shardId : ShardId)

def shardCannotTakeMessages : Bool :=
  (p.shardState.get? shardId).any fun state =>
    state = .handingOff ∨ state = .passivating ∨ state = .backingOff

/-- The shard's actor has been told to stop. -/
def isStopping : Bool :=
  p.handingOff.has shardId || p.releasingShards.has shardId || p.passivatingShards.has shardId

def ensureShard : Placement := { p with shards := p.shards.add shardId }

def dropShardFailure : Placement := { p with shardFailures := p.shardFailures.delete shardId }

/-- A placement files where the shard is. -/
def fileHome (region : JsString) (node : NodeAddress) : Placement :=
  { p with
    shardHomes := p.shardHomes.set shardId region
    shardHomeNodes := p.shardHomeNodes.set shardId node }

def setState (state : ShardState) : Placement :=
  { p with shardState := p.shardState.set shardId state }

def addLocal : Placement := { p with localShards := p.localShards.add shardId }

/-- The shard is somewhere else. -/
def leave : Placement :=
  { p with
    localShards := p.localShards.delete shardId
    shardState := p.shardState.delete shardId }.dropShardFailure shardId

def startHandOff : Placement := { p with handingOff := p.handingOff.add shardId }

/-- Nothing is left of a shard that was handed off. -/
def forgetShard : Placement :=
  { p with
    handingOff := p.handingOff.delete shardId
    passivatingShards := p.passivatingShards.delete shardId
    shardFailures := p.shardFailures.delete shardId
    shards := p.shards.delete shardId
    localShards := p.localShards.delete shardId
    shardHomes := p.shardHomes.delete shardId
    shardHomeNodes := p.shardHomeNodes.delete shardId
    shardState := p.shardState.delete shardId }

def startPassivation : Placement :=
  { p with passivatingShards := p.passivatingShards.add shardId }.setState shardId .passivating

/-- The shard has stopped, and is without an actor until a message comes. -/
def endPassivation : Placement :=
  let p := { p with
    passivatingShards := p.passivatingShards.delete shardId, shards := p.shards.delete shardId }
  if p.localShards.has shardId then p.setState shardId .owned
  else { p with shardState := p.shardState.delete shardId }

/-- The shard has declined to stop. -/
def declinePassivation : Placement :=
  let p := { p with passivatingShards := p.passivatingShards.delete shardId }
  if p.localShards.has shardId then p.setState shardId .owned else p

def endRelease : Placement :=
  { p with
    releasingShards := p.releasingShards.delete shardId, shards := p.shards.delete shardId }

/-- The shard stopped without being asked, and is started again later. -/
def backOffShard : Placement :=
  let p := { p with shards := p.shards.delete shardId }
  if !p.localShards.has shardId then p.dropShardFailure shardId
  else
    let p := if p.shardFailures.has shardId then p
      else { p with
        shardFailures := p.shardFailures.set shardId p.nextFailure, nextFailure := p.nextFailure + 1 }
    p.setState shardId .backingOff

/-- The actors are told to stop, and nothing is the region's any more. -/
def releaseEverything : Placement :=
  { p with
    shardHomes := .empty, shardHomeNodes := .empty, localShards := .empty, shardState := .empty
    shardFailures := .empty
    handingOff := p.shards.elems.foldl OrderedSet.delete p.handingOff
    passivatingShards := p.shards.elems.foldl OrderedSet.delete p.passivatingShards
    releasingShards := p.releasingShards.addAll p.shards.elems }

def invalidateHomesOnNode (node : NodeAddress) : Placement :=
  p.shardHomeNodes.entries.foldl (fun p entry =>
    if entry.2.equals node then
      { p with
        shardHomes := p.shardHomes.delete entry.1
        shardHomeNodes := p.shardHomeNodes.delete entry.1
        shardState := p.shardState.delete entry.1 }
    else p) p

end Placement

namespace Region

inductive Effect (T : Type) where
  /-- A routed message goes to the shard, whose actor may be `stopping`. -/
  | deliverLocal (shardId : ShardId) (entityId : JsString) (entityMessage : T)
      (message : Buffered T) (stopping : Bool)
  | deliverRemote (shardId : ShardId) (node : NodeAddress) (path : JsString)
      (message : Buffered T)
  /-- A proxy got a message for a shard of its own, and warns. -/
  | refuseAsProxy (shardId : ShardId) (message : Buffered T)
  | deadLetter (shardId : ShardId) (message : Buffered T)
  | deadLetterCommand (shardId : ShardId) (message : ShardMessage T)
  /-- A message arrives for a shard, while the buffer may be `full`. -/
  | arrive (shardId : ShardId) (message : Buffered T) (full : Bool)
  /-- Any other message to the shard, whose actor may be `stopping`. -/
  | tellShard (shardId : ShardId) (message : ShardMessage T) (stopping : Bool)
  | passivateEntity (shardId : ShardId) (entityId : JsString)
  | requestShardPassivation (shardId : ShardId)
  | stopShard (shardId : ShardId)
  | tellCoordinator (message : ToCoordinator)
  deriving DecidableEq

end Region

structure Region (T : Type) where
  placement : Placement := {}
  entities : EntityTables := {}
  buffer : OrderedMap ShardId (List (Buffered T)) := .empty
  bufferedCount : ℤ := 0
  /-- Whether the coordinator is known well enough to be told something. -/
  coordinatorRef : Bool := false
  coordinatorNode : Option NodeAddress := none
  registerRefused : Bool := false
  entityRecoveryQueue : List (ShardId × JsString) := []
  entityRecoveryTimer : Bool := false
  registriesHeldThroughPassivation : OrderedMap ShardId (OrderedSet JsString) := .empty
  /-- The shards whose place is asked for, with when each caller gives up. -/
  pendingLocationAsks : OrderedMap ShardId (List ℚ) := .empty
  effects : List (Region.Effect T) := []
  deriving DecidableEq

namespace Region

variable {T : Type} (config : RegionConfig T) (view : RegionView)

def emit (s : Region T) (effect : Effect T) : Region T := { s with effects := s.effects ++ [effect] }

def setPlacement (s : Region T) (placement : Placement) : Region T := { s with placement := placement }

def setEntities (s : Region T) (entities : EntityTables) : Region T := { s with entities := entities }

/-! ### The coordinator -/

/-- Register, and ask again for every shard that messages wait for. -/
def register (s : Region T) : Region T :=
  let s := s.emit (.tellCoordinator (.register
    ⟨config.path, config.selfAddress, config.proxy, s.placement.localShards.elems, config.numShards⟩))
  s.buffer.keys.foldl (fun s shardId =>
    s.emit (.tellCoordinator (.getShardHome ⟨shardId, config.path, config.selfAddress⟩))) s

/-- The retry timers of the source are steps here, which may come at any time. -/
def ensureRegistered (s : Region T) : Region T :=
  match view.leader with
  | none => s
  | some leader =>
    let s := { s with coordinatorNode := some leader }
    if leader.equals config.selfAddress && !view.coordinatorResolves then s
    else
      let s := { s with coordinatorRef := true }
      if s.registerRefused then s else s.register config

def tellCoordinator (s : Region T) (message : ToCoordinator) : Region T :=
  if s.coordinatorRef then s.emit (.tellCoordinator message) else s.ensureRegistered config view

def askCoordinator (s : Region T) (shardId : ShardId) : Region T :=
  if s.registerRefused then s
  else s.tellCoordinator config view (.getShardHome ⟨shardId, config.path, config.selfAddress⟩)

def fromCoordinator (s : Region T) (peer : Option NodeAddress) : Bool :=
  match peer, s.coordinatorNode with
  | some peer, some node => peer.equals node
  | _, _ => false

/-! ### Entities -/

/-- The shard gets an actor, if it has none. -/
def ensureShard (s : Region T) (shardId : ShardId) : Region T :=
  if s.placement.shards.has shardId then s
  else
    (s.setPlacement (s.placement.ensureShard shardId)).setEntities
      { s.entities with shardEmptySince := s.entities.shardEmptySince.set shardId view.now }

def requestPassivation (s : Region T) (entityId : JsString) (shardId : ShardId) : Region T :=
  if !s.placement.shards.has shardId then s
  else
    (s.setEntities { s.entities with passivating := s.entities.passivating.add entityId }).emit
      (.passivateEntity shardId entityId)

def admitEntity (s : Region T) (shardId : ShardId) (entityId : JsString) : Region T :=
  match view.victim entityId with
  | none => s
  | some victim =>
    let victimShard := ((s.entities.entityActivity.get? victim).map Prod.fst).getD shardId
    s.requestPassivation victim victimShard

def recordActivity (s : Region T) (shardId : ShardId) (entityId : JsString) : Region T :=
  if s.entities.passivating.has entityId then s
  else match s.entities.entityActivity.get? entityId with
    | none =>
      let s := s.admitEntity view shardId entityId
      s.setEntities { s.entities with
        entityActivity := s.entities.entityActivity.set entityId (shardId, view.now)
        entityRecoveryQueued := s.entities.entityRecoveryQueued.delete entityId }
    | some (home, _) =>
      s.setEntities { s.entities with
        entityActivity := s.entities.entityActivity.set entityId (home, view.now) }

def forgetShardEntities (s : Region T) (shardId : ShardId) : Region T :=
  let entityIds := ((s.entities.shardEntities.get? shardId).getD .empty).elems
  s.setEntities { s.entities with
    entityActivity := entityIds.foldl OrderedMap.delete s.entities.entityActivity
    passivating := entityIds.foldl OrderedSet.delete s.entities.passivating
    shardEntities := s.entities.shardEntities.delete shardId
    shardEmptySince := s.entities.shardEmptySince.delete shardId }

def onEntityStarted (s : Region T) (shardId : ShardId) (entityId : JsString) : Region T :=
  let entityIds := (s.entities.shardEntities.get? shardId).getD .empty
  let s := s.setEntities { s.entities with
    shardEntities := s.entities.shardEntities.set shardId (entityIds.add entityId)
    shardEmptySince := s.entities.shardEmptySince.delete shardId
    entityRecoveryQueued := s.entities.entityRecoveryQueued.delete entityId }
  let s :=
    if s.entities.entityActivity.has entityId then s
    else
      let s := s.admitEntity view shardId entityId
      s.setEntities { s.entities with
        entityActivity := s.entities.entityActivity.set entityId (shardId, view.now) }
  if config.rememberEntities then
    s.tellCoordinator config view (.entityStarted shardId entityId)
  else s

def onEntityStopped (s : Region T) (shardId : ShardId) (entityId : JsString) : Region T :=
  let shardEntities := match s.entities.shardEntities.get? shardId with
    | none => s.entities.shardEntities
    | some entityIds => s.entities.shardEntities.set shardId (entityIds.delete entityId)
  let isEmpty := (shardEntities.get? shardId).all fun entityIds => entityIds.size = 0
  let s := s.setEntities { s.entities with
    shardEntities := shardEntities
    shardEmptySince :=
      if isEmpty then s.entities.shardEmptySince.set shardId view.now
      else s.entities.shardEmptySince
    entityActivity := s.entities.entityActivity.delete entityId
    passivating := s.entities.passivating.delete entityId }
  if config.rememberEntities then
    s.tellCoordinator config view (.entityStopped shardId entityId)
  else s

/-! ### Routing -/

def entityIdOf (message : RoutableMessage T) : JsString :=
  match message with
  | .plain message => config.extractEntityId message
  | .envelope entityId _ => entityId

def entityMessageOf (message : RoutableMessage T) : T :=
  match message with
  | .plain message => config.extractEntityMessage message
  | .envelope _ message => message

def shardOf (message : RoutableMessage T) : ShardId :=
  hashShardId (entityIdOf config message) config.numShards

def bufferShard (s : Region T) (shardId : ShardId) (message : Buffered T) : Region T :=
  if (config.bufferSize : ℤ) ≤ s.bufferedCount then s.emit (.deadLetter shardId message)
  else
    { s with
      buffer := s.buffer.set shardId ((s.buffer.get? shardId).getD [] ++ [message])
      bufferedCount := s.bufferedCount + 1 }

def deliverLocal (s : Region T) (shardId : ShardId) (message : Buffered T) : Region T :=
  if config.proxy then s.emit (.refuseAsProxy shardId message)
  else
    let entityId := entityIdOf config message.message
    let s := (s.recordActivity view shardId entityId).ensureShard view shardId
    s.emit (.deliverLocal shardId entityId (entityMessageOf config message.message) message
      (s.placement.isStopping shardId))

/-- A message is passed on, or buffered where its shard has no known home or cannot take
messages now. -/
def routeMessage (s : Region T) (message : Buffered T) : Region T :=
  let shardId := shardOf config message.message
  if s.placement.shardCannotTakeMessages shardId then s.bufferShard config shardId message
  else match s.placement.shardHomes.get? shardId with
    | none => (s.bufferShard config shardId message).askCoordinator config view shardId
    | some ownerPath =>
      if ownerPath = [] then
        (s.bufferShard config shardId message).askCoordinator config view shardId
      else if s.placement.localShards.has shardId then
        s.deliverLocal config view shardId message
      else match s.placement.shardHomeNodes.get? shardId with
        | none => (s.bufferShard config shardId message).askCoordinator config view shardId
        | some node => s.emit (.deliverRemote shardId node ownerPath message)

def noteArrival (s : Region T) (shardId : ShardId) (message : Buffered T) : Region T :=
  s.emit (.arrive shardId message ((config.bufferSize : ℤ) ≤ s.bufferedCount))

/-- A message that is given to the region to route. -/
def receiveMessage (s : Region T) (message : Buffered T) : Region T :=
  (s.noteArrival config (shardOf config message.message) message).routeMessage config view message

/-- What waited for a shard is routed again. An envelope that was held for this shard may
name an entity of another, for which it arrives only now. -/
def flushBuffer (s : Region T) (shardId : ShardId) : Region T :=
  match s.buffer.get? shardId with
  | none => s
  | some queue =>
    queue.foldl (fun s message =>
      if shardOf config message.message = shardId then s.routeMessage config view message
      else s.receiveMessage config view message)
      { s with
        buffer := s.buffer.delete shardId, bufferedCount := s.bufferedCount - queue.length }

/-! ### Messages for a shard -/

def tellShard (s : Region T) (shardId : ShardId) (message : ShardMessage T) : Region T :=
  let s := s.ensureShard view shardId
  s.emit (.tellShard shardId message (s.placement.isStopping shardId))

def onToShard (s : Region T) (shardId : ShardId) (message : ShardMessage T)
    (sender : Option JsString) : Region T :=
  if config.proxy then s
  else if !s.placement.localShards.has shardId then
    match message with
    | .entityEnvelope entityId message =>
      s.receiveMessage config view ⟨.envelope entityId message, sender⟩
    | command => s.emit (.deadLetterCommand shardId command)
  else if s.placement.shardCannotTakeMessages shardId then
    match message with
    | .entityEnvelope entityId message =>
      let held : Buffered T := ⟨.envelope entityId message, sender⟩
      (s.noteArrival config shardId held).bufferShard config shardId held
    | command => s.emit (.deadLetterCommand shardId command)
  else s.tellShard view shardId message

/-- The reference to a shard whose place is known; the shard is started if it is to run
here. -/
def knownShardRef (s : Region T) (shardId : ShardId) : Option (Region T) :=
  match s.placement.shardHomes.get? shardId, s.placement.shardHomeNodes.get? shardId with
  | some regionPath, some node =>
    if regionPath = [] then none
    else if node.equals config.selfAddress && s.placement.localShards.has shardId &&
        !config.proxy && !s.placement.shardCannotTakeMessages shardId then
      some (s.ensureShard view shardId)
    else some s
  | _, _ => none

def flushLocationAsks (s : Region T) (shardId : ShardId) : Region T :=
  if !s.pendingLocationAsks.has shardId then s
  else match s.knownShardRef config view shardId with
    | none => s
    | some s => { s with pendingLocationAsks := s.pendingLocationAsks.delete shardId }

/-- `giveUpAt`: when the caller stops to wait. -/
def onGetShardLocation (s : Region T) (shardId : ShardId) (giveUpAt : ℚ) : Region T :=
  if !isShardIdInRange config.numShards shardId then s
  else match s.knownShardRef config view shardId with
    | some s => s
    | none =>
      let waiting := (s.pendingLocationAsks.get? shardId).getD []
      { s with pendingLocationAsks := s.pendingLocationAsks.set shardId (waiting ++ [giveUpAt]) }
        |>.askCoordinator config view shardId

def onAsksSweepTick (s : Region T) : Region T :=
  s.pendingLocationAsks.entries.foldl (fun s (shardId, waiting) =>
    let live := waiting.filter fun giveUpAt => view.now < giveUpAt
    if live.length = waiting.length then s
    else if live = [] then { s with pendingLocationAsks := s.pendingLocationAsks.delete shardId }
    else { s with pendingLocationAsks := s.pendingLocationAsks.set shardId live }) s

/-! ### Directives of the coordinator -/

def onRegisterAcknowledgment (s : Region T) : Region T :=
  let s := { s with registerRefused := false }
  s.pendingLocationAsks.keys.foldl (askCoordinator config view) s

/-- Every shard here is told to stop. -/
def releaseEverything (s : Region T) : Region T :=
  let hosted := s.placement.shards.elems
  let s := { s with registriesHeldThroughPassivation := .empty }
  let s := s.setPlacement s.placement.releaseEverything
  hosted.foldl (fun s shardId => (s.forgetShardEntities shardId).emit (.stopShard shardId)) s

def onRegisterRefused (s : Region T) : Region T :=
  { s with registerRefused := true }.releaseEverything

def onRegionEvicted (s : Region T) : Region T :=
  s.releaseEverything.ensureRegistered config view

def isHere (region : JsString) (node : NodeAddress) : Bool :=
  node.equals config.selfAddress && decide (region = config.path)

def onShardHome (s : Region T) (shardId : ShardId) (region : JsString) (node : NodeAddress) :
    Region T :=
  if s.registerRefused || !isShardIdInRange config.numShards shardId then s
  else
    let filed := s.placement.fileHome shardId region node
    if isHere config region node then
      let placed := filed.addLocal shardId
      if placed.shardState.get? shardId = some .backingOff then
        (s.setPlacement placed).flushLocationAsks config view shardId
      else if placed.passivatingShards.has shardId then
        (s.setPlacement (placed.setState shardId .passivating)).flushLocationAsks config view shardId
      else
        let s := s.setPlacement (placed.setState shardId .owned)
        let s := if config.proxy then s else s.ensureShard view shardId
        (s.flushLocationAsks config view shardId).flushBuffer config view shardId
    else
      let s := s.setPlacement (filed.leave shardId)
      (s.flushLocationAsks config view shardId).flushBuffer config view shardId

def tellHandOffComplete (s : Region T) (shardId : ShardId) : Region T :=
  s.tellCoordinator config view (.handOffComplete shardId config.path config.selfAddress)

def completeHandOff (s : Region T) (shardId : ShardId) : Region T :=
  let s := { s with
    registriesHeldThroughPassivation := s.registriesHeldThroughPassivation.delete shardId }
  let s := (s.setPlacement (s.placement.forgetShard shardId)).setEntities
    { s.entities with shardEmptySince := s.entities.shardEmptySince.delete shardId }
  let s := s.tellHandOffComplete config view shardId
  if s.buffer.has shardId then s.askCoordinator config view shardId else s

def answerHandOffWhileRefused (s : Region T) (shardId : ShardId) : Region T :=
  if s.placement.releasingShards.has shardId then
    s.setPlacement { s.placement with
      handOffsAwaitingRelease := s.placement.handOffsAwaitingRelease.add shardId }
  else s.tellHandOffComplete config view shardId

def onHandOff (s : Region T) (shardId : ShardId) : Region T :=
  if s.registerRefused then s.answerHandOffWhileRefused config view shardId
  else if !isShardIdInRange config.numShards shardId then s
  else if s.placement.handingOff.has shardId || !s.placement.localShards.has shardId then s
  else
    let s := s.setPlacement (s.placement.setState shardId .handingOff)
    let s := s.tellCoordinator config view (.beginHandOffAcknowledgment shardId)
    let s := s.forgetShardEntities shardId
    if !s.placement.shards.has shardId then s.completeHandOff config view shardId
    else (s.setPlacement (s.placement.startHandOff shardId)).emit (.stopShard shardId)

/-! ### Remembered entities -/

/-- Entities that wait for their turn are started, as many as the budget allows. -/
def recover (s : Region T) (budget : ℕ) (requeued : List (ShardId × JsString)) :
    List (ShardId × JsString) → Region T
  | [] => { s with entityRecoveryQueue := requeued }
  | pending :: todo =>
    let state := s.placement.shardState.get? pending.1
    if budget = 0 then { s with entityRecoveryQueue := pending :: todo ++ requeued }
    else if !s.entities.entityRecoveryQueued.has pending.2 then s.recover budget requeued todo
    else if state = some .passivating then s.recover budget (requeued ++ [pending]) todo
    else
      let s := s.setEntities { s.entities with
        entityRecoveryQueued := s.entities.entityRecoveryQueued.delete pending.2 }
      if !s.placement.localShards.has pending.1 ∨ state = some .handingOff ∨
          state = some .backingOff then
        s.recover budget requeued todo
      else (s.tellShard view pending.1 (.startEntity pending.2)).recover (budget - 1) requeued todo

def onEntityRecoveryTick (s : Region T) : Region T :=
  let s := s.recover view config.entityRecoveryConstantRateNumberOfEntities []
    s.entityRecoveryQueue
  { s with entityRecoveryTimer := decide (s.entityRecoveryQueue ≠ []) }

def enqueueRecovery (shardId : ShardId) (s : Region T) (entityId : JsString) : Region T :=
  if s.entities.entityActivity.has entityId || s.entities.entityRecoveryQueued.has entityId then s
  else
    { s with entityRecoveryQueue := s.entityRecoveryQueue ++ [(shardId, entityId)] }.setEntities
      { s.entities with entityRecoveryQueued := s.entities.entityRecoveryQueued.add entityId }

def queueEntityRecovery (s : Region T) (shardId : ShardId) (entityIds : List JsString) :
    Region T :=
  let s := s.ensureShard view shardId
  let queued := entityIds.foldl (enqueueRecovery shardId) s
  if queued.entityRecoveryQueue.length = s.entityRecoveryQueue.length then queued
  else if queued.entityRecoveryTimer then queued
  else queued.onEntityRecoveryTick config view

def holdThroughPassivation (s : Region T) (shardId : ShardId) (entityIds : List JsString) :
    Region T :=
  let held := (s.registriesHeldThroughPassivation.get? shardId).getD .empty
  { s with
    registriesHeldThroughPassivation :=
      s.registriesHeldThroughPassivation.set shardId (held.addAll entityIds) }

def startRegistryHeldThroughPassivation (s : Region T) (shardId : ShardId) : Region T :=
  match s.registriesHeldThroughPassivation.get? shardId with
  | none => s
  | some held =>
    let s := { s with
      registriesHeldThroughPassivation := s.registriesHeldThroughPassivation.delete shardId }
    if !s.placement.localShards.has shardId || config.proxy then s
    else s.tellShard view shardId (.startEntities held.elems)

def onRememberedEntities (s : Region T) (shardId : ShardId) (entityIds : List JsString) :
    Region T :=
  let state := s.placement.shardState.get? shardId
  if !s.placement.localShards.has shardId || config.proxy || decide (state = some .backingOff) then s
  else if config.constantRate then s.queueEntityRecovery config view shardId entityIds
  else if state = some .handingOff then s
  else if state = some .passivating then s.holdThroughPassivation shardId entityIds
  else s.tellShard view shardId (.startEntities entityIds)

/-! ### The actors of shards -/

def completeShardPassivation (s : Region T) (shardId : ShardId) : Region T :=
  let s := s.forgetShardEntities shardId
  let s := s.setPlacement (s.placement.endPassivation shardId)
  (s.flushBuffer config view shardId).startRegistryHeldThroughPassivation config view shardId

def completeShardRelease (s : Region T) (shardId : ShardId) : Region T :=
  let awaited := s.placement.handOffsAwaitingRelease.has shardId
  let p := s.placement.endRelease shardId
  let s := s.setPlacement { p with
    handOffsAwaitingRelease := p.handOffsAwaitingRelease.delete shardId }
  let s := s.setEntities { s.entities with
    shardEmptySince := s.entities.shardEmptySince.delete shardId }
  if awaited && s.registerRefused then s.tellHandOffComplete config view shardId else s

def handleShardTerminated (s : Region T) (shardId : ShardId) : Region T :=
  if !s.placement.shards.has shardId then s
  else if s.placement.releasingShards.has shardId then s.completeShardRelease config view shardId
  else if s.placement.handingOff.has shardId then s.completeHandOff config view shardId
  else if s.placement.passivatingShards.has shardId then
    s.completeShardPassivation config view shardId
  else
    let s := s.forgetShardEntities shardId
    s.setPlacement (s.placement.backOffShard shardId)

def onShardRespawnTick (s : Region T) (shardId : ShardId) (record : ℕ) : Region T :=
  if s.placement.shardFailures.get? shardId ≠ some record then s
  else if s.placement.shardState.get? shardId ≠ some .backingOff ||
      !s.placement.localShards.has shardId then s
  else
    let s := s.setPlacement (s.placement.setState shardId .owned)
    let s := (s.ensureShard view shardId).flushBuffer config view shardId
    if config.rememberEntities then
      s.tellCoordinator config view (.getRememberedEntities shardId)
    else s

def sweepIdleEntities (s : Region T) : Region T :=
  if config.passivationIdleMs ≤ 0 then s
  else
    s.entities.entityActivity.entries.foldl (fun s (entityId, shardId, lastActivity) =>
      if s.entities.passivating.has entityId || view.now - lastActivity < config.passivationIdleMs
      then s
      else s.requestPassivation entityId shardId) s

def shardsOwedRecovery (s : Region T) : List ShardId :=
  (s.entityRecoveryQueue.filter fun pending =>
    s.entities.entityRecoveryQueued.has pending.2).map Prod.fst

def passivateShard (s : Region T) (shardId : ShardId) : Region T :=
  if !s.placement.shards.has shardId then s
  else
    (s.setPlacement (s.placement.startPassivation shardId)).emit (.requestShardPassivation shardId)

/-- A shard that has been empty for long, with nothing waiting for it. -/
def isIdleShard (s : Region T) (shardId : ShardId) : Bool :=
  s.placement.localShards.has shardId && !s.placement.handingOff.has shardId &&
    !s.placement.passivatingShards.has shardId &&
    (s.entities.shardEntities.get? shardId).all (fun entityIds => decide (entityIds.size = 0)) &&
    !s.buffer.has shardId &&
    (s.entities.shardEmptySince.get? shardId).any (fun emptySince =>
      decide (config.shardPassivationIdleMs ≤ view.now - emptySince)) &&
    !decide (shardId ∈ s.shardsOwedRecovery)

def sweepEmptyShards (s : Region T) : Region T :=
  if config.shardPassivationIdleMs ≤ 0 ∨ config.proxy then s
  else
    s.placement.shards.elems.foldl (fun s shardId =>
      if s.isIdleShard config view shardId then s.passivateShard shardId else s) s

def onPassivationSweepTick (s : Region T) : Region T :=
  (s.sweepIdleEntities config view).sweepEmptyShards config view

def onShardPassivationDeclined (s : Region T) (shardId : ShardId) : Region T :=
  if !s.placement.passivatingShards.has shardId || s.placement.handingOff.has shardId then s
  else
    let s := s.setPlacement (s.placement.declinePassivation shardId)
    (s.flushBuffer config view shardId).startRegistryHeldThroughPassivation config view shardId

/-! ### The cluster -/

def onLeaderChanged (s : Region T) : Region T :=
  { s with coordinatorRef := false, coordinatorNode := none, registerRefused := false }
    |>.ensureRegistered config view

def onMemberRemoved (s : Region T) (address : NodeAddress) : Region T :=
  (s.setPlacement (s.placement.invalidateHomesOnNode address)).ensureRegistered config view

/-! ### Steps -/

inductive Input (T : Type) where
  /-- A message of the application, its envelope from another region, or an envelope that
  names the entity. -/
  | route (message : Buffered T)
  | toShard (shardId : ShardId) (message : ShardMessage T) (sender : Option JsString)
  | directive (message : ToRegion) (peer : Option NodeAddress)
  | getShardLocation (shardId : ShardId) (giveUpAt : ℚ)
  | entityStarted (shardId : ShardId) (entityId : JsString)
  | entityStopped (shardId : ShardId) (entityId : JsString)
  | shardTerminated (shardId : ShardId)
  | shardPassivationDeclined (shardId : ShardId)
  | shardRespawnTick (shardId : ShardId) (record : ℕ)
  | passivationSweepTick
  | entityRecoveryTick
  | asksSweepTick
  | registerRetry
  | leaderChanged
  | memberRemoved (address : NodeAddress)
  | memberUp

def onDirective (s : Region T) : ToRegion → Region T
  | .registerAcknowledgment => s.onRegisterAcknowledgment config view
  | .registerRefused _ _ => s.onRegisterRefused
  | .registrationRequest => s.ensureRegistered config view
  | .regionEvicted _ => s.onRegionEvicted config view
  | .shardHome shardId region node => s.onShardHome config view shardId region node
  | .handOff shardId => s.onHandOff config view shardId
  | .rememberedEntities shardId entityIds =>
    s.onRememberedEntities config view shardId entityIds

def handle (s : Region T) : Input T → Region T
  | .route message => s.receiveMessage config view message
  | .toShard shardId message sender => s.onToShard config view shardId message sender
  | .directive message peer => if s.fromCoordinator peer then s.onDirective config view message else s
  | .getShardLocation shardId giveUpAt => s.onGetShardLocation config view shardId giveUpAt
  | .entityStarted shardId entityId => s.onEntityStarted config view shardId entityId
  | .entityStopped shardId entityId => s.onEntityStopped config view shardId entityId
  | .shardTerminated shardId => s.handleShardTerminated config view shardId
  | .shardPassivationDeclined shardId => s.onShardPassivationDeclined config view shardId
  | .shardRespawnTick shardId record => s.onShardRespawnTick config view shardId record
  | .passivationSweepTick => s.onPassivationSweepTick config view
  | .entityRecoveryTick => s.onEntityRecoveryTick config view
  | .asksSweepTick => s.onAsksSweepTick view
  | .registerRetry => s.ensureRegistered config view
  | .leaderChanged => s.onLeaderChanged config view
  | .memberRemoved address => s.onMemberRemoved config view address
  | .memberUp => s.ensureRegistered config view

/-- A step, with its own effects only. -/
def step (s : Region T) (input : Input T) : Region T :=
  { s with effects := [] }.handle config view input

/-- The steps of a run, each in the surroundings it finds. -/
def run (s : Region T) (steps : List (RegionView × Input T)) : Region T :=
  steps.foldl (fun s x => s.step config x.1 x.2) s

/-- The effects of a run. -/
def log : Region T → List (RegionView × Input T) → List (Effect T)
  | _, [] => []
  | s, x :: steps => (s.step config x.1 x.2).effects ++ log (s.step config x.1 x.2) steps

/-- Along a run, each step in the state it meets. -/
def Along (P : Region T → RegionView → Input T → Prop) :
    Region T → List (RegionView × Input T) → Prop
  | _, [] => True
  | s, x :: steps => P s x.1 x.2 ∧ Along P (s.step config x.1 x.2) steps

end Region

end ActorTs.Cluster.Sharding
