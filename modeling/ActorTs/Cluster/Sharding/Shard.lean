import ActorTs.Cluster.Sharding.ShardRegion
import ActorTs.Util.BidirectionalMap

/-!
# A shard

A shard starts the entities of a region that fall to it, hands them their messages and hears
of their ends. A message for an entity that is on its way out waits until the entity has
stopped. An entity that stops unasked is kept down for a while, longer each time, and what
arrives for it meanwhile is held, up to a bound over all entities of the shard.

What a shard does to others is logged in order, and so is the arrival of a message. A
message is told to whatever runs under the name of its entity. Nothing reads the log.
-/

namespace ActorTs.Cluster.Sharding

/-- The characters that an actor's name takes as they are. -/
def isNameLiteral (c : UInt16) : Bool :=
  (0x41 ≤ c ∧ c ≤ 0x5A) ∨ (0x61 ≤ c ∧ c ≤ 0x7A) ∨ (0x30 ≤ c ∧ c ≤ 0x39) ∨
    c ∈ "_-.@:+".toJs

def hexDigit (n : ℕ) : UInt16 :=
  if n < 10 then UInt16.ofNat (0x30 + n) else UInt16.ofNat (0x41 + (n - 10))

/-- Four upper-case digits of a code unit. -/
def hexOf (c : UInt16) : JsString :=
  [hexDigit (c.toNat / 0x1000), hexDigit (c.toNat / 0x100 % 0x10),
    hexDigit (c.toNat / 0x10 % 0x10), hexDigit (c.toNat % 0x10)]

def entityName (entityId : JsString) : JsString :=
  "entity-" ++
    entityId.flatMap fun c => if isNameLiteral c then [c] else "~" ++ hexOf c

structure ShardConfig where
  /-- The path of the shard itself. -/
  path : JsString
  passivationStopTimeoutMs : ℚ := 0
  entityRestartBackoffMinMs : ℚ := 200
  entityRestartBackoffMaxMs : ℚ := 10000
  entityRestartBackoffRandomFactor : ℚ := 1 / 5
  entityRestartBackoffResetAfterMs : ℚ := 60000
  bufferSize : ℕ := 100000
  /-- Records that decide nothing are dropped, as they are wherever a shard runs. -/
  prunesRestartRecords : Bool := true

/-- A message with the sender that it arrived with. -/
structure BufferedMessage (T : Type) where
  message : T
  sender : Option JsString
  deriving DecidableEq

structure EntityState (T : Type) where
  ref : JsString
  /-- What waits for the entity to stop, of one that is on its way out. -/
  passivating : Option (List (BufferedMessage T)) := none
  /-- The timer of a stop that the entity was asked for is armed. -/
  stopTimer : Bool := false

/-- An entity's run of stops that nobody asked for, and the wait that it is in. -/
structure EntityRestartRecord (T : Type) where
  attempts : ℕ
  blockedUntil : ℚ
  held : List (BufferedMessage T) := []
  /-- The timer that ends the wait is armed. -/
  timer : Bool := false
  messageSinceStop : Bool := false

/-- What a shard finds in its mailbox. -/
inductive ShardInbox (T : Type) where
  | message (message : ShardMessage T) (sender : Option JsString)
  | terminated (actor : JsString)
  | passivate (entity : Option JsString) (stopMessage : T) (sender : Option JsString)
  | entityStopTimeout (entityId : JsString)
  | entityRestartTick (entityId : JsString)
  | shardPassivationRequest
  | unhandled
  deriving DecidableEq

inductive ShardEffect (T : Type) where
  | arrived (entityId : JsString) (letter : BufferedMessage T)
  | spawned (entityId : JsString)
  | told (entityId : JsString) (letter : BufferedMessage T)
  /-- The message with which an entity asked to be stopped. -/
  | toldToStop (ref : JsString) (stopMessage : T)
  | stopped (ref : JsString)
  /-- With how many messages were held then, and whether the shard was stopping. -/
  | deadLettered (entityId : JsString) (letter : BufferedMessage T) (heldCount : ℤ)
      (stopping : Bool)
  | entityStarted (entityId : JsString)
  | entityStopped (entityId : JsString)
  | armedStopTimeout (entityId : JsString) (delayMs : ℚ)
  | armedRestart (entityId : JsString) (delayMs : ℚ)
  | shardStats (replyTo : JsString) (entityIds : List JsString)
  | stopSelf
  | declined
  | unhandled
  deriving DecidableEq

structure Shard (T : Type) where
  entities : OrderedMap JsString (EntityState T) := .empty
  entityPaths : BidirectionalMap JsString JsString := .empty
  /-- In the order of the last stops. -/
  restarts : OrderedMap JsString (EntityRestartRecord T) := .empty
  heldCount : ℤ := 0
  /-- `postStop` has run. -/
  stopped : Bool := false
  log : List (ShardEffect T) := []

/-- `applyJitter`, with a random number of `[0, 1)`. -/
def applyJitter (base randomFactor random : ℚ) : ℚ :=
  if randomFactor = 0 then base else max 0 (base * (1 + (random * 2 - 1) * randomFactor))

def ShardConfig.delayFor (config : ShardConfig) (attempts : ℕ) (random : ℚ) : ℚ :=
  let minMs := config.entityRestartBackoffMinMs
  let maxMs := max minMs config.entityRestartBackoffMaxMs
  let raw := if 30 ≤ attempts then maxMs else minMs * 2 ^ attempts
  applyJitter (min raw maxMs) config.entityRestartBackoffRandomFactor random

def EntityRestartRecord.isHeldDown {T : Type} (record : EntityRestartRecord T) (now : ℚ) : Bool :=
  record.held ≠ [] ∨ now < record.blockedUntil

/-- A record that decides nothing that no record would not. -/
def EntityRestartRecord.isSpent {T : Type} (record : EntityRestartRecord T) (config : ShardConfig)
    (now : ℚ) : Bool :=
  record.held = [] ∧ record.timer = false ∧
    config.entityRestartBackoffResetAfterMs ≤ now - record.blockedUntil

namespace Shard

variable {T : Type} (config : ShardConfig) (now random : ℚ)

def emit (s : Shard T) (effect : ShardEffect T) : Shard T := { s with log := s.log ++ [effect] }

def setEntity (s : Shard T) (entityId : JsString) (state : EntityState T) : Shard T :=
  { s with entities := s.entities.set entityId state }

def setRecord (s : Shard T) (entityId : JsString) (record : EntityRestartRecord T) : Shard T :=
  { s with restarts := s.restarts.set entityId record }

/-- The walk stops at the first record that is still in force. -/
def pruneRestartRecords (s : Shard T) : Shard T :=
  bif config.prunesRestartRecords then
    { s with restarts := s.restarts.dropWhile fun entry => entry.2.isSpent config now }
  else s

def createEntity (s : Shard T) (entityId : JsString) : Shard T :=
  let s := match s.restarts.get? entityId with
    | some record =>
      s.setRecord entityId { record with timer := false, messageSinceStop := false }
    | none => s
  let ref := config.path ++ "/" ++ entityName entityId
  let s := (s.emit (.spawned entityId)).setEntity entityId { ref := ref }
  { s with entityPaths := s.entityPaths.set entityId ref }.emit (.entityStarted entityId)

/-- Unless a timer is armed already. -/
def armRestart (s : Shard T) (entityId : JsString) (record : EntityRestartRecord T) : Shard T :=
  bif record.timer then s.setRecord entityId record
  else
    (s.setRecord entityId { record with timer := true }).emit
      (.armedRestart entityId (max 0 (record.blockedUntil - now)))

def hold (s : Shard T) (entityId : JsString) (record : EntityRestartRecord T)
    (letter : BufferedMessage T) : Shard T :=
  if config.bufferSize ≤ s.heldCount then
    (s.setRecord entityId record).emit (.deadLettered entityId letter s.heldCount false)
  else
    { s with heldCount := s.heldCount + 1 }.armRestart now entityId
      { record with held := record.held ++ [letter] }

/-- The record of an entity that is kept down. -/
def heldDown (s : Shard T) (entityId : JsString) : Option (EntityRestartRecord T) :=
  (s.restarts.get? entityId).filter fun record => record.isHeldDown now

def deliver (s : Shard T) (entityId : JsString) (letter : BufferedMessage T) : Shard T :=
  match s.entities.get? entityId with
  | some state =>
    match state.passivating with
    | some buffered =>
      s.setEntity entityId { state with passivating := some (buffered ++ [letter]) }
    | none => s.emit (.told entityId letter)
  | none =>
    match s.heldDown now entityId with
    | some record => s.hold config now entityId { record with messageSinceStop := true } letter
    | none =>
      ((s.pruneRestartRecords config now).createEntity config entityId).emit
        (.told entityId letter)

def startEntity (s : Shard T) (entityId : JsString) : Shard T :=
  match s.entities.get? entityId with
  | some _ => s
  | none =>
    match s.heldDown now entityId with
    | some record => s.armRestart now entityId record
    | none => s.createEntity config entityId

def onEntityEnvelope (s : Shard T) (entityId : JsString) (letter : BufferedMessage T) : Shard T :=
  (s.emit (.arrived entityId letter)).deliver config now entityId letter

def onPassivateEntity (s : Shard T) (entityId : JsString) : Shard T :=
  match s.entities.get? entityId with
  | none =>
    match (s.restarts.get? entityId).filter EntityRestartRecord.messageSinceStop with
    | some record =>
      (s.setRecord entityId { record with messageSinceStop := false }).emit
        (.entityStopped entityId)
    | none => s
  | some state =>
    match state.passivating with
    | some _ => s
    | none =>
      (s.setEntity entityId { state with passivating := some [] }).emit (.stopped state.ref)

def onStartEntities (s : Shard T) (entityIds : List JsString) : Shard T :=
  entityIds.foldl (fun s entityId => s.startEntity config now entityId) s

/-- The messages that were held go to the entity, each from its sender. -/
def tellAll (s : Shard T) (entityId : JsString) (letters : List (BufferedMessage T)) : Shard T :=
  letters.foldl (fun s letter => s.emit (.told entityId letter)) s

/-- A tick whose timer is not armed any more is stale. -/
def onEntityRestartTick (s : Shard T) (entityId : JsString) : Shard T :=
  match (s.restarts.get? entityId).filter EntityRestartRecord.timer with
  | none => s
  | some record =>
    let released := s.setRecord entityId
      { record with timer := false, blockedUntil := min record.blockedUntil now, held := [] }
    let s := { released with heldCount := released.heldCount - record.held.length }
    let s := match s.entities.get? entityId with
      | some _ => s
      | none => s.createEntity config entityId
    s.tellAll entityId record.held

def isIdle (s : Shard T) : Bool :=
  s.entities.size = 0 ∧ ∀ record ∈ s.restarts.values, ¬(record.timer ∨ record.isHeldDown now)

def onShardPassivationRequest (s : Shard T) : Shard T :=
  bif s.isIdle now then s.emit .stopSelf else s.emit .declined

def onGetShardStats (s : Shard T) (replyTo : JsString) : Shard T :=
  s.emit (.shardStats replyTo s.entities.keys)

def armStopTimeout (s : Shard T) (entityId : JsString) (state : EntityState T) : Shard T :=
  if config.passivationStopTimeoutMs ≤ 0 ∨ state.stopTimer then s.setEntity entityId state
  else
    (s.setEntity entityId { state with stopTimer := true }).emit
      (.armedStopTimeout entityId config.passivationStopTimeoutMs)

/-- The entity that a `Passivate` means: the one it names, or its sender. -/
def passivated (s : Shard T) (entity sender : Option JsString) :
    Option (JsString × JsString × EntityState T) := do
  let candidate ← entity.or sender
  let entityId ← s.entityPaths.getKey? candidate
  let state ← s.entities.get? entityId
  return (candidate, entityId, state)

/-- What the entity had waiting is not looked at. -/
def onPassivate (s : Shard T) (entity : Option JsString) (stopMessage : T)
    (sender : Option JsString) : Shard T :=
  match s.passivated entity sender with
  | none => s
  | some (candidate, entityId, state) =>
    (s.emit (.toldToStop candidate stopMessage)).armStopTimeout config entityId
      { state with passivating := some [] }

def onEntityStopTimeout (s : Shard T) (entityId : JsString) : Shard T :=
  match (s.entities.get? entityId).filter EntityState.stopTimer with
  | none => s
  | some state => (s.setEntity entityId { state with stopTimer := false }).emit (.stopped state.ref)

/-- The record goes to the end of the map. -/
def backOffEntity (s : Shard T) (entityId : JsString) : Shard T :=
  let record : EntityRestartRecord T := match s.restarts.get? entityId with
    | none => { attempts := 0, blockedUntil := now }
    | some record =>
      if config.entityRestartBackoffResetAfterMs ≤ now - record.blockedUntil then
        { record with attempts := 0 }
      else record
  let next := { record with
    attempts := record.attempts + 1
    blockedUntil := now + config.delayFor record.attempts random }
  { s with restarts := (s.restarts.delete entityId).set entityId next }.pruneRestartRecords
    config now

def deliverAll (s : Shard T) (entityId : JsString) (letters : List (BufferedMessage T)) :
    Shard T :=
  letters.foldl (fun s letter => s.deliver config now entityId letter) s

def onEntityTerminated (s : Shard T) (actor : JsString) : Shard T :=
  match s.entityPaths.getKey? actor with
  | none => s
  | some entityId =>
    let buffered := (s.entities.get? entityId).bind EntityState.passivating
    let s := { s with
      entities := s.entities.delete entityId
      entityPaths := s.entityPaths.delete entityId }.emit (.entityStopped entityId)
    match buffered with
    | none => s.backOffEntity config now random entityId
    | some buffered => s.deliverAll config now entityId buffered

/-- The timers of the entities are cancelled, and what is held goes to the dead letters. -/
def postStop (s : Shard T) : Shard T :=
  let untimed := s.entities.mapValues fun _ (state : EntityState T) =>
    { state with stopTimer := false }
  let s := { s with entities := untimed }
  let s := s.restarts.entries.foldl (fun s entry =>
    entry.2.held.foldl (fun s letter =>
      s.emit (.deadLettered entry.1 letter s.heldCount true)) s) s
  { s with restarts := .empty, heldCount := 0, stopped := true }

def onReceive (s : Shard T) : ShardInbox T → Shard T
  | .message (.entityEnvelope entityId message) sender =>
    s.onEntityEnvelope config now entityId { message := message, sender := sender }
  | .message (.passivateEntity entityId) _ => s.onPassivateEntity entityId
  | .message (.startEntities entityIds) _ => s.onStartEntities config now entityIds
  | .message (.startEntity entityId) _ => s.startEntity config now entityId
  | .message (.getShardStats replyTo) _ => s.onGetShardStats replyTo
  | .terminated actor => s.onEntityTerminated config now random actor
  | .passivate entity stopMessage sender => s.onPassivate config entity stopMessage sender
  | .entityStopTimeout entityId => s.onEntityStopTimeout entityId
  | .entityRestartTick entityId => s.onEntityRestartTick config now entityId
  | .shardPassivationRequest => s.onShardPassivationRequest now
  | .unhandled => s.emit .unhandled

/-- A message, at a reading of the clock and with what the jitter draws, or the end. -/
inductive Input (T : Type) where
  | receive (now random : ℚ) (message : ShardInbox T)
  | postStop

/-- A shard that has stopped reads no message. -/
def step (s : Shard T) (input : Input T) : Shard T :=
  bif s.stopped then s
  else
    match input with
    | .receive now random message => s.onReceive config now random message
    | .postStop => s.postStop

end Shard

end ActorTs.Cluster.Sharding
