import ActorTs.Cluster.Member
import ActorTs.Library.OrderedMap

/-!
# What shard regions and their coordinator say to each other

The entities of a type are dealt into shards by a hash of their ids. A region of the type runs on
every node; the coordinator on the leader places each shard on one region.

A region is known by its node and its path, and the coordinator files it under the two
joined by a bar.
-/

namespace ActorTs.Cluster.Sharding

/-- A shard id as a message carries it; `isShardIdInRange` says which are ids of the type. -/
abbrev ShardId := ℤ

def stringHash (text : JsString) : BitVec 32 :=
  text.foldl (fun hash c => (hash ^^^ BitVec.ofNat 32 c.toNat) * 16777619#32) 2166136261#32

/-- The empty id is never folded, so its hash keeps the basis, which is no 32-bit integer. -/
def hashShardId (entityId : JsString) (numShards : ℕ) : ShardId :=
  let hash : ℕ := if entityId = [] then 2166136261 else (stringHash entityId).toInt.natAbs
  ((hash % numShards : ℕ) : ℤ)

def isShardIdInRange (numShards : ℕ) (shardId : ShardId) : Bool :=
  0 ≤ shardId ∧ shardId < numShards

def regionKey (node : NodeAddress) (path : JsString) : JsString :=
  node.toString ++ "|" ++ path

lemma regionKey_ne_nil (node : NodeAddress) (path : JsString) : regionKey node path ≠ [] := by
  simp [regionKey, String.toJs, Char.toJs]

structure RegisterRegion where
  region : JsString
  node : NodeAddress
  proxy : Bool
  /-- The shards the region hosts already. -/
  hostedShards : List ShardId
  numShards : ℕ
  deriving DecidableEq

structure GetShardHome where
  shardId : ShardId
  requester : JsString
  requesterNode : NodeAddress
  deriving DecidableEq

/-- What a coordinator is told. -/
inductive ToCoordinator where
  | register (message : RegisterRegion)
  | getShardHome (message : GetShardHome)
  | beginHandOffAcknowledgment (shardId : ShardId)
  | handOffComplete (shardId : ShardId) (region : JsString) (node : NodeAddress)
  | regionTerminated (region : JsString) (node : NodeAddress)
  | regionHeartbeat (region : JsString) (node : NodeAddress)
  | entityStarted (shardId : ShardId) (entityId : JsString)
  | entityStopped (shardId : ShardId) (entityId : JsString)
  | getRememberedEntities (shardId : ShardId)
  deriving DecidableEq

/-- What a coordinator tells a region. -/
inductive ToRegion where
  | registerAcknowledgment
  | registerRefused (numShards regionNumShards : ℕ)
  | registrationRequest
  | regionEvicted (silentForMs : ℚ)
  | shardHome (shardId : ShardId) (region : JsString) (node : NodeAddress)
  | handOff (shardId : ShardId)
  | rememberedEntities (shardId : ShardId) (entityIds : List JsString)
  deriving DecidableEq

end ActorTs.Cluster.Sharding
