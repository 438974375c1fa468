import ActorTs.Actor.OneFate
import ActorTs.Actor.RestartLimit
import ActorTs.Actor.Suspension
import ActorTs.Actor.Throttle
import ActorTs.Cluster.Downing.LeaseMajoritySides
import ActorTs.Cluster.FrameReassembly
import ActorTs.Cluster.MembershipCaps
import ActorTs.Cluster.MembershipEvents
import ActorTs.Cluster.MembershipSelf
import ActorTs.Cluster.Sharding.HandOffLimits
import ActorTs.Cluster.Sharding.PassivationCap
import ActorTs.Cluster.Sharding.RecencyOrder
import ActorTs.Cluster.Sharding.RegionBuffer
import ActorTs.Cluster.Sharding.RememberedEntities
import ActorTs.Cluster.Sharding.ShardCustody
import ActorTs.Crdt.MVRegisterRuns
import ActorTs.Crdt.QuorumReads
import ActorTs.Crdt.SubscriberRuns
import ActorTs.Crdt.WireSurvival
import ActorTs.Delivery.Soundness
import ActorTs.Pattern.CircuitBreakerRuns
import ActorTs.Persistence.ConcurrentWriters
import ActorTs.Serialization.CborRoundTrip
import ActorTs.Config.BuiltTrees
import ActorTs.Config.Interference
import ActorTs.Persistence.CachedSnapshotStore
import ActorTs.Persistence.ReplicatedHistory
import ActorTs.Persistence.MigrationRuns
import ActorTs.Persistence.ObjectStorage.ContextBinding
import ActorTs.Cluster.Singleton.HandOver
import ActorTs.Cluster.Singleton.Unique
import ActorTs.Persistence.ProjectionKinds
import ActorTs.Persistence.TagPolling
import ActorTs.Cluster.PubSub.Departed
import ActorTs.Crdt.GossipPacking
import ActorTs.Http.IdempotentRuns
import ActorTs.Persistence.ObjectStorage.DurableStateRuns
import ActorTs.Cache.Isolation
import ActorTs.Cluster.RemoteWatcherRuns
import ActorTs.Persistence.ObjectStorage.FilesystemLockRuns
import ActorTs.Cluster.Sharding.AllocationStrategy
import ActorTs.Crdt.GossipSweep
import ActorTs.Serialization.CborDepth
import ActorTs.Delivery.DedupWindows
import ActorTs.Actor.TokenBucket
import ActorTs.Cluster.Sharding.SegmentedScan
import ActorTs.Cluster.Sharding.HandOffFairness
import ActorTs.Cluster.Sharding.FrequencyCounts
import ActorTs.Cluster.Sharding.EntityName
import ActorTs.Persistence.ObjectStorage.BodyRoundTrip
