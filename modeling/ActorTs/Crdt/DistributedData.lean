import ActorTs.Library.JsNumber
import ActorTs.Library.JsString
import ActorTs.Library.OrderedMap

/-!
# The replicator of distributed data

Every node holds a replica of a store of mergeable values. An update runs on the node it is asked
of; a quorum write sends what came out to every other member and waits for enough of them, a quorum
read asks every other member and merges the answers, and gossip pushes what a node holds.

The store does not know its values: `CrdtOps` is what it uses of them. A throw,
of a factory, of a mutator or of a decoder, is `none`. What tells subscribers
and what is written to disk is left out.

A `World` is the nodes and the frames between them. Every frame ever sent can be
delivered at any time, any number of times or never, and a timer fires when it
fires. What `writes`, `reads`, `resolvedWrites` and `resolvedReads` record, no
operation reads.
-/

namespace ActorTs.DistributedData

/-- What the store uses of its values. -/
structure CrdtOps (V J I : Type*) where
  merge : V → V → V
  /-- Whether two values are of kinds that do not merge. -/
  crdtKindConflict : V → V → Bool
  toJSON : V → J
  decodeCrdt : J → Option I → Option V
  /-- Decoding with the default key for the elements the identity refuses. -/
  decodeWithDefaultKey : J → I → Option V
  customIdentity : V → Option I

inductive Consistency where
  | localOnly
  | majority
  | all
  | fromCount (count : JsNumber)
  deriving DecidableEq

/-- The number of replicas a quorum needs, out of `totalN`. -/
def clampQuorum (consistency : Consistency) (totalN : ℕ) : ℕ :=
  match consistency with
  | .localOnly => 1
  | .majority => totalN / 2 + 1
  | .all => totalN
  | .fromCount .nan => 1
  | .fromCount (.infinity _) => 1
  | .fromCount (.finite count) =>
    let fromCount := ⌊count.magnitude⌋₊
    if count.negative ∨ fromCount < 1 then 1
    else if fromCount > totalN then totalN
    else fromCount

structure PendingWrite (ν : Type*) where
  key : JsString
  required : ℕ
  acks : Finset ν
  targets : Finset ν

structure PendingRead (ν V : Type*) where
  key : JsString
  required : ℕ
  responses : Finset ν
  targets : Finset ν
  merged : Option V

/-- `null` among the identities says that the key is known to have none. -/
structure Replica (ν V I : Type*) where
  state : OrderedMap JsString V
  identities : OrderedMap JsString (Option I)
  pendingWrites : OrderedMap JsString (PendingWrite ν)
  pendingReads : OrderedMap JsString (PendingRead ν V)

inductive Frame (J : Type*) where
  | gossip (entries : List (JsString × J))
  | writeRequest (pendingId key : JsString) (value : J)
  | writeAcknowledgment (pendingId key : JsString)
  | readRequest (pendingId key : JsString)
  | readResponse (pendingId key : JsString) (value : Option J)

/-- What a promise came to. -/
inductive Settled (V : Type*) where
  | writeResolved
  | writeRejected
  /-- By reaching the quorum, or at the deadline with what there was. -/
  | readResolved (value : Option V) (byQuorum : Bool)
  | readRejected

/-- What one turn of a node leaves behind: the frames it sent, and the promise it
settled. -/
structure Turn (ν V J I : Type*) where
  replica : Replica ν V I
  sent : List (ν × Frame J) := []
  settled : Option (JsString × Settled V) := none

/-- A node: its address, the other members, and the cap on its pending quorum
requests, where zero means none. -/
structure Node (ν : Type*) where
  self : ν
  peers : List ν
  maxPendingQuorumRequests : ℕ

namespace Replica

variable {ν V J I : Type*} [DecidableEq ν] (ops : CrdtOps V J I)

def initial : Replica ν V I :=
  ⟨OrderedMap.empty, OrderedMap.empty, OrderedMap.empty, OrderedMap.empty⟩

def isPendingQuorumCapReached (node : Node ν) (r : Replica ν V I) : Bool :=
  if node.maxPendingQuorumRequests = 0 then false
  else r.pendingWrites.size + r.pendingReads.size ≥ node.maxPendingQuorumRequests

def applyMerged (r : Replica ν V I) (key : JsString) (next : V) : Replica ν V I :=
  { r with state := r.state.set key next }

def identityFor (r : Replica ν V I) (key : JsString) : Option I :=
  (r.identities.get? key).join

/-- File the value of a key again, under the identity it turned out to have. -/
def repairKeying (r : Replica ν V I) (key : JsString) (identity : I) : Replica ν V I :=
  match r.state.get? key with
  | none => r
  | some current =>
    match ops.decodeCrdt (ops.toJSON current) (some identity) with
    | some repaired => r.applyMerged key repaired
    | none =>
      match ops.decodeWithDefaultKey (ops.toJSON current) identity with
      | some repaired => r.applyMerged key repaired
      | none => r

def learnIdentity (r : Replica ν V I) (key : JsString) (factory : Option V) : Replica ν V I :=
  if r.identities.has key then r
  else
    match factory with
    | none => r
    | some template =>
      let identity := ops.customIdentity template
      let r := { r with identities := r.identities.set key identity }
      match identity with
      | none => r
      | some identity => r.repairKeying ops key identity

/-- The value a factory and a mutator put in the place of the one held. -/
def applyModifier (r : Replica ν V I) (key : JsString) (factory : Option V)
    (mutator : V → Option V) : Option V :=
  match r.state.get? key with
  | some current => mutator current
  | none => factory.bind mutator

def decodeOrDrop (r : Replica ν V I) (json : J) (key : JsString) : Option V :=
  ops.decodeCrdt json (r.identityFor key)

def mergeOrKeep (held received : V) : Option V :=
  if ops.crdtKindConflict held received then none else some (ops.merge held received)

/-- A value that arrived, merged into the one held where there is one. -/
def mergeReceived (current : Option V) (incoming : V) : Option V :=
  match current with
  | none => some incoming
  | some held => mergeOrKeep ops held incoming

structure Quorum where
  pendingId : JsString
  consistency : Consistency

def onUpdate (node : Node ν) (r : Replica ν V I) (key : JsString) (factory : Option V)
    (mutator : V → Option V) (quorum : Option Quorum) : Turn ν V J I :=
  let r := r.learnIdentity ops key factory
  match r.applyModifier key factory mutator with
  | none => { replica := r, settled := quorum.map fun q => (q.pendingId, .writeRejected) }
  | some next =>
    let r := r.applyMerged key next
    match quorum with
    | none => { replica := r }
    | some q =>
      let required := clampQuorum q.consistency (1 + node.peers.length)
      let acks : Finset ν := {node.self}
      if acks.card ≥ required then
        { replica := r, settled := some (q.pendingId, .writeResolved) }
      else if r.isPendingQuorumCapReached node then
        { replica := r, settled := some (q.pendingId, .writeRejected) }
      else
        let pending : PendingWrite ν := ⟨key, required, acks, node.peers.toFinset⟩
        { replica := { r with pendingWrites := r.pendingWrites.set q.pendingId pending }
          sent := node.peers.map fun peer =>
            (peer, .writeRequest q.pendingId key (ops.toJSON next)) }

/-- The deadline of a quorum write. -/
def writeTimeout (r : Replica ν V I) (pendingId : JsString) : Turn ν V J I :=
  match r.pendingWrites.get? pendingId with
  | none => { replica := r }
  | some _ =>
    { replica := { r with pendingWrites := r.pendingWrites.delete pendingId }
      settled := some (pendingId, .writeRejected) }

def onRead (node : Node ν) (r : Replica ν V I) (key pendingId : JsString)
    (consistency : Consistency) : Turn ν V J I :=
  let required := clampQuorum consistency (1 + node.peers.length)
  let localValue := r.state.get? key
  let responses : Finset ν := {node.self}
  if responses.card ≥ required then
    { replica := r, settled := some (pendingId, .readResolved localValue true) }
  else if r.isPendingQuorumCapReached node then
    { replica := r, settled := some (pendingId, .readRejected) }
  else
    let pending : PendingRead ν V := ⟨key, required, responses, node.peers.toFinset, localValue⟩
    { replica := { r with pendingReads := r.pendingReads.set pendingId pending }
      sent := node.peers.map fun peer => (peer, .readRequest pendingId key) }

/-- The deadline of a quorum read. -/
def readTimeout (r : Replica ν V I) (pendingId : JsString) : Turn ν V J I :=
  match r.pendingReads.get? pendingId with
  | none => { replica := r }
  | some pending =>
    { replica := { r with pendingReads := r.pendingReads.delete pendingId }
      settled := some (pendingId, .readResolved pending.merged false) }

/-- One entry of a gossip frame. -/
def onGossipEntry (r : Replica ν V I) (entry : JsString × J) : Replica ν V I :=
  match r.decodeOrDrop ops entry.2 entry.1 with
  | none => r
  | some incoming =>
    match mergeReceived ops (r.state.get? entry.1) incoming with
    | none => r
    | some merged => r.applyMerged entry.1 merged

def onGossip (node : Node ν) (r : Replica ν V I) (peer : ν) (entries : List (JsString × J)) :
    Turn ν V J I :=
  if peer = node.self then { replica := r }
  else { replica := entries.foldl (onGossipEntry ops) r }

def onWriteRequest (r : Replica ν V I) (peer : ν) (pendingId key : JsString) (value : J) :
    Turn ν V J I :=
  match r.decodeOrDrop ops value key with
  | none => { replica := r }
  | some incoming =>
    match mergeReceived ops (r.state.get? key) incoming with
    | none => { replica := r }
    | some merged =>
      { replica := r.applyMerged key merged
        sent := [(peer, .writeAcknowledgment pendingId key)] }

def onWriteAcknowledgment (r : Replica ν V I) (peer : ν) (pendingId key : JsString) :
    Turn ν V J I :=
  match r.pendingWrites.get? pendingId with
  | none => { replica := r }
  | some pending =>
    if key ≠ pending.key then { replica := r }
    else if peer ∉ pending.targets then { replica := r }
    else if peer ∈ pending.acks then { replica := r }
    else
      let pending := { pending with acks := insert peer pending.acks }
      if pending.acks.card ≥ pending.required then
        { replica := { r with pendingWrites := r.pendingWrites.delete pendingId }
          settled := some (pendingId, .writeResolved) }
      else { replica := { r with pendingWrites := r.pendingWrites.set pendingId pending } }

def onReadRequest (r : Replica ν V I) (peer : ν) (pendingId key : JsString) : Turn ν V J I :=
  { replica := r
    sent := [(peer, .readResponse pendingId key ((r.state.get? key).map ops.toJSON))] }

/-- What a pending read has merged, with one more answer. An answer that does not
decode, or is of another kind, is counted and not merged. -/
def foldResponse (r : Replica ν V I) (pending : PendingRead ν V) (value : Option J) : Option V :=
  match value with
  | none => pending.merged
  | some json =>
    match r.decodeOrDrop ops json pending.key with
    | none => pending.merged
    | some incoming => (mergeReceived ops pending.merged incoming).or pending.merged

/-- The end of a read that has its quorum: what it merged is applied to the
replica too. -/
def completeRead (r : Replica ν V I) (pendingId : JsString) (pending : PendingRead ν V) :
    Turn ν V J I :=
  let r := { r with pendingReads := r.pendingReads.delete pendingId }
  match pending.merged with
  | none => { replica := r, settled := some (pendingId, .readResolved none true) }
  | some read =>
    let current := r.state.get? pending.key
    match mergeReceived ops current read with
    | none => { replica := r, settled := some (pendingId, .readResolved current true) }
    | some merged =>
      { replica := r.applyMerged pending.key merged
        settled := some (pendingId, .readResolved (some read) true) }

def onReadResponse (r : Replica ν V I) (peer : ν) (pendingId key : JsString) (value : Option J) :
    Turn ν V J I :=
  match r.pendingReads.get? pendingId with
  | none => { replica := r }
  | some pending =>
    if key ≠ pending.key then { replica := r }
    else if peer ∉ pending.targets then { replica := r }
    else if peer ∈ pending.responses then { replica := r }
    else
      let pending := { pending with
        responses := insert peer pending.responses
        merged := foldResponse ops r pending value }
      if pending.responses.card ≥ pending.required then completeRead ops r pendingId pending
      else { replica := { r with pendingReads := r.pendingReads.set pendingId pending } }

def onWireFrame (node : Node ν) (r : Replica ν V I) (peer : ν) : Frame J → Turn ν V J I
  | .gossip entries => r.onGossip ops node peer entries
  | .writeRequest pendingId key value => r.onWriteRequest ops peer pendingId key value
  | .writeAcknowledgment pendingId key => r.onWriteAcknowledgment peer pendingId key
  | .readRequest pendingId key => r.onReadRequest ops peer pendingId key
  | .readResponse pendingId key value => r.onReadResponse ops peer pendingId key value

/-- What a gossip frame carries of the keys that went into it. -/
def gossipEntries (r : Replica ν V I) (keys : List JsString) : List (JsString × J) :=
  keys.filterMap fun key => (r.state.get? key).map fun value => (key, ops.toJSON value)

end Replica

structure Packet (ν J : Type*) where
  source : ν
  target : ν
  frame : Frame J

/-- A quorum write: what it was asked to do, and the value it broadcast. -/
structure Write (V : Type*) where
  key : JsString
  consistency : Consistency
  value : V
  deriving DecidableEq

/-- A quorum read: what it was asked to do, and the writes that were resolved
and what every node held under the key when it was issued. -/
structure Read (ν V : Type*) where
  key : JsString
  consistency : Consistency
  resolvedBefore : List (ν × JsString)
  held : ν → Option V

structure World (ν V J I : Type*) where
  replicas : ν → Replica ν V I
  wire : List (Packet ν J)
  writes : OrderedMap (ν × JsString) (Write V)
  reads : OrderedMap (ν × JsString) (Read ν V)
  resolvedWrites : List (ν × JsString)
  resolvedReads : List ((ν × JsString) × Option V × Bool)

/-- The up-members, all of them running the store, and the cap of each. -/
structure Cluster (ν : Type*) where
  members : List ν
  nodup : members.Nodup
  maxPendingQuorumRequests : ν → ℕ

inductive Action (ν V : Type*) where
  | update (node : ν) (key : JsString) (factory : Option V) (mutator : V → Option V)
      (quorum : Option Replica.Quorum)
  | read (node : ν) (key pendingId : JsString) (consistency : Consistency)
  | deliver (n : ℕ)
  /-- A gossip tick, with the target and the keys it happens to choose. -/
  | gossip (node target : ν) (keys : List JsString)
  | writeTimeout (node : ν) (pendingId : JsString)
  | readTimeout (node : ν) (pendingId : JsString)

variable {ν V J I : Type*} [DecidableEq ν]

def Cluster.node (cluster : Cluster ν) (self : ν) : Node ν :=
  ⟨self, cluster.members.filter (· ≠ self), cluster.maxPendingQuorumRequests self⟩

namespace World

variable (ops : CrdtOps V J I)

def initial : World ν V J I :=
  ⟨fun _ => Replica.initial, [], OrderedMap.empty, OrderedMap.empty, [], []⟩

/-- What a node holds under a key. -/
def held (w : World ν V J I) (key : JsString) (node : ν) : Option V :=
  (w.replicas node).state.get? key

/-- The world after a turn of a node. -/
def afterTurn (w : World ν V J I) (self : ν) (turn : Turn ν V J I) : World ν V J I :=
  { w with
    replicas := Function.update w.replicas self turn.replica
    wire := w.wire ++ turn.sent.map fun p => ⟨self, p.1, p.2⟩
    resolvedWrites :=
      match turn.settled with
      | some (pendingId, .writeResolved) => w.resolvedWrites ++ [(self, pendingId)]
      | _ => w.resolvedWrites
    resolvedReads :=
      match turn.settled with
      | some (pendingId, .readResolved value byQuorum) =>
        w.resolvedReads ++ [((self, pendingId), value, byQuorum)]
      | _ => w.resolvedReads }

/-- Record a quorum write whose update went through. -/
def recordWrite (w : World ν V J I) (self : ν) (key : JsString) (factory : Option V)
    (mutator : V → Option V) (quorum : Option Replica.Quorum) : World ν V J I :=
  match quorum, ((w.replicas self).learnIdentity ops key factory).applyModifier key factory
      mutator with
  | some q, some next =>
    { w with writes := w.writes.set (self, q.pendingId) ⟨key, q.consistency, next⟩ }
  | _, _ => w

/-- Record a quorum read. -/
def recordRead (w : World ν V J I) (self : ν) (key pendingId : JsString)
    (consistency : Consistency) : World ν V J I :=
  let issued : Read ν V := ⟨key, consistency, w.resolvedWrites, w.held key⟩
  { w with reads := w.reads.set (self, pendingId) issued }

/-- A pending id that the node has not used: the ids are drawn at random. -/
def Unused (w : World ν V J I) (self : ν) (pendingId : JsString) : Prop :=
  w.writes.has (self, pendingId) = false ∧ w.reads.has (self, pendingId) = false

instance (w : World ν V J I) (self : ν) (pendingId : JsString) :
    Decidable (w.Unused self pendingId) :=
  inferInstanceAs (Decidable (_ ∧ _))

/-- One action, where it can happen. -/
def step (cluster : Cluster ν) (w : World ν V J I) : Action ν V → Option (World ν V J I)
  | .update self key factory mutator quorum =>
    if self ∈ cluster.members ∧ ∀ q ∈ quorum, w.Unused self q.pendingId then
      some ((w.recordWrite ops self key factory mutator quorum).afterTurn self
        ((w.replicas self).onUpdate ops (cluster.node self) key factory mutator quorum))
    else none
  | .read self key pendingId consistency =>
    if self ∈ cluster.members ∧ w.Unused self pendingId then
      some ((w.recordRead self key pendingId consistency).afterTurn self
        ((w.replicas self).onRead (cluster.node self) key pendingId consistency))
    else none
  | .deliver n =>
    match w.wire[n]? with
    | none => none
    | some packet =>
      some (w.afterTurn packet.target ((w.replicas packet.target).onWireFrame ops
        (cluster.node packet.target) packet.source packet.frame))
  | .gossip self target keys =>
    if self ∈ cluster.members ∧ target ∈ (cluster.node self).peers then
      let entries := (w.replicas self).gossipEntries ops keys
      some (w.afterTurn self { replica := w.replicas self, sent := [(target, .gossip entries)] })
    else none
  | .writeTimeout self pendingId =>
    if self ∈ cluster.members then
      some (w.afterTurn self ((w.replicas self).writeTimeout pendingId))
    else none
  | .readTimeout self pendingId =>
    if self ∈ cluster.members then
      some (w.afterTurn self ((w.replicas self).readTimeout pendingId))
    else none

/-- The worlds of the runs whose steps all satisfy `P`. -/
inductive Reaches (cluster : Cluster ν) (P : World ν V J I → Action ν V → Prop) :
    World ν V J I → Prop
  | initial : Reaches cluster P initial
  | step {w w' : World ν V J I} {a : Action ν V} :
      Reaches cluster P w → w.step ops cluster a = some w' → P w a → Reaches cluster P w'

section Runs

variable (P : World ν V J I → Action ν V → Prop) [∀ w a, Decidable (P w a)]

/-- Take the actions one after the other, as long as all satisfy `P`. -/
def run (cluster : Cluster ν) : World ν V J I → List (Action ν V) → Option (World ν V J I)
  | w, [] => some w
  | w, a :: as =>
    if P w a then
      match w.step ops cluster a with
      | none => none
      | some w' => run cluster w' as
    else none

lemma Reaches.run {ops : CrdtOps V J I} {cluster : Cluster ν} {w w' : World ν V J I}
    (h : Reaches ops cluster P w) (as : List (Action ν V))
    (hrun : World.run ops P cluster w as = some w') : Reaches ops cluster P w' := by
  induction as generalizing w with
  | nil => exact Option.some.inj hrun ▸ h
  | cons a as ih =>
    rw [World.run] at hrun
    split at hrun
    · next hP =>
      split at hrun
      · cases hrun
      · next w'' hstep => exact ih (h.step hstep hP) hrun
    · cases hrun

end Runs

end World

end ActorTs.DistributedData
