import ActorTs.Library.JsString
import ActorTs.Library.Machine
import ActorTs.Util.BidirectionalMultiMap
import Mathlib

/-!
# The publish-subscribe mediator

Every node of a cluster hosts a mediator. It keeps which local actors subscribe to which
topic, and of every other node which topics it claims to have subscribers for, and it sends
what is published to both. Its state is four structures: the topics with their claims and
rotation cursors, the relation of topics and subscriber paths, what is known of each
subscriber, and the peers whose first frame was answered.

Nodes are named by their printed addresses. Topics are of any type, since the entries of a frame are
read without a check. The up members, the peer a periodic push draws and the throws of subscribers
are inputs.
-/

namespace ActorTs.Cluster.PubSub

/-- An actor reference: two references of one path may be two objects. -/
structure SubscriberRef where
  path : JsString
  object : ℕ
  deriving DecidableEq

structure SubscriberEntry where
  ref : SubscriberRef
  deliverWithOrigin : Bool
  deriving DecidableEq

/-- What a topic holds besides its local subscribers. -/
structure TopicState where
  remoteNodes : OrderedSet JsString
  originatedAnycast : ℕ
  forwardedAnycast : ℕ

/-- Settings that the validator accepts. -/
structure DistributedPubSubOptions where
  selfAddress : JsString
  maxSubscribersPerTopic : ℕ := 10000
  maxTopics : ℕ := 10000
  maxRemoteNodesPerTopic : ℕ := 1000
  sendToDeadLettersWhenNoSubscribers : Bool := true
  subscribersPositive : 0 < maxSubscribersPerTopic
  topicsPositive : 0 < maxTopics
  remoteNodesPositive : 0 < maxRemoteNodesPerTopic

structure Subscribe (τ : Type*) where
  topic : τ
  ref : SubscriberRef
  /-- The path a reply goes to: that of `replyTo`, or else that of the sender. -/
  replyTo : Option JsString
  deliverWithOrigin : Bool := false

inductive PubSubDelivery where
  | allSubscribers | oneSubscriber

inductive PubSubSubscribeRejectionReason where
  | maxSubscribersPerTopic | maxTopics

structure CapRefusal where
  reason : PubSubSubscribeRejectionReason
  limit : ℕ

/-- What the mediator does besides changing its state. -/
inductive Effect (τ β : Type*) where
  | watch (ref : SubscriberRef)
  | unwatch (ref : SubscriberRef)
  | acknowledgeSubscribe (recipient : JsString) (message : Subscribe τ)
  | reject (recipient : JsString) (topic : τ) (refusal : CapRefusal)
  | acknowledgeUnsubscribe (recipient : JsString) (topic : τ) (ref : SubscriberRef)
  | tell (entry : SubscriberEntry) (topic : τ) (body : β) (origin : Option JsString)
  | sendGossip (recipient : JsString) (entries : List τ) (version : ℕ)
  | sendPublish (recipient : JsString) (topic : τ) (body : β)
  | sendPublishOne (recipient : JsString) (topic : τ) (body : β)
  | deadLetter (body : β)

structure Mediator (τ : Type*) [DecidableEq τ] where
  topics : OrderedMap τ TopicState
  version : ℕ
  answeredPeers : OrderedSet JsString
  subscriptions : BidirectionalMultiMap τ JsString
  subscriberRefs : OrderedMap JsString SubscriberEntry

namespace Mediator

variable {τ β : Type*} [DecidableEq τ]

def init : Mediator τ := ⟨.empty, 0, .empty, .empty, .empty⟩

def freshTopicState : TopicState := ⟨.empty, 0, 0⟩

def getOrCreateTopicState (m : Mediator τ) (topic : τ) : Mediator τ :=
  match m.topics.get? topic with
  | some _ => m
  | none => { m with topics := m.topics.set topic freshTopicState }

/-- A topic goes once it has neither a local subscriber nor a claim. -/
def maybeDropTopic (m : Mediator τ) (topic : τ) : Mediator τ :=
  match m.topics.get? topic with
  | none => m
  | some state =>
    if !m.subscriptions.hasLeft topic ∧ state.remoteNodes.size = 0 then
      { m with topics := m.topics.delete topic }
    else m

/-- Change the state of a topic that is kept. -/
def modifyTopic (m : Mediator τ) (topic : τ) (f : TopicState → TopicState) : Mediator τ :=
  match m.topics.get? topic with
  | none => m
  | some state => { m with topics := m.topics.set topic (f state) }

def withoutNode (node : JsString) (state : TopicState) : TopicState :=
  { state with remoteNodes := state.remoteNodes.delete node }

def withNode (node : JsString) (state : TopicState) : TopicState :=
  { state with remoteNodes := state.remoteNodes.add node }

/-- The walk of `handleGossip` and `forgetNode`: a node claims no topic any more. -/
def clearClaims (m : Mediator τ) (node : JsString) : Mediator τ :=
  m.topics.entries.foldl (fun m entry =>
    (m.modifyTopic entry.1 (withoutNode node)).maybeDropTopic entry.1) m

def capRefusal (options : DistributedPubSubOptions) (m : Mediator τ) (topic : τ) :
    Option CapRefusal :=
  match m.topics.get? topic with
  | none =>
    if m.topics.size ≥ options.maxTopics then some ⟨.maxTopics, options.maxTopics⟩ else none
  | some _ =>
    if (m.subscriptions.get topic).size ≥ options.maxSubscribersPerTopic then
      some ⟨.maxSubscribersPerTopic, options.maxSubscribersPerTopic⟩
    else none

def rememberSubscription (m : Mediator τ) (message : Subscribe τ) : Mediator τ :=
  { m with
    subscriberRefs :=
      m.subscriberRefs.set message.ref.path ⟨message.ref, message.deliverWithOrigin⟩
    subscriptions := m.subscriptions.add message.topic message.ref.path }

/-- The subscriber's entry goes with its last subscription. -/
def forgetSubscriber (m : Mediator τ) (key : JsString) : Mediator τ :=
  if m.subscriptions.hasRight key then m
  else { m with subscriberRefs := m.subscriberRefs.delete key }

/-- The topics that have a local subscriber, for a frame. -/
def gossipEntries (m : Mediator τ) : List τ := m.topics.keys.filter m.subscriptions.hasLeft

/-- An answer, where there is someone to get it. -/
def reply (recipient : Option JsString) (answer : JsString → Effect τ β) : List (Effect τ β) :=
  (recipient.map answer).toList

/-- The present topics, to every peer that is up. -/
def eagerGossip (m : Mediator τ) (peers : List JsString) : List (Effect τ β) :=
  peers.map fun peer => .sendGossip peer m.gossipEntries m.version

/-- The nodes that claim a topic, this node excluded, in the order of their addresses. -/
def remoteCandidatesOf (options : DistributedPubSubOptions) (m : Mediator τ) (topic : τ) :
    List JsString :=
  match m.topics.get? topic with
  | none => []
  | some state =>
    (state.remoteNodes.elems.mergeSort fun a b => decide (a ≤ b)).filter (· ≠ options.selfAddress)

/-- The local subscribers of a topic, in the order of their subscriptions. -/
def localSubscribersOf (m : Mediator τ) (topic : τ) : List SubscriberEntry :=
  (m.subscriptions.get topic).elems.filterMap m.subscriberRefs.get?

def deadLetter (options : DistributedPubSubOptions) (body : β) : List (Effect τ β) :=
  if options.sendToDeadLettersWhenNoSubscribers then [.deadLetter body] else []

/-- Tell one subscriber: one that throws counts as not reached. -/
def tellOne (options : DistributedPubSubOptions) (throws : SubscriberEntry → Bool)
    (entry : SubscriberEntry) (topic : τ) (body : β) (origin : Option JsString) :
    List (Effect τ β) :=
  .tell entry topic body origin :: if throws entry then deadLetter options body else []

def deliverLocal (m : Mediator τ) (topic : τ) (body : β) (origin : Option JsString) :
    List (Effect τ β) :=
  (m.localSubscribersOf topic).map fun entry => .tell entry topic body origin

/-- The number of subscribers that a delivery reaches. -/
def deliveredLocal (m : Mediator τ) (throws : SubscriberEntry → Bool) (topic : τ) : ℕ :=
  ((m.localSubscribersOf topic).filter fun entry => !throws entry).length

variable (options : DistributedPubSubOptions)

def onSubscribe (m : Mediator τ) (message : Subscribe τ) (peers : List JsString) :
    Mediator τ × List (Effect τ β) :=
  let key := message.ref.path
  let changed := !m.subscriptions.has message.topic key
  match if changed then m.capRefusal options message.topic else none with
  | some refusal => (m, reply message.replyTo (.reject · message.topic refusal))
  | none =>
    let watched := if m.subscriptions.hasRight key then [] else [.watch message.ref]
    let m := (m.getOrCreateTopicState message.topic).rememberSubscription message
    let m := if changed then { m with version := m.version + 1 } else m
    (m, watched ++ reply message.replyTo (.acknowledgeSubscribe · message) ++
      if changed then m.eagerGossip peers else [])

def onUnsubscribe (m : Mediator τ) (topic : τ) (ref : SubscriberRef)
    (sender : Option JsString) (peers : List JsString) : Mediator τ × List (Effect τ β) :=
  let acknowledged := reply sender (.acknowledgeUnsubscribe · topic ref)
  if m.subscriptions.has topic ref.path then
    let m := { m with subscriptions := m.subscriptions.delete topic ref.path }
    let unwatched := if m.subscriptions.hasRight ref.path then [] else [.unwatch ref]
    let m := m.forgetSubscriber ref.path
    let m := { m with version := m.version + 1 }.maybeDropTopic topic
    (m, unwatched ++ acknowledged ++ m.eagerGossip peers)
  else (m, acknowledged)

/-- The body of `onUnsubscribeAll` and `onTerminated`. -/
def dropSubscriber (m : Mediator τ) (ref : SubscriberRef) (peers : List JsString) :
    Mediator τ × List (Effect τ β) :=
  let subscribed := (m.subscriptions.getKeys ref.path).elems
  if m.subscriptions.hasRight ref.path then
    let m := { m with
      subscriptions := m.subscriptions.deleteRight ref.path
      subscriberRefs := m.subscriberRefs.delete ref.path }
    let m := subscribed.foldl (fun m topic =>
      { m with version := m.version + 1 }.maybeDropTopic topic) m
    (m, .unwatch ref :: m.eagerGossip peers)
  else (m, [])

def publishToAllSubscribers (m : Mediator τ) (throws : SubscriberEntry → Bool) (topic : τ)
    (body : β) : Mediator τ × List (Effect τ β) :=
  let remoteNodes := m.remoteCandidatesOf options topic
  (m, m.deliverLocal topic body (some options.selfAddress) ++
    remoteNodes.map (fun node => .sendPublish node topic body) ++
    if m.deliveredLocal throws topic = 0 ∧ remoteNodes = [] then deadLetter options body else [])

/-- Advance a cursor over some candidates: the index it hands out, and where it stands then. -/
def rotate (cursor candidateCount : ℕ) : ℕ × ℕ :=
  (cursor % candidateCount, (cursor % candidateCount + 1) % candidateCount)

def publishToOneSubscriber (m : Mediator τ) (throws : SubscriberEntry → Bool) (topic : τ)
    (body : β) : Mediator τ × List (Effect τ β) :=
  let localSubscribers := m.localSubscribersOf topic
  let remoteNodes := m.remoteCandidatesOf options topic
  let candidateCount := localSubscribers.length + remoteNodes.length
  match m.topics.get? topic with
  | none => (m, deadLetter options body)
  | some state =>
    if candidateCount = 0 then (m, deadLetter options body)
    else
      let (index, next) := rotate state.originatedAnycast candidateCount
      let m := m.modifyTopic topic fun state => { state with originatedAnycast := next }
      match localSubscribers[index]? with
      | some entry => (m, tellOne options throws entry topic body (some options.selfAddress))
      | none => (m, (remoteNodes[index - localSubscribers.length]?.map fun node =>
        .sendPublishOne node topic body).toList)

def onPublish (m : Mediator τ) (throws : SubscriberEntry → Bool) (topic : τ) (body : β) :
    PubSubDelivery → Mediator τ × List (Effect τ β)
  | .oneSubscriber => m.publishToOneSubscriber options throws topic body
  | .allSubscribers => m.publishToAllSubscribers options throws topic body

def onPubSubPublish (m : Mediator τ) (throws : SubscriberEntry → Bool) (topic : τ) (body : β)
    (origin : Option JsString) : Mediator τ × List (Effect τ β) :=
  (m, m.deliverLocal topic body origin ++
    if m.deliveredLocal throws topic = 0 then deadLetter options body else [])

def onPubSubPublishOne (m : Mediator τ) (throws : SubscriberEntry → Bool) (topic : τ) (body : β)
    (origin : Option JsString) : Mediator τ × List (Effect τ β) :=
  let subscribers := m.localSubscribersOf topic
  match m.topics.get? topic with
  | none => (m, deadLetter options body)
  | some state =>
    let (index, next) := rotate state.forwardedAnycast subscribers.length
    match subscribers[index]? with
    | none => (m, deadLetter options body)
    | some entry =>
      (m.modifyTopic topic fun state => { state with forwardedAnycast := next },
        tellOne options throws entry topic body origin)

/-- Whether a claim on a topic is within the caps. -/
def HasRoom (m : Mediator τ) (topic : τ) : Prop :=
  match m.topics.get? topic with
  | none => m.topics.size < options.maxTopics
  | some state => state.remoteNodes.size < options.maxRemoteNodesPerTopic

instance (m : Mediator τ) (topic : τ) : Decidable (m.HasRoom options topic) := by
  unfold HasRoom
  exact match m.topics.get? topic with
    | none => inferInstance
    | some _ => inferInstance

/-- One claim of a frame. -/
def bookClaim (node : JsString) (m : Mediator τ) (topic : τ) : Mediator τ :=
  if m.HasRoom options topic then
    (m.getOrCreateTopicState topic).modifyTopic topic (withNode node)
  else m

/-- A frame replaces what its sender claimed, whoever the sender is. One whose entries are
no list throws once the old claims are gone. -/
def handleGossip (m : Mediator τ) (entries : Option (List τ)) (sender : JsString) :
    Mediator τ × List (Effect τ β) :=
  let m := m.clearClaims sender
  match entries with
  | none => (m, [])
  | some entries =>
    let m := entries.foldl (bookClaim options sender) m
    if m.answeredPeers.has sender then (m, [])
    else ({ m with answeredPeers := m.answeredPeers.add sender },
      [.sendGossip sender m.gossipEntries m.version])

def forgetNode (m : Mediator τ) (node : JsString) : Mediator τ :=
  { m with answeredPeers := m.answeredPeers.delete node }.clearClaims node

def onMemberUp (m : Mediator τ) (peers : List JsString) : Mediator τ × List (Effect τ β) :=
  let m := { m with version := m.version + 1 }
  (m, m.eagerGossip peers)

end Mediator

/-- What the mediator takes: messages, frames and membership events. -/
inductive Input (τ β : Type*) where
  | subscribe (message : Subscribe τ) (peers : List JsString)
  | unsubscribe (topic : τ) (ref : SubscriberRef) (sender : Option JsString)
      (peers : List JsString)
  | unsubscribeAll (ref : SubscriberRef) (peers : List JsString)
  | terminated (ref : SubscriberRef) (peers : List JsString)
  | publish (topic : τ) (body : β) (delivery : PubSubDelivery) (throws : SubscriberEntry → Bool)
  | pubSubPublish (topic : τ) (body : β) (origin : Option JsString)
      (throws : SubscriberEntry → Bool)
  | pubSubPublishOne (topic : τ) (body : β) (origin : Option JsString)
      (throws : SubscriberEntry → Bool)
  | gossip (entries : Option (List τ)) (sender : JsString)
  | gossipTick (target : Option JsString)
  | memberUp (node : JsString) (peers : List JsString)
  | memberRemoved (node : JsString)
  /-- The events that the mediator ignores, with the node that one of them brings back. -/
  | otherClusterEvent (returned : Option JsString)

/-- A mediator, and the nodes whose removal it handled and that are no members again. -/
structure Registry (τ : Type*) [DecidableEq τ] where
  mediator : Mediator τ
  departed : OrderedSet JsString

namespace Registry

variable {τ β : Type*} [DecidableEq τ] (options : DistributedPubSubOptions)

def init : Registry τ := ⟨.init, .empty⟩

/-- What handling an input makes of the mediator, and what it sends. -/
def handle (m : Mediator τ) : Input τ β → Mediator τ × List (Effect τ β)
  | .subscribe message peers => m.onSubscribe options message peers
  | .unsubscribe topic ref sender peers => m.onUnsubscribe topic ref sender peers
  | .unsubscribeAll ref peers => m.dropSubscriber ref peers
  | .terminated ref peers => m.dropSubscriber ref peers
  | .publish topic body delivery throws => m.onPublish options throws topic body delivery
  | .pubSubPublish topic body origin throws => m.onPubSubPublish options throws topic body origin
  | .pubSubPublishOne topic body origin throws =>
    m.onPubSubPublishOne options throws topic body origin
  | .gossip entries sender => m.handleGossip options entries sender
  | .gossipTick target => (m, m.eagerGossip target.toList)
  | .memberUp _ peers => m.onMemberUp peers
  | .memberRemoved node => (m.forgetNode node, [])
  | .otherClusterEvent _ => (m, [])

/-- Who is gone once an input is handled. -/
def departures (departed : OrderedSet JsString) : Input τ β → OrderedSet JsString
  | .memberRemoved node => departed.add node
  | .memberUp node _ => departed.delete node
  | .otherClusterEvent (some node) => departed.delete node
  | _ => departed

def step (r : Registry τ) (input : Input τ β) : Registry τ :=
  ⟨(handle options r.mediator input).1, departures r.departed input⟩

def effects (r : Registry τ) (input : Input τ β) : List (Effect τ β) :=
  (handle options r.mediator input).2

/-- The registry once the inputs of a run are handled. -/
def run (inputs : List (Input τ β)) : Registry τ := Machine.run (step options) init inputs

end Registry

end ActorTs.Cluster.PubSub
