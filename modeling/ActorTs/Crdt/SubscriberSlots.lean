import ActorTs.Library.JsString
import ActorTs.Library.OrderedMap

/-!
# The slots of actor subscribers

The replicator tells an actor about a key through a slot: at most one notification waits in
the actor's mailbox, and a change while it waits replaces the value it carries. The slot is
emptied by the actor's cell as it hands the notification over, and that happens on the
actor's turn. A subscription that ends with a notification still queued leaves its slot
behind, for the hand-over or for the next subscription to find.

The replicator keeps its slots by key and by the path of the subscriber, and watches the actor while
it keeps any. A path is taken again by the next actor of that name, so a reference also has its uid
and its cell. A slot and a registration are known by the call of `subscribe` that made them.

What the two mailboxes hold is part of the state. The replicator's tables, its mailbox and its
watches outlive a restart.
-/

namespace ActorTs.Subscribers

/-- A subscriber. One without a cell on this node is told directly. -/
structure ActorRef where
  path : JsString
  uid : ℕ
  cell : ℕ
  isLocal : Bool := true
  deriving DecidableEq

/-- What a watch goes by. -/
def watchKeyOf (actor : ActorRef) : JsString × ℕ := (actor.path, actor.uid)

/-- A call of `subscribe`, and with it the function that it returned. -/
abbrev Ticket := ℕ

structure Registration where
  ticket : Ticket
  slot : ℕ
  deriving DecidableEq

structure Slot where
  subscriber : ActorRef
  queued : Option ℕ := none
  registration : Option Registration := none
  deriving DecidableEq

structure SubscriberEntry where
  subscriber : ActorRef
  keys : OrderedSet JsString
  watched : Bool

/-- What the replicator is told. -/
inductive Message where
  | subscribe (key : JsString) (subscriber : ActorRef) (ticket : Ticket)
  | unsubscribe (key : JsString) (ticket : Ticket)
  | handedOver (key : JsString) (slot : ℕ)
  | terminated (actor : ActorRef)
  deriving DecidableEq

/-- A notification in a mailbox, with the slot that its release empties. -/
structure Posted (V : Type*) where
  id : ℕ
  subscriber : ActorRef
  key : JsString
  slot : ℕ
  value : V

/-- A notification that an actor was handed. -/
structure Handed (V : Type*) where
  subscriber : ActorRef
  key : JsString
  value : V

structure State (V : Type*) where
  values : JsString → Option V
  /-- The slots by key and path. -/
  slots : OrderedMap (JsString × JsString) ℕ
  slot : ℕ → Slot
  subscribers : OrderedMap JsString SubscriberEntry
  tickets : Ticket → Option Registration
  /-- The calls of `subscribe`, each with its key and subscriber. -/
  calls : List (JsString × ActorRef)
  inbox : List Message
  watching : OrderedSet (JsString × ℕ)
  /-- The cells that will tell the replicator when they stop. -/
  watchers : OrderedSet ActorRef
  stopped : List ActorRef
  posted : List (Posted V)
  posts : ℕ
  handed : List (Handed V)

namespace State

variable {V : Type*}

def initial : State V where
  values := fun _ => none
  slots := OrderedMap.empty
  slot := fun _ => { subscriber := ⟨[], 0, 0, true⟩ }
  subscribers := OrderedMap.empty
  tickets := fun _ => none
  calls := []
  inbox := []
  watching := OrderedSet.empty
  watchers := OrderedSet.empty
  stopped := []
  posted := []
  posts := 0
  handed := []

def setSlot (s : State V) (i : ℕ) (slot : Slot) : State V :=
  { s with slot := Function.update s.slot i slot }

def tellReplicator (s : State V) (message : Message) : State V :=
  { s with inbox := s.inbox ++ [message] }

/-- A cell that has stopped answers the watch at once. -/
def watch (s : State V) (actor : ActorRef) : State V :=
  if watchKeyOf actor ∈ s.watching then s
  else
    let s := { s with watching := s.watching.add (watchKeyOf actor) }
    if actor ∈ s.stopped then s.tellReplicator (.terminated actor)
    else { s with watchers := s.watchers.add actor }

def unwatch (s : State V) (actor : ActorRef) : State V :=
  if watchKeyOf actor ∈ s.watching then
    { s with
      watching := s.watching.delete (watchKeyOf actor)
      watchers := s.watchers.delete actor }
  else s

def rememberSubscriber (s : State V) (path : JsString) (subscriber : ActorRef) (key : JsString) :
    State V :=
  match s.subscribers.get? path with
  | some entry =>
    { s with subscribers := s.subscribers.set path { entry with keys := entry.keys.add key } }
  | none =>
    let entry := ⟨subscriber, OrderedSet.empty.add key, subscriber.isLocal⟩
    let s := { s with subscribers := s.subscribers.set path entry }
    if subscriber.isLocal then s.watch subscriber else s

def forgetSubscription (s : State V) (path key : JsString) : State V :=
  match s.subscribers.get? path with
  | none => s
  | some entry =>
    let keys := entry.keys.delete key
    if 0 < keys.size then
      { s with subscribers := s.subscribers.set path { entry with keys } }
    else
      let s := { s with subscribers := s.subscribers.delete path }
      if entry.watched then s.unwatch entry.subscriber else s

def dropSlot (s : State V) (key path : JsString) : State V :=
  { s with slots := s.slots.delete (key, path) }.forgetSubscription path key

def tellDirectly (s : State V) (key : JsString) (subscriber : ActorRef) (value : V) : State V :=
  { s with handed := s.handed ++ [⟨subscriber, key, value⟩] }

def replaceQueuedValue (s : State V) (notification : ℕ) (value : V) : State V :=
  { s with posted := s.posted.map fun m => if m.id = notification then { m with value } else m }

/-- Post a fresh notification. What is posted to a cell that has stopped is lost, and the
slot keeps its mark. -/
def postNotification (s : State V) (key : JsString) (i : ℕ) (value : V) : State V :=
  let notification : Posted V := ⟨s.posts, (s.slot i).subscriber, key, i, value⟩
  { s.setSlot i { s.slot i with queued := some notification.id } with
    posts := s.posts + 1
    posted := if notification.subscriber ∈ s.stopped then s.posted else s.posted ++ [notification] }

def offerToSubscriber (s : State V) (key : JsString) (i : ℕ) (value : V) : State V :=
  if (s.slot i).subscriber.isLocal then
    match (s.slot i).queued with
    | some notification => s.replaceQueuedValue notification value
    | none => s.postNotification key i value
  else s.tellDirectly key (s.slot i).subscriber value

/-- The slot of the subscriber, made if there is none. -/
def findSlot (s : State V) (key : JsString) (subscriber : ActorRef) (ticket : Ticket) :
    State V × ℕ :=
  match s.slots.get? (key, subscriber.path) with
  | some i => (s, i)
  | none =>
    (({ s with slots := s.slots.set (key, subscriber.path) ticket }.setSlot ticket
      { subscriber }).rememberSubscriber subscriber.path subscriber key, ticket)

/-- Bind the call to the registration that holds the slot, made if there is none. -/
def bindTicket (s : State V) (i : ℕ) (ticket : Ticket) : State V :=
  let registration := (s.slot i).registration.getD ⟨ticket, i⟩
  { s.setSlot i { s.slot i with registration := some registration } with
    tickets := Function.update s.tickets ticket (some registration) }

def onDistributedDataSubscribe (s : State V) (key : JsString) (subscriber : ActorRef)
    (ticket : Ticket) : State V :=
  let (s, i) := s.findSlot key subscriber ticket
  let s := s.bindTicket i ticket
  match s.values key with
  | some current => s.offerToSubscriber key i current
  | none => s

def onDistributedDataUnsubscribe (s : State V) (key : JsString) (ticket : Ticket) : State V :=
  match s.tickets ticket with
  | none => s
  | some registration =>
    let slot := s.slot registration.slot
    if slot.registration ≠ some registration then s
    else if s.slots.get? (key, slot.subscriber.path) ≠ some registration.slot then s
    else
      let s := s.setSlot registration.slot { slot with registration := none }
      if slot.queued ≠ none then s else s.dropSlot key slot.subscriber.path

def onDistributedDataHandedOver (s : State V) (key : JsString) (i : ℕ) : State V :=
  if (s.slot i).registration ≠ none ∨ (s.slot i).queued ≠ none then s
  else if s.slots.get? (key, (s.slot i).subscriber.path) ≠ some i then s
  else s.dropSlot key (s.slot i).subscriber.path

def onTerminated (s : State V) (actor : ActorRef) : State V :=
  match s.subscribers.get? actor.path with
  | none => s
  | some entry =>
    { s with
      subscribers := s.subscribers.delete actor.path
      slots := entry.keys.elems.foldl (fun slots key => slots.delete (key, actor.path)) s.slots }

/-- The cell lets a notice of death through once for each watch. -/
def receiveTerminated (s : State V) (actor : ActorRef) : State V :=
  if watchKeyOf actor ∈ s.watching then
    { s with watching := s.watching.delete (watchKeyOf actor) }.onTerminated actor
  else s

def onReceive (s : State V) : Message → State V
  | .subscribe key subscriber ticket => s.onDistributedDataSubscribe key subscriber ticket
  | .unsubscribe key ticket => s.onDistributedDataUnsubscribe key ticket
  | .handedOver key slot => s.onDistributedDataHandedOver key slot
  | .terminated actor => s.receiveTerminated actor

variable {E : Type*} [DecidableEq E] (encode : V → E)

/-- The slots of a key, in the order they were made. -/
def slotsOf (s : State V) (key : JsString) : List ℕ :=
  (s.slots.entries.filter fun e => e.1.1 = key).map Prod.snd

def notifySlot (key : JsString) (value : V) (s : State V) (i : ℕ) : State V :=
  if (s.slot i).registration ≠ none then s.offerToSubscriber key i value else s

def applyMerged (s : State V) (key : JsString) (prev : Option V) (next : V) : State V :=
  let changed := { s with values := Function.update s.values key (some next) }
  if prev.map encode = some (encode next) then changed
  else (changed.slotsOf key).foldl (notifySlot key next) changed

/-- A value that is merged in is compared with the one that the key holds. -/
def merge (s : State V) (key : JsString) (next : V) : State V :=
  s.applyMerged encode key (s.values key) next

/-- A local update is compared with what its modifier was given, which the factory made if
the key holds nothing. -/
def applyModifier (s : State V) (key : JsString) (made : V) (mutator : V → V) : State V :=
  let current := (s.values key).getD made
  s.applyMerged encode key (some current) (mutator current)

def onDelete (s : State V) (key : JsString) : State V :=
  { s with values := Function.update s.values key none }

/-- The cell hands the notification over, and fires its release first. -/
def handOver (s : State V) (m : Posted V) : State V :=
  let s := { s with
    posted := s.posted.filter fun m' => m'.id ≠ m.id
    handed := s.handed ++ [⟨m.subscriber, m.key, m.value⟩] }
  if (s.slot m.slot).queued ≠ some m.id then s
  else
    let s := s.setSlot m.slot { s.slot m.slot with queued := none }
    if (s.slot m.slot).registration = none then s.tellReplicator (.handedOver m.key m.slot) else s

/-- The actor stops: what its mailbox holds is lost, and those who watch it are told. -/
def stop (s : State V) (actor : ActorRef) : State V :=
  let s := { s with
    stopped := actor :: s.stopped
    posted := s.posted.filter fun m => m.subscriber ≠ actor }
  if actor ∈ s.watchers then
    { s with watchers := s.watchers.delete actor }.tellReplicator (.terminated actor)
  else s

def subscribeActor (s : State V) (key : JsString) (subscriber : ActorRef) : State V :=
  { s with calls := s.calls ++ [(key, subscriber)] }.tellReplicator
    (.subscribe key subscriber s.calls.length)

end State

end ActorTs.Subscribers
