import ActorTs.Crdt.SubscriberSlots

/-!
# Actor subscribers hear of the latest value

The ledger is what a subscriber may count on, kept apart from the replicator's tables: a
subscription begins with the call that finds none, ends with a call of a function that was
returned for it or when its actor stops, and nothing else ends it. A run of the system takes
the calls, the replicator's turns, the changes of the values, the hand-overs, the stops and
the restarts in any order, and a message other than a notice of death may be shed by the
replicator's mailbox.

Two things go wrong: an update that leaves a value as its factory made it is told to nobody, and the
late notice of an actor that had stopped drops the slots of the next actor on its path. In runs
without the two, a live subscription holds its slot, at most one notification is on its way for a
path and key, and what was told last is the value of the key.
-/

namespace ActorTs.Subscribers

variable {V E : Type*} (encode : V → E)

/-- A live subscription: the call that began it, and how much had been handed over then. -/
structure Subscription where
  id : Ticket
  since : ℕ

structure Ledger where
  live : ActorRef → JsString → Option Subscription
  /-- The subscription that a call ended up with. -/
  bound : Ticket → Option Ticket

namespace Ledger

def initial : Ledger := ⟨fun _ _ => none, fun _ => none⟩

def begin (l : Ledger) (key : JsString) (subscriber : ActorRef) (ticket : Ticket) (since : ℕ) :
    Ledger where
  live := fun actor k =>
    if actor = subscriber ∧ k = key then some ⟨ticket, since⟩ else l.live actor k
  bound := Function.update l.bound ticket (some ticket)

/-- A subscription begins, or the call joins the one there is. An actor that has stopped
has none. -/
def subscribe (l : Ledger) (s : State V) (key : JsString) (subscriber : ActorRef)
    (ticket : Ticket) : Ledger :=
  if subscriber ∈ s.stopped then l
  else match l.live subscriber key with
    | some subscription =>
      { l with bound := Function.update l.bound ticket (some subscription.id) }
    | none => l.begin key subscriber ticket s.handed.length

def unsubscribe (l : Ledger) (ticket : Ticket) : Ledger :=
  match l.bound ticket with
  | none => l
  | some id => { l with live := fun actor k => (l.live actor k).filter fun sub => sub.id ≠ id }

def stop (l : Ledger) (actor : ActorRef) : Ledger :=
  { l with live := fun actor' k => if actor' = actor then none else l.live actor' k }

def onReceive (l : Ledger) (s : State V) : Message → Ledger
  | .subscribe key subscriber ticket => l.subscribe s key subscriber ticket
  | .unsubscribe _ ticket => l.unsubscribe ticket
  | .handedOver _ _ => l
  | .terminated _ => l

end Ledger

structure System (V : Type*) where
  state : State V
  ledger : Ledger

/-- A step of a run. The modifier of an update is given what the factory made, if the key
holds nothing. -/
inductive Action (V : Type*) where
  | subscribe (key : JsString) (subscriber : ActorRef)
  | unsubscribe (key : JsString) (ticket : Ticket)
  | receive
  | shed (message : Message)
  | merge (key : JsString) (next : V)
  | update (key : JsString) (made : V) (mutator : V → V)
  | delete (key : JsString)
  | handOver (notification : Posted V)
  | stop (actor : ActorRef)
  | restart

namespace System

def initial : System V := ⟨State.initial, Ledger.initial⟩

def receive (x : System V) : System V :=
  match x.state.inbox with
  | [] => x
  | message :: rest =>
    let s := { x.state with inbox := rest }
    ⟨s.onReceive message, x.ledger.onReceive s message⟩

def step [DecidableEq E] (x : System V) : Action V → System V
  | .subscribe key subscriber => { x with state := x.state.subscribeActor key subscriber }
  | .unsubscribe key ticket => { x with state := x.state.tellReplicator (.unsubscribe key ticket) }
  | .receive => x.receive
  | .shed message => { x with state.inbox := x.state.inbox.erase message }
  | .merge key next => { x with state := x.state.merge encode key next }
  | .update key made mutator => { x with state := x.state.applyModifier encode key made mutator }
  | .delete key => { x with state := x.state.onDelete key }
  | .handOver notification => { x with state := x.state.handOver notification }
  | .stop actor => ⟨x.state.stop actor, x.ledger.stop actor⟩
  | .restart => x

/-- Whether the step can be taken. -/
def Enabled (x : System V) : Action V → Prop
  | .unsubscribe key ticket => ∃ subscriber, x.state.calls[ticket]? = some (key, subscriber)
  | .shed message => ∀ actor, message ≠ .terminated actor
  | .handOver notification => notification ∈ x.state.posted
  | .stop actor => actor.isLocal = true
  | _ => True

/-- The states of the runs whose steps are all allowed. -/
inductive Reachable [DecidableEq E] (allowed : System V → Action V → Prop) : System V → Prop
  | initial : Reachable allowed initial
  | step {x : System V} (h : Reachable allowed x) {a : Action V} (henabled : x.Enabled a)
      (hallowed : allowed x a) : Reachable allowed (x.step encode a)

end System

namespace State

/-- What was handed to an actor about a key, since so much had been handed over. -/
def handedSince (s : State V) (actor : ActorRef) (key : JsString) (since : ℕ) : List V :=
  ((s.handed.drop since).filter fun h => h.subscriber = actor ∧ h.key = key).map Handed.value

/-- What is on its way to an actor about a key. -/
def queuedFor (s : State V) (actor : ActorRef) (key : JsString) : List V :=
  (s.posted.filter fun m => m.subscriber = actor ∧ m.key = key).map Posted.value

/-- The replicator serves the subscription. -/
def Holds (s : State V) (actor : ActorRef) (key : JsString) (id : Ticket) : Prop :=
  ∃ i, s.slots.get? (key, actor.path) = some i ∧ (s.slot i).subscriber = actor ∧
    (s.slot i).registration = some ⟨id, i⟩

end State

/-- At most one notification is on its way, it or the last one handed over has the current
value, and a function that was returned for a subscription that has ended ends no other. -/
structure TellsLatest (x : System V) : Prop where
  at_most_one : ∀ path key, (x.state.posted.filter fun m =>
    m.subscriber.path = path ∧ m.key = key).length ≤ 1
  latest : ∀ actor key subscription value, x.ledger.live actor key = some subscription →
    x.state.values key = some value →
    (∃ queued ∈ x.state.queuedFor actor key, encode queued = encode value) ∨
      ∃ last, (x.state.handedSince actor key subscription.since).getLast? = some last ∧
        encode last = encode value
  ends_no_other : ∀ key ticket, (∃ subscriber, x.state.calls[ticket]? = some (key, subscriber)) →
    (∀ actor k subscription, x.ledger.live actor k = some subscription →
      x.ledger.bound ticket ≠ some subscription.id) →
    ∀ actor k subscription, x.ledger.live actor k = some subscription →
      (x.state.onDistributedDataUnsubscribe key ticket).Holds actor k subscription.id

/-- The tables keep nothing of another actor on the path. -/
def OwnPath (s : State V) (actor : ActorRef) : Prop :=
  ∀ entry, s.subscribers.get? actor.path = some entry → entry.subscriber = actor

/-- The steps that do not go wrong. -/
def Safe (x : System V) : Action V → Prop
  | .receive =>
    match x.state.inbox.head? with
    | some (.subscribe _ subscriber _) => OwnPath x.state subscriber
    | some (.terminated actor) =>
      watchKeyOf actor ∈ x.state.watching → OwnPath x.state actor
    | _ => True
  | .update key made mutator =>
    x.state.values key = none → encode (mutator made) ≠ encode made
  | _ => True

end ActorTs.Subscribers
