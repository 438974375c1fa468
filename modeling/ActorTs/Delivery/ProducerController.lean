import ActorTs.Library.JsString
import ActorTs.Library.OrderedMap

/-!
# The producer side of reliable delivery

A send gets the next sequence number when the window has room for it and waits
in a queue otherwise. What is in flight is sent again whenever its timer fires,
until an acknowledgment of this incarnation settles it.

When a timer fires is the network's choice. Every send carries the number of its arrival, which no
operation reads.
-/

namespace ActorTs.ReliableDelivery

structure Delivery (T : Type*) where
  producerId : JsString
  incarnation : JsString
  seq : ℕ
  body : T
  /-- Whether `replyTo` is something that can be told. -/
  replyTo : Bool
  deriving DecidableEq

structure Acknowledgment where
  producerId : JsString
  incarnation : JsString
  seq : ℕ
  deriving DecidableEq

/-- What a send brings as its `confirm`. -/
inductive Confirm where
  | absent
  | callback
  | notAFunction
  deriving DecidableEq

structure ProducerSend (T : Type*) where
  body : T
  confirm : Confirm
  deriving DecidableEq

/-- A send and the number of its arrival. -/
structure Arrived (T : Type*) where
  arrival : ℕ
  message : ProducerSend T

structure InFlight (T : Type*) where
  sent : Arrived T
  attempts : ℕ

/-- What a producer tells a send: that it was delivered, or that the producer
stopped. -/
inductive Outcome where
  | delivered
  | producerStopped
  deriving DecidableEq

structure Producer (T : Type*) where
  id : JsString
  incarnation : JsString
  windowSize : ℕ
  inflight : OrderedMap ℕ (InFlight T)
  pending : List (Arrived T)
  nextSeq : ℕ

/-- What one turn of the producer leaves behind: what it told the consumer, the
calls of `confirm`, and the sends that it gave the next sequence numbers. -/
structure ProducerTurn (T : Type*) where
  producer : Producer T
  deliveries : List (Delivery T) := []
  settled : List (ℕ × Outcome) := []
  numbered : List ℕ := []

namespace Producer

variable {T : Type*}

def initial (id incarnation : JsString) (windowSize : ℕ) : Producer T :=
  ⟨id, incarnation, windowSize, OrderedMap.empty, [], 1⟩

/-- The call of `confirm`, where there is one. -/
def settle (sent : Arrived T) (outcome : Outcome) : List (ℕ × Outcome) :=
  match sent.message.confirm with
  | .callback => [(sent.arrival, outcome)]
  | _ => []

def deliveryOf (p : Producer T) (seq : ℕ) (inflight : InFlight T) : Delivery T :=
  ⟨p.id, p.incarnation, seq, inflight.sent.message.body, true⟩

/-- Transmit a sequence number in flight once more. -/
def send (p : Producer T) (seq : ℕ) (inflight : InFlight T) : ProducerTurn T :=
  let inflight := { inflight with attempts := inflight.attempts + 1 }
  { producer := { p with inflight := p.inflight.set seq inflight }
    deliveries := [p.deliveryOf seq inflight] }

def dispatch (p : Producer T) (sent : Arrived T) : ProducerTurn T :=
  let seq := p.nextSeq
  { { p with nextSeq := p.nextSeq + 1 }.send seq ⟨sent, 0⟩ with numbered := [sent.arrival] }

def onSend (p : Producer T) (arrival : ℕ) (message : ProducerSend T) : ProducerTurn T :=
  if message.confirm = .notAFunction then { producer := p }
  else if p.inflight.size ≥ p.windowSize then
    { producer := { p with pending := p.pending ++ [⟨arrival, message⟩] } }
  else p.dispatch ⟨arrival, message⟩

def retransmit (p : Producer T) (seq : ℕ) : ProducerTurn T :=
  match p.inflight.get? seq with
  | none => { producer := p }
  | some current => p.send seq current

/-- Dispatch queued sends while the window is open. -/
def drain (p : Producer T) : List (Arrived T) → ProducerTurn T
  | [] => { producer := { p with pending := [] } }
  | sent :: rest =>
    if p.inflight.size < p.windowSize then
      let first := p.dispatch sent
      let others := first.producer.drain rest
      { producer := others.producer
        deliveries := first.deliveries ++ others.deliveries
        settled := first.settled ++ others.settled
        numbered := first.numbered ++ others.numbered }
    else { producer := { p with pending := sent :: rest } }

def onAcknowledgment (p : Producer T) (message : Acknowledgment) : ProducerTurn T :=
  if message.producerId ≠ p.id then { producer := p }
  else if message.incarnation ≠ p.incarnation then { producer := p }
  else
    match p.inflight.get? message.seq with
    | none => { producer := p }
    | some inflight =>
      let drained := { p with inflight := p.inflight.delete message.seq }.drain p.pending
      { drained with settled := settle inflight.sent .delivered ++ drained.settled }

def postStop (p : Producer T) : ProducerTurn T :=
  { producer := { p with inflight := OrderedMap.empty, pending := [] }
    settled := (p.inflight.values.flatMap fun inflight =>
        settle inflight.sent .producerStopped) ++
      p.pending.flatMap fun sent => settle sent .producerStopped }

end Producer

end ActorTs.ReliableDelivery
