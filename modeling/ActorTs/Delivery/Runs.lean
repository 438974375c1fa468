import ActorTs.Delivery.ConsumerController

/-!
# A producer and a consumer over a network

One producer, one consumer, and a network that keeps every message ever told and hands over any of
them at any moment, or never. Deliveries of other producers may arrive at any moment too. A handler
ends when it ends, with a result or with a throw.

`trace` records, in the order of time, the handlers that returned and the calls
of `confirm`; the `ledger` has the sends in the order they reached the producer,
and which of them each sequence number was given to. No operation reads either.
-/

namespace ActorTs.ReliableDelivery

inductive Event (T : Type*) where
  /-- The handler returned for this delivery. -/
  | handled (message : Delivery T)
  /-- `confirm` of this send was called. -/
  | settled (arrival : ℕ) (outcome : Outcome)
  deriving DecidableEq

/-- What the run is about: who the producer is, and how both are configured. -/
structure Setup where
  id : JsString
  incarnation : JsString
  windowSize : ℕ
  options : ConsumerOptions

/-- The sends in the order of their arrival, and the arrivals in the order in
which they were numbered, from one on. -/
structure Ledger (T : Type*) where
  arrivals : List (ProducerSend T)
  numbering : List ℕ

/-- The send that a sequence number was given to, with its arrival. -/
def Ledger.sendOf {T : Type*} (l : Ledger T) (seq : ℕ) : Option (ℕ × ProducerSend T) :=
  match l.numbering[seq - 1]? with
  | none => none
  | some arrival => (l.arrivals[arrival]?).map (arrival, ·)

structure System (T : Type*) where
  producer : Producer T
  stopped : Bool
  consumer : Consumer T
  deliveries : List (Delivery T)
  acknowledgments : List Acknowledgment
  ledger : Ledger T
  trace : List (Event T)

inductive Action (T : Type*) where
  /-- A send reaches the producer. -/
  | send (message : ProducerSend T)
  /-- The timer of a sequence number fires. -/
  | retransmit (seq : ℕ)
  /-- The consumer takes up a delivery the producer told it. -/
  | deliver (n : ℕ) (now : ℚ)
  /-- The consumer takes up a delivery of another producer. -/
  | deliverOther (message : Delivery T) (now : ℚ)
  | handlerReturns (now : ℚ)
  | handlerThrows
  | sweep (now : ℚ)
  /-- The producer takes up an acknowledgment. -/
  | acknowledge (n : ℕ)
  | stop

namespace System

variable {T : Type*}

def initial (c : Setup) : System T where
  producer := .initial c.id c.incarnation c.windowSize
  stopped := false
  consumer := .initial
  deliveries := []
  acknowledgments := []
  ledger := ⟨[], []⟩
  trace := []

def afterTurn (s : System T) (turn : ProducerTurn T) : System T :=
  { s with
    producer := turn.producer
    deliveries := s.deliveries ++ turn.deliveries
    ledger := { s.ledger with numbering := s.ledger.numbering ++ turn.numbered }
    trace := s.trace ++ turn.settled.map fun p => .settled p.1 p.2 }

def afterConsumer (s : System T) (turn : Consumer T × List Acknowledgment) : System T :=
  { s with consumer := turn.1, acknowledgments := s.acknowledgments ++ turn.2 }

/-- One action, where it can happen: a stopped producer takes nothing up, and
neither does a consumer whose handler is running. -/
def step (c : Setup) (s : System T) : Action T → Option (System T)
  | .send message =>
    if s.stopped then none
    else some ({ s with ledger :=
        { s.ledger with arrivals := s.ledger.arrivals ++ [message] } }.afterTurn
      (s.producer.onSend s.ledger.arrivals.length message))
  | .retransmit seq =>
    if s.stopped then none else some (s.afterTurn (s.producer.retransmit seq))
  | .deliver n now =>
    match s.deliveries[n]?, s.consumer.running with
    | some message, none =>
      some (s.afterConsumer (s.consumer.handleDelivery c.options now message))
    | _, _ => none
  | .deliverOther message now =>
    if message.producerId = c.id ∨ s.consumer.running.isSome then none
    else some (s.afterConsumer (s.consumer.handleDelivery c.options now message))
  | .handlerReturns now =>
    match s.consumer.running with
    | none => none
    | some (message, state) =>
      some { s.afterConsumer (s.consumer.handlerReturned now message state) with
        trace := s.trace ++ [.handled message] }
  | .handlerThrows =>
    match s.consumer.running with
    | none => none
    | some _ => some { s with consumer := s.consumer.handlerThrew }
  | .sweep now => some { s with consumer := s.consumer.sweepIdleProducers c.options now }
  | .acknowledge n =>
    match s.acknowledgments[n]? with
    | none => none
    | some message =>
      if s.stopped then none else some (s.afterTurn (s.producer.onAcknowledgment message))
  | .stop =>
    if s.stopped then none
    else some { s.afterTurn s.producer.postStop with stopped := true }

/-- The handler of one of this producer's deliveries is running. -/
def HandlesOwn (c : Setup) (s : System T) : Prop :=
  ∃ message state, s.consumer.running = some (message, state) ∧ message.producerId = c.id

/-- The step takes the producer's entry away only while its own handler runs. -/
def KeepsEntry (c : Setup) (s s' : System T) : Prop :=
  s.consumer.deduplication.has c.id = true →
    s'.consumer.deduplication.has c.id = true ∨ s.HandlesOwn c

/-- A throw of one of this producer's handlers finds its entry still in place, or
leaves nothing to be lost. -/
def ThrowsHarmlessly (c : Setup) (s : System T) (a : Action T) : Prop :=
  a = .handlerThrows → ∀ message state, s.consumer.running = some (message, state) →
    message.producerId = c.id → s.consumer.deduplication.has c.id = true ∨
      state.contiguous = 0 ∧ state.above = OrderedSet.empty

/-- The states of the runs whose steps all satisfy `P`. -/
inductive Reaches (c : Setup) (P : System T → Action T → System T → Prop) : System T → Prop
  | initial : Reaches c P (System.initial c)
  | step {s s' : System T} {a : Action T} :
      Reaches c P s → s.step c a = some s' → P s a s' → Reaches c P s'

/-- The sequence numbers of the producer whose handler returned, one for each
time it did. -/
def handledSeqs (c : Setup) (trace : List (Event T)) : List ℕ :=
  trace.filterMap fun
    | .handled message => if message.producerId = c.id then some message.seq else none
    | .settled _ _ => none

/-- The handler returned for the send that arrived as number `arrival`: for a
delivery under the sequence number it was given, with its body. -/
def HandledFor (c : Setup) (l : Ledger T) (trace : List (Event T)) (arrival : ℕ) : Prop :=
  ∃ message sent, .handled message ∈ trace ∧ message.producerId = c.id ∧
    l.sendOf message.seq = some (arrival, sent) ∧ message.body = sent.body

/-- What is confirmed was handled before. -/
def ConfirmedAfter (c : Setup) (l : Ledger T) (trace : List (Event T)) : Prop :=
  ∀ before after arrival, trace = before ++ .settled arrival .delivered :: after →
    HandledFor c l before arrival

/-- No sequence number is handled twice, and what is confirmed was handled
before. -/
structure Sound (c : Setup) (s : System T) : Prop where
  handledOnce : (handledSeqs c s.trace).Nodup
  confirmedAfter : ConfirmedAfter c s.ledger s.trace

end System

end ActorTs.ReliableDelivery
