import ActorTs.Mailbox.Mailbox

/-!
# The control-aware mailbox

Two queues: messages that the predicate says are control come before all others. A bound is
one on the others alone.
-/

namespace ActorTs.Mailbox

/-- What the predicate does when it is asked. -/
inductive PredicateAnswer where
  | threw | isTrue | notTrue
  deriving DecidableEq

structure ControlAwareMailbox (T : Type) extends DroppingMailbox T where
  /-- The answers to the calls of the predicate, which are numbered. -/
  isControl : ℕ → T → PredicateAnswer
  capacity : Option ℕ+ := none
  overflow : BoundedMailboxOverflow := .reject
  /-- How often the predicate has been asked. -/
  asked : ℕ := 0
  controlQueue : List (Envelope T) := []

namespace ControlAwareMailbox

variable {T : Type}

/-- Ask the predicate. Only `true` makes a message control. -/
def classesAsControl (m : ControlAwareMailbox T) (message : T) : Bool × ControlAwareMailbox T :=
  (m.isControl m.asked message = .isTrue, { m with asked := m.asked + 1 })

/-- The ordinary class after an admission, with the drops reported. -/
def settle (m : ControlAwareMailbox T) (a : Admission T) : ControlAwareMailbox T :=
  { m with
    toDroppingMailbox :=
      { m.toDroppingMailbox with userQueue := a.admitted ++ a.queue }.reportDrops a.drops }

def enqueue (m : ControlAwareMailbox T) (envelope : Envelope T) :
    Option MailboxFullError × ControlAwareMailbox T :=
  match m.classesAsControl envelope.message with
  | (true, m) => (none, { m with controlQueue := m.controlQueue ++ [envelope] })
  | (false, m) =>
    match m.capacity with
    | some capacity =>
      match admitArrival capacity m.overflow m.userQueue envelope with
      | .ok a => (none, m.settle a)
      | .error e => (some e, m)
    | none => (none, { m with userQueue := m.userQueue ++ [envelope] })

/-- The exempt door. -/
def enqueueSignal (m : ControlAwareMailbox T) (envelope : Envelope T) : ControlAwareMailbox T :=
  match m.classesAsControl envelope.message with
  | (true, m) => { m with controlQueue := m.controlQueue ++ [envelope] }
  | (false, m) => { m with userQueue := m.userQueue ++ [envelope] }

/-- The envelopes of a batch by their class, control and ordinary. -/
def classify (m : ControlAwareMailbox T) :
    List (Envelope T) → List (Envelope T) × List (Envelope T) × ControlAwareMailbox T
  | [] => ([], [], m)
  | envelope :: envelopes =>
    match m.classesAsControl envelope.message with
    | (true, m) =>
      let (control, ordinary, m) := m.classify envelopes
      (envelope :: control, ordinary, m)
    | (false, m) =>
      let (control, ordinary, m) := m.classify envelopes
      (control, envelope :: ordinary, m)

def admitOrdinaryReplay (m : ControlAwareMailbox T) (envelopes : List (Envelope T)) :
    Except MailboxFullError (Admission T) :=
  match m.capacity with
  | some capacity => admitReplay capacity m.overflow m.userQueue envelopes
  | none => .ok { admitted := envelopes, queue := m.userQueue }

/-- Each envelope of a batch goes back to the head of its class. -/
def prependUser (m : ControlAwareMailbox T) (envelopes : List (Envelope T)) :
    Option MailboxFullError × ControlAwareMailbox T :=
  let (control, ordinary, m) := m.classify envelopes
  match m.admitOrdinaryReplay ordinary with
  | .ok a => (none, { m with controlQueue := control ++ m.controlQueue }.settle a)
  | .error e => (some e, m)

def dequeueUser (m : ControlAwareMailbox T) : Option (Envelope T) × ControlAwareMailbox T :=
  if m.suspended then (none, m)
  else
    match m.controlQueue with
    | envelope :: controlQueue => (some envelope, { m with controlQueue := controlQueue })
    | [] => (m.userQueue.head?, { m with userQueue := m.userQueue.tail })

def drainUser (m : ControlAwareMailbox T) : List (Envelope T) × ControlAwareMailbox T :=
  (m.controlQueue ++ m.userQueue, { m with controlQueue := [], userQueue := [] })

end ControlAwareMailbox

end ActorTs.Mailbox
