import ActorTs.Mailbox.ControlAwareMailbox
import ActorTs.Mailbox.PriorityMailbox

/-!
# The mailbox of an actor

An actor has a mailbox of one of four kinds, and calls it without knowing which.
-/

namespace ActorTs.Mailbox

inductive UserMailbox (T : Type) where
  | base (m : BaseMailbox T)
  | bounded (m : BoundedMailbox T)
  | priority (m : PriorityMailbox T)
  | controlAware (m : ControlAwareMailbox T)

namespace UserMailbox

variable {T : Type}

def enqueue (envelope : Envelope T) : UserMailbox T → Option MailboxFullError × UserMailbox T
  | base m => (none, base (m.enqueue envelope))
  | bounded m => ((m.enqueue envelope).1, bounded (m.enqueue envelope).2)
  | priority m => ((m.enqueue envelope).1, priority (m.enqueue envelope).2)
  | controlAware m => ((m.enqueue envelope).1, controlAware (m.enqueue envelope).2)

def enqueueSignal (envelope : Envelope T) : UserMailbox T → UserMailbox T
  | base m => base (m.enqueue envelope)
  | bounded m => bounded (m.enqueueSignal envelope)
  | priority m => priority (m.enqueueSignal envelope)
  | controlAware m => controlAware (m.enqueueSignal envelope)

def prependUser (envelopes : List (Envelope T)) :
    UserMailbox T → Option MailboxFullError × UserMailbox T
  | base m => (none, base (m.prependUser envelopes))
  | bounded m => ((m.prependUser envelopes).1, bounded (m.prependUser envelopes).2)
  | priority m => ((m.prependUser envelopes).1, priority (m.prependUser envelopes).2)
  | controlAware m => ((m.prependUser envelopes).1, controlAware (m.prependUser envelopes).2)

def dequeueUser : UserMailbox T → Option (Envelope T) × UserMailbox T
  | base m => (m.dequeueUser.1, base m.dequeueUser.2)
  | bounded m =>
    (m.toBaseMailbox.dequeueUser.1,
      bounded { m with toBaseMailbox := m.toBaseMailbox.dequeueUser.2 })
  | priority m => (m.dequeueUser.1, priority m.dequeueUser.2)
  | controlAware m => (m.dequeueUser.1, controlAware m.dequeueUser.2)

def drainUser : UserMailbox T → List (Envelope T) × UserMailbox T
  | base m => (m.drainUser.1, base m.drainUser.2)
  | bounded m =>
    (m.toBaseMailbox.drainUser.1,
      bounded { m with toBaseMailbox := m.toBaseMailbox.drainUser.2 })
  | priority m => (m.drainUser.1, priority m.drainUser.2)
  | controlAware m => (m.drainUser.1, controlAware m.drainUser.2)

/-- `suspend` and `resume`. -/
def setSuspended (suspended : Bool) : UserMailbox T → UserMailbox T
  | base m => base { m with suspended := suspended }
  | bounded m => bounded { m with suspended := suspended }
  | priority m => priority { m with suspended := suspended }
  | controlAware m => controlAware { m with suspended := suspended }

def suspended : UserMailbox T → Bool
  | base m => m.suspended
  | bounded m => m.suspended
  | priority m => m.suspended
  | controlAware m => m.suspended

/-- The user messages, in the order of their delivery. -/
def held : UserMailbox T → List (Envelope T)
  | base m => m.userQueue
  | bounded m => m.userQueue
  | priority m => m.ordered.map PriorityEntry.envelope
  | controlAware m => m.controlQueue ++ m.userQueue

def size (m : UserMailbox T) : ℕ := m.held.length

def droppedCount : UserMailbox T → ℕ
  | base _ => 0
  | bounded m => m.droppedCount
  | priority m => m.droppedCount
  | controlAware m => m.droppedCount

def dropReports : UserMailbox T → List (DropReport T)
  | base _ => []
  | bounded m => m.dropReports
  | priority m => m.dropReports
  | controlAware m => m.dropReports

def capacity : UserMailbox T → Option ℕ+
  | base _ => none
  | bounded m => some m.capacity
  | priority m => m.capacity
  | controlAware m => m.capacity

/-- The envelopes that a capacity counts and a policy may shed. -/
def underBound : UserMailbox T → List (Envelope T)
  | base _ => []
  | bounded m => m.userQueue.filter Envelope.droppable
  | priority m => (m.ordered.map PriorityEntry.envelope).filter Envelope.droppable
  | controlAware m => m.userQueue.filter Envelope.droppable

end UserMailbox

/-- How a mailbox is made. -/
inductive MailboxOptions (T : Type) where
  | base
  | bounded (capacity : ℕ+) (overflow : BoundedMailboxOverflow)
  | priority (priorityFor : ℕ → T → PriorityAnswer) (capacity : Option ℕ+)
      (overflow : PriorityMailboxOverflow)
  | controlAware (isControl : ℕ → T → PredicateAnswer) (capacity : Option ℕ+)
      (overflow : BoundedMailboxOverflow)

def MailboxOptions.mailbox {T : Type} : MailboxOptions T → UserMailbox T
  | base => .base {}
  | bounded capacity overflow => .bounded { capacity := capacity, overflow := overflow }
  | priority priorityFor capacity overflow =>
    .priority { priorityFor := priorityFor, capacity := capacity, overflow := overflow }
  | controlAware isControl capacity overflow =>
    .controlAware { isControl := isControl, capacity := capacity, overflow := overflow }

end ActorTs.Mailbox
