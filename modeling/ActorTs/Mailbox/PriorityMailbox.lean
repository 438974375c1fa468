import ActorTs.Library.JsArithmetic
import ActorTs.Mailbox.Mailbox

/-!
# The priority mailbox

User messages in the order of their priorities, the lowest number first, and of their
arrival among equals. A message that the priority function cannot rank comes last. A full
mailbox sheds the least important message, which may be the one that arrives.
-/

namespace ActorTs.Mailbox

/-- The numbers that a priority may be, without `NaN`. -/
abbrev Priority := WithBot (WithTop ℚ)

/-- `Number.MAX_SAFE_INTEGER`. -/
def unrankablePriority : Priority := ((2 ^ 53 - 1 : ℚ) : WithTop ℚ)

/-- What the priority function does when it is asked. -/
inductive PriorityAnswer where
  | threw | number (n : JsNumber) | noNumber

def PriorityAnswer.priority : PriorityAnswer → Priority
  | .number (.finite x) => (x.toRat : WithTop ℚ)
  | .number (.infinity true) => ⊥
  | .number (.infinity false) => (⊤ : WithTop ℚ)
  | _ => unrankablePriority

inductive PriorityMailboxOverflow where
  | dropLowestPriority | dropNew | reject
  deriving DecidableEq

structure PriorityEntry (T : Type) where
  envelope : Envelope T
  priority : Priority
  /-- The number of the arrival. -/
  sequence : ℕ

structure PriorityMailbox (T : Type) extends DroppingMailbox T where
  /-- The answers to the calls of the priority function, which are numbered. -/
  priorityFor : ℕ → T → PriorityAnswer
  capacity : Option ℕ+ := none
  overflow : PriorityMailboxOverflow := .reject
  sequence : ℕ := 0
  ordered : List (PriorityEntry T) := []

variable {T : Type}

/-- The entry comes before one that is to be put in. -/
def PriorityEntry.precedes (item entry : PriorityEntry T) : Bool :=
  item.priority < entry.priority ∨
    item.priority = entry.priority ∧ item.sequence < entry.sequence

/-- A binary search for the place of an entry; each round halves the range. -/
def locate (ordered : List (PriorityEntry T)) (entry : PriorityEntry T) : ℕ → ℕ → ℕ → ℕ
  | 0, low, _ => low
  | rounds + 1, low, high =>
    if low < high then
      let middle := (low + high) / 2
      if (ordered[middle]?.any fun item => item.precedes entry) then
        locate ordered entry rounds (middle + 1) high
      else locate ordered entry rounds low middle
    else low

/-- `removeOldest`: from the end of the order, which is the least important one. -/
def removeLeastImportant (ordered : List (PriorityEntry T)) :
    Option (PriorityEntry T) × List (PriorityEntry T) :=
  takeLast (fun entry => entry.envelope.droppable) ordered

namespace PriorityMailbox

def insert (m : PriorityMailbox T) (envelope : Envelope T) : PriorityMailbox T :=
  let entry : PriorityEntry T :=
    { envelope := envelope
      priority := (m.priorityFor m.sequence envelope.message).priority
      sequence := m.sequence }
  let low := locate m.ordered entry m.ordered.length 0 m.ordered.length
  { m with
    sequence := m.sequence + 1
    ordered := m.ordered.take low ++ entry :: m.ordered.drop low }

def reportDrop (m : PriorityMailbox T) (report : DropReport T) : PriorityMailbox T :=
  { m with toDroppingMailbox := m.toDroppingMailbox.reportDrop report }

/-- Insert the arrival, then evict what is last. -/
def shedLeastImportant (m : PriorityMailbox T) (envelope : Envelope T) : PriorityMailbox T :=
  let m := m.insert envelope
  match removeLeastImportant m.ordered with
  | (some shed, rest) =>
    { m with ordered := rest }.reportDrop
      (if shed.envelope.identity = envelope.identity then .dropNew else .dropHead,
        shed.envelope)
  | (none, rest) => { m with ordered := rest }

def enqueue (m : PriorityMailbox T) (envelope : Envelope T) :
    Option MailboxFullError × PriorityMailbox T :=
  match m.capacity with
  | some capacity =>
    if (capacity : ℕ) ≤ m.ordered.length then
      match m.overflow with
      | .dropLowestPriority => (none, m.shedLeastImportant envelope)
      | .dropNew => (none, m.reportDrop (.dropNew, envelope))
      | .reject => (some ⟨capacity⟩, m)
    else (none, m.insert envelope)
  | none => (none, m.insert envelope)

/-- The exempt door. -/
def enqueueSignal (m : PriorityMailbox T) (envelope : Envelope T) : PriorityMailbox T :=
  m.insert envelope

/-- Each envelope of a batch goes through a door again, until one is refused. -/
def prependUser (m : PriorityMailbox T) :
    List (Envelope T) → Option MailboxFullError × PriorityMailbox T
  | [] => (none, m)
  | envelope :: envelopes =>
    if envelope.undroppable then (m.enqueueSignal envelope).prependUser envelopes
    else
      match m.enqueue envelope with
      | (none, m) => m.prependUser envelopes
      | (some e, m) => (some e, m)

def dequeueUser (m : PriorityMailbox T) : Option (Envelope T) × PriorityMailbox T :=
  if m.suspended then (none, m)
  else (m.ordered.head?.map PriorityEntry.envelope, { m with ordered := m.ordered.tail })

def drainUser (m : PriorityMailbox T) : List (Envelope T) × PriorityMailbox T :=
  (m.ordered.map PriorityEntry.envelope, { m with ordered := [] })

end PriorityMailbox

end ActorTs.Mailbox
