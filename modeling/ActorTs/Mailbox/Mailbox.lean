import Mathlib.Data.PNat.Basic
import Mathlib.Data.List.Basic

/-!
# Mailboxes

A mailbox keeps the user messages of an actor until it is handed them. The plain one is a
queue. One with a bound sheds messages or refuses them when it is full, and reports what it
has shed; an envelope that is marked undroppable is stepped over.

A call that throws returns what it throws with the mailbox as it left it.
-/

namespace ActorTs.Mailbox

/-- A message on its way, as an object of its own. -/
structure Envelope (T : Type) where
  identity : ℕ
  message : T
  undroppable : Bool := false
  deriving DecidableEq

inductive MailboxDropReason where
  | dropHead | dropNew
  deriving DecidableEq

structure MailboxFullError where
  capacity : ℕ
  deriving DecidableEq

variable {T : Type}

/-- An envelope that was discarded, and why. -/
abbrev DropReport (T : Type) := MailboxDropReason × Envelope T

/-- Take the first element that is so out of a list, stepping over the others. -/
def takeFirst {α : Type} (p : α → Bool) : List α → Option α × List α
  | [] => (none, [])
  | candidate :: l =>
    if p candidate then (some candidate, l)
    else ((takeFirst p l).1, candidate :: (takeFirst p l).2)

/-- The same from the back. -/
def takeLast {α : Type} (p : α → Bool) (l : List α) : Option α × List α :=
  ((takeFirst p l.reverse).1, (takeFirst p l.reverse).2.reverse)

def Envelope.droppable (envelope : Envelope T) : Bool := !envelope.undroppable

def removeOldest (queue : List (Envelope T)) : Option (Envelope T) × List (Envelope T) :=
  takeFirst Envelope.droppable queue

def removeNewest (queue : List (Envelope T)) : Option (Envelope T) × List (Envelope T) :=
  takeLast Envelope.droppable queue

structure BaseMailbox (T : Type) where
  userQueue : List (Envelope T) := []
  suspended : Bool := false

namespace BaseMailbox

def enqueue (m : BaseMailbox T) (envelope : Envelope T) : BaseMailbox T :=
  { m with userQueue := m.userQueue ++ [envelope] }

def prependUser (m : BaseMailbox T) (envelopes : List (Envelope T)) : BaseMailbox T :=
  { m with userQueue := envelopes ++ m.userQueue }

def dequeueUser (m : BaseMailbox T) : Option (Envelope T) × BaseMailbox T :=
  if m.suspended then (none, m) else (m.userQueue.head?, { m with userQueue := m.userQueue.tail })

def drainUser (m : BaseMailbox T) : List (Envelope T) × BaseMailbox T :=
  (m.userQueue, { m with userQueue := [] })

def size (m : BaseMailbox T) : ℕ := m.userQueue.length

end BaseMailbox

/-- A mailbox that accounts for what it discards. -/
structure DroppingMailbox (T : Type) extends BaseMailbox T where
  droppedCount : ℕ := 0
  /-- What the observers of drops have been told. -/
  dropReports : List (DropReport T) := []

namespace DroppingMailbox

def reportDrop (m : DroppingMailbox T) (report : DropReport T) : DroppingMailbox T :=
  { m with droppedCount := m.droppedCount + 1, dropReports := m.dropReports ++ [report] }

def reportDrops (m : DroppingMailbox T) (reports : List (DropReport T)) : DroppingMailbox T :=
  reports.foldl reportDrop m

end DroppingMailbox

inductive BoundedMailboxOverflow where
  | dropHead | dropNew | reject
  deriving DecidableEq

/-- What becomes of a queue when envelopes come in, and what is discarded for them. -/
structure Admission (T : Type) where
  /-- The envelopes of a batch that go to the head of the queue. -/
  admitted : List (Envelope T) := []
  queue : List (Envelope T)
  drops : List (DropReport T) := []

section Bounded

variable (capacity : ℕ) (overflow : BoundedMailboxOverflow)

/-- An envelope arrives at the tail. Where nothing may be dropped it is let in all the same. -/
def admitArrival (queue : List (Envelope T)) (envelope : Envelope T) :
    Except MailboxFullError (Admission T) :=
  if capacity ≤ queue.length then
    match overflow with
    | .dropHead =>
      match removeOldest queue with
      | (some dropped, rest) =>
        .ok { queue := rest ++ [envelope], drops := [(.dropHead, dropped)] }
      | (none, rest) => .ok { queue := rest ++ [envelope] }
    | .dropNew => .ok { queue := queue, drops := [(.dropNew, envelope)] }
    | .reject => .error ⟨capacity⟩
  else .ok { queue := queue ++ [envelope] }

/-- One envelope of a batch is put back. Room is made at the tail, or the envelope goes. -/
def admitReplayed (a : Admission T) (envelope : Envelope T) : Admission T :=
  if envelope.undroppable ∨ a.queue.length + a.admitted.length < capacity then
    { a with admitted := a.admitted ++ [envelope] }
  else
    match overflow, removeNewest a.queue with
    | .dropHead, (some evicted, rest) =>
      { admitted := a.admitted ++ [envelope]
        queue := rest
        drops := a.drops ++ [(.dropHead, evicted)] }
    | _, _ => { a with drops := a.drops ++ [(.dropNew, envelope)] }

/-- A batch is put back at the head. A batch that is refused is refused as a whole. -/
def admitReplay (queue envelopes : List (Envelope T)) :
    Except MailboxFullError (Admission T) :=
  if overflow = .reject then
    if capacity - queue.length < envelopes.countP Envelope.droppable then .error ⟨capacity⟩
    else .ok { admitted := envelopes, queue := queue }
  else .ok (envelopes.foldl (admitReplayed capacity overflow) { queue := queue })

end Bounded

structure BoundedMailbox (T : Type) extends DroppingMailbox T where
  capacity : ℕ+
  overflow : BoundedMailboxOverflow := .reject

namespace BoundedMailbox

/-- The queue after an admission, with the drops reported. -/
def settle (m : BoundedMailbox T) (a : Admission T) : BoundedMailbox T :=
  { m with
    toDroppingMailbox :=
      { m.toDroppingMailbox with userQueue := a.admitted ++ a.queue }.reportDrops a.drops }

def enqueue (m : BoundedMailbox T) (envelope : Envelope T) :
    Option MailboxFullError × BoundedMailbox T :=
  match admitArrival m.capacity m.overflow m.userQueue envelope with
  | .ok a => (none, m.settle a)
  | .error e => (some e, m)

/-- The exempt door. -/
def enqueueSignal (m : BoundedMailbox T) (envelope : Envelope T) : BoundedMailbox T :=
  { m with userQueue := m.userQueue ++ [envelope] }

def prependUser (m : BoundedMailbox T) (envelopes : List (Envelope T)) :
    Option MailboxFullError × BoundedMailbox T :=
  match admitReplay m.capacity m.overflow m.userQueue envelopes with
  | .ok a => (none, m.settle a)
  | .error e => (some e, m)

end BoundedMailbox

end ActorTs.Mailbox
