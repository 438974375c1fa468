import ActorTs.Actor.ActorCell
import ActorTs.Mailbox.Arrival

/-!
# The user messages of a cell

A message that is posted to a cell waits in its mailbox, is handed to the behaviour, may be stashed
and put back, and goes to the dead letters where the cell is restarted or stopped without it.
Whoever is told of a dead letter or a drop may tell the cell again, before the drain or the call of
the mailbox continues.

Each envelope that leaves the mailbox and the stash for good is noted with its fate.
-/

namespace ActorTs.Actor

open ActorTs.Mailbox

/-- What became of a message. -/
inductive Fate where
  | handed
  /-- A `PoisonPill` or a `Kill`, which the cell acts on. -/
  | obeyed
  /-- Dropped by the mailbox. -/
  | dropped
  /-- Dropped by the throttle. -/
  | throttled
  /-- Taken out of the mailbox by the throttle, and not taken back. -/
  | refused
  | deadLettered
  deriving DecidableEq

structure LaneConfig (T : Type) where
  stashCapacity : ℕ := 1024
  /-- The mailbox has its drops dead-lettered. -/
  deadLetterDrops : Bool := false
  isCommand : T → Bool := fun _ => false
  isDeadLetter : T → Bool := fun _ => false

structure UserLane (T : Type) where
  state : CellState := .creating
  mailbox : UserMailbox T
  stash : List (Envelope T) := []
  /-- The message that the behaviour has, until it returns or stashes it. -/
  currentEnvelope : Option (Envelope T) := none
  posted : List (Envelope T) := []
  fates : List (Fate × Envelope T) := []
  /-- The dead letters that were published. -/
  published : List (Envelope T) := []

/-- What is told the cell by a callback, one after the other, and while each is posted. -/
inductive Tells (T : Type) where
  | nothing
  | tell (signal : Bool) (envelope : Envelope T) (during next : Tells T)

namespace UserLane

variable {T : Type} (config : LaneConfig T)

def note (s : UserLane T) (fate : Fate) (envelope : Envelope T) : UserLane T :=
  { s with fates := s.fates ++ [(fate, envelope)] }

/-- A dead letter in a dead letter is not published. -/
def publish (s : UserLane T) (callback : UserLane T → UserLane T) (envelope : Envelope T) :
    UserLane T :=
  if config.isDeadLetter envelope.message then s
  else callback { s with published := s.published ++ [envelope] }

def deadLetter (s : UserLane T) (callback : UserLane T → UserLane T) (envelope : Envelope T) :
    UserLane T :=
  (s.note .deadLettered envelope).publish config callback envelope

/-- The observers of drops are told, and the dead letters where they are to be. -/
def reportDrop (s : UserLane T) (callback : UserLane T → UserLane T) (report : DropReport T) :
    UserLane T :=
  let s := { s with mailbox := s.mailbox.reportDrop report }.note .dropped report.2
  if config.deadLetterDrops then s.publish config callback report.2 else callback s

/-- `enqueue`, with what is told the cell while a drop is reported. -/
def enqueue (s : UserLane T) (callback : UserLane T → UserLane T) (envelope : Envelope T) :
    Option MailboxFullError × UserLane T :=
  let a := s.mailbox.arrive envelope
  let s := { s with mailbox := a.mailbox }
  match a.refused with
  | some e => (some e, s)
  | none =>
    let s := match a.drop with
      | some report => s.reportDrop config callback report
      | none => s
    (none, bif a.pushes then { s with mailbox := s.mailbox.push envelope } else s)

/-- `postUserEnvelope` and `postSignalEnvelope`. A post that is refused throws at the sender. -/
def post (s : UserLane T) (callback : UserLane T → UserLane T) (signal : Bool)
    (envelope : Envelope T) : UserLane T :=
  let taken := { s with posted := s.posted ++ [envelope] }
  if s.state = .terminated then taken.deadLetter config callback envelope
  else if signal then
    { taken with mailbox := s.mailbox.enqueueSignal { envelope with undroppable := true } }
  else
    match (s.mailbox.arrive envelope).refused with
    | some _ => { s with mailbox := (s.mailbox.arrive envelope).mailbox }
    | none => (taken.enqueue config callback envelope).2

/-- A callback tells the cell. -/
def run : Tells T → UserLane T → UserLane T
  | .nothing => id
  | .tell signal envelope during next => fun s =>
    run next (s.post config (run during) signal envelope)

/-- One envelope of a batch is put back. Room is made at the tail, or the envelope goes. -/
def admitReplayed (capacity : ℕ) (overflow : BoundedMailboxOverflow)
    (callback : UserLane T → UserLane T) (s : UserLane T × List (Envelope T))
    (envelope : Envelope T) : UserLane T × List (Envelope T) :=
  if envelope.undroppable ∨ s.1.mailbox.ordinarySize + s.2.length < capacity then
    (s.1, s.2 ++ [envelope])
  else
    match overflow, s.1.mailbox.removeNewest with
    | .dropHead, (some evicted, m) =>
      ({ s.1 with mailbox := m }.reportDrop config callback (.dropHead, evicted),
        s.2 ++ [envelope])
    | _, _ => (s.1.reportDrop config callback (.dropNew, envelope), s.2)

/-- The envelopes of a batch one after the other, each with the callback of its drop. -/
def admitReplay (capacity : ℕ) (overflow : BoundedMailboxOverflow) :
    List (Envelope T) → (ℕ → Tells T) → UserLane T × List (Envelope T) →
      UserLane T × List (Envelope T)
  | [], _, s => s
  | envelope :: envelopes, callbacks, s =>
    admitReplay capacity overflow envelopes (fun i => callbacks (i + 1))
      (admitReplayed config capacity overflow (run config (callbacks 0)) s envelope)

/-- A batch goes back under a bound. -/
def prependOrdinary (s : UserLane T) (capacity : ℕ) (overflow : BoundedMailboxOverflow)
    (callbacks : ℕ → Tells T) (control ordinary : List (Envelope T)) :
    Option MailboxFullError × UserLane T :=
  if overflow = .reject then
    if capacity - s.mailbox.ordinarySize < ordinary.countP Envelope.droppable then
      (some ⟨capacity⟩, s)
    else
      (none, { s with mailbox := (s.mailbox.unshiftControl control).unshiftAll ordinary })
  else
    let (s, admitted) := admitReplay config capacity overflow ordinary callbacks (s, [])
    (none, { s with mailbox := (s.mailbox.unshiftControl control).unshiftAll admitted })

/-- Each envelope of a batch goes through a door again, until one is refused. -/
def prependEach : List (Envelope T) → (ℕ → Tells T) → UserLane T →
    Option MailboxFullError × UserLane T
  | [], _, s => (none, s)
  | envelope :: envelopes, callbacks, s =>
    if envelope.undroppable then
      prependEach envelopes (fun i => callbacks (i + 1))
        { s with mailbox := s.mailbox.enqueueSignal envelope }
    else
      match s.enqueue config (run config (callbacks 0)) envelope with
      | (none, s) => prependEach envelopes (fun i => callbacks (i + 1)) s
      | (some e, s) => (some e, s)

/-- `prependUser`, with what is told the cell while drops are reported. -/
def prependUser (s : UserLane T) (envelopes : List (Envelope T)) (callbacks : ℕ → Tells T) :
    Option MailboxFullError × UserLane T :=
  match s.mailbox with
  | .base m => (none, { s with mailbox := .base (m.prependUser envelopes) })
  | .bounded m => s.prependOrdinary config m.capacity m.overflow callbacks [] envelopes
  | .priority _ => prependEach config envelopes callbacks s
  | .controlAware m =>
    let (control, ordinary, m) := m.classify envelopes
    let s := { s with mailbox := .controlAware m }
    match m.capacity with
    | some capacity =>
      s.prependOrdinary config capacity m.overflow callbacks control ordinary
    | none =>
      (none, { s with mailbox := (s.mailbox.unshiftControl control).unshiftAll ordinary })

/-- Each envelope goes to the dead letters, with the callback of its publication. -/
def deadLetterAll : List (Envelope T) → (ℕ → Tells T) → UserLane T → UserLane T
  | [], _, s => s
  | envelope :: envelopes, callbacks, s =>
    deadLetterAll envelopes (fun i => callbacks (i + 1))
      (s.deadLetter config (run config (callbacks 0)) envelope)

def deadLetterStash (s : UserLane T) (callbacks : ℕ → Tells T) : UserLane T :=
  deadLetterAll config s.stash callbacks { s with stash := [] }

def deadLetterQueuedMessages (s : UserLane T) (callbacks : ℕ → Tells T) : UserLane T :=
  deadLetterAll config s.mailbox.drainUser.1 callbacks { s with mailbox := s.mailbox.drainUser.2 }

/-- The end of a cell, once `postStop` has returned. -/
def finalizeTermination (s : UserLane T) (forStash forQueued forLate : ℕ → Tells T) :
    UserLane T :=
  let s := (s.deadLetterStash config forStash).deadLetterQueuedMessages config forQueued
  { s with state := .terminated }.deadLetterQueuedMessages config forLate

inductive OnExcess where
  | drop | pause
  deriving DecidableEq

/-- What a turn finds for the message that it takes. -/
structure Finding (T : Type) where
  /-- The bucket of the throttle is empty. -/
  excess : Option OnExcess := none
  /-- The cell refuses the message, a `Terminated` that it is not to be told. -/
  refuses : Bool := false
  /-- What the behaviour is told in the place of a `Terminated`. -/
  substitute : Option T := none

/-- A running cell takes a message, and hands it to the behaviour. -/
def takeTurn (s : UserLane T) (finding : Finding T) (callbacks : ℕ → Tells T) : UserLane T :=
  if s.state ≠ .running ∨ s.currentEnvelope.isSome then s
  else
    match s.mailbox.dequeueUser with
    | (none, _) => s
    | (some envelope, m) =>
      let s := { s with mailbox := m }
      match if envelope.undroppable then none else finding.excess with
      | some .drop => s.note .throttled envelope
      | some .pause =>
        match s.prependUser config [envelope] callbacks with
        | (none, s) => s
        | (some _, s) => s.note .refused envelope
      | none =>
        if config.isCommand envelope.message then s.note .obeyed envelope
        else if finding.refuses then s.deadLetter config (run config (callbacks 0)) envelope
        else
          { s with
            currentEnvelope := some
              { envelope with message := finding.substitute.getD envelope.message } }

/-- The behaviour returns. -/
def finish (s : UserLane T) : UserLane T :=
  match s.currentEnvelope with
  | some envelope => { s with currentEnvelope := none }.note .handed envelope
  | none => s

/-- What throws leaves everything as it is. -/
def stashCurrent (s : UserLane T) : UserLane T :=
  match s.currentEnvelope with
  | some envelope =>
    if config.stashCapacity ≤ s.stash.length then s
    else { s with stash := s.stash ++ [envelope], currentEnvelope := none }
  | none => s

/-- A replay that is refused leaves the stash to the actor. -/
def unstashAll (s : UserLane T) (callbacks : ℕ → Tells T) : UserLane T :=
  if s.stash = [] then s
  else
    match { s with stash := [] }.prependUser config s.stash callbacks with
    | (none, s) => s
    | (some _, replayed) => { replayed with stash := s.stash }

/-- Messages from a buffer of the behaviour's own, which are posted anew. -/
def prependUserMessages (s : UserLane T) (envelopes : List (Envelope T))
    (callbacks : ℕ → Tells T) : UserLane T :=
  let s := { s with posted := s.posted ++ envelopes }
  if s.state = .terminated then deadLetterAll config envelopes callbacks s
  else
    match s.prependUser config envelopes callbacks with
    | (none, s) => s
    | (some _, s) => deadLetterAll config envelopes callbacks s

/-- `_adoptControlLane`: the messages move to a mailbox that knows control messages. -/
def adoptControlLane (s : UserLane T) (next : ControlAwareMailbox T) : UserLane T :=
  { s with
    mailbox := s.mailbox.drainUser.1.foldl (fun m envelope => m.enqueueSignal envelope)
      (.controlAware { next with
        controlQueue := [], userQueue := [], suspended := s.mailbox.suspended }) }

inductive Input (T : Type) where
  | post (signal : Bool) (envelope : Envelope T) (during : Tells T)
  | takeTurn (finding : Finding T) (callbacks : ℕ → Tells T)
  | stash
  | unstashAll (callbacks : ℕ → Tells T)
  | prependUserMessages (envelopes : List (Envelope T)) (callbacks : ℕ → Tells T)
  | finish
  /-- The cell is started, suspended, resumed, restarted or told to stop. -/
  | become (state : CellState)
  | setSuspended (suspended : Bool)
  | adoptControlLane (next : ControlAwareMailbox T)
  | recreate (callbacks : ℕ → Tells T)
  | finalizeTermination (forStash forQueued forLate : ℕ → Tells T)

/-- A cell ends once, and between two messages. -/
def step (s : UserLane T) : Input T → UserLane T
  | .post signal envelope during => s.post config (run config during) signal envelope
  | .takeTurn finding callbacks => s.takeTurn config finding callbacks
  | .stash => s.stashCurrent config
  | .unstashAll callbacks => s.unstashAll config callbacks
  | .prependUserMessages envelopes callbacks => s.prependUserMessages config envelopes callbacks
  | .finish => s.finish
  | .become state =>
    if s.state = .terminated ∨ state = .terminated then s else { s with state := state }
  | .setSuspended suspended => { s with mailbox := s.mailbox.setSuspended suspended }
  | .adoptControlLane next => s.adoptControlLane next
  | .recreate callbacks => s.deadLetterStash config callbacks
  | .finalizeTermination forStash forQueued forLate =>
    if s.state = .terminated ∨ s.currentEnvelope.isSome then s
    else s.finalizeTermination config forStash forQueued forLate

end UserLane

end ActorTs.Actor
