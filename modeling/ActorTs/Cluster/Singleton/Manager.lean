import Mathlib

/-!
# The manager of a singleton

Every node runs a manager. The one that its own view of the members names the host acquires the
lease, where there is one, asks its peers to hand over, and spawns the instance; it stops the
instance when the host moves or a peer asks, and lets go of the lease when the instance has
terminated. With a lease all of it happens in turns of the manager's mailbox, and the calls to the
lease are under way until they are answered. Without one a change of membership is acted on at once.
-/

namespace ActorTs.Cluster

/-- What brings a manager to look again: a change of membership, or a timer that fires. -/
inductive SingletonPrompt where
  | reconcile
  | acquireRetry
  | restartChild
  | handOverTimeout
  | handOverRetry
  deriving DecidableEq

inductive SingletonInbox (ι : Type) where
  | prompt (kind : SingletonPrompt)
  | leaseAcquireResult (got : Bool)
  | handOverRequest (peer : ι)
  | handOverAcknowledgment (peer : ι)
  | terminated
  deriving DecidableEq

/-- What one manager sends to another. -/
inductive SingletonMessage where
  | handOverRequest
  | handOverAcknowledgment

inductive LeaseState where
  | none
  | acquiring
  | held
  deriving DecidableEq

/-- A call to the lease that is not answered: an acquire, with its answer once it has taken
effect, and whether a manager is there to be told; a release, with whether it has taken
effect, and whether a turn waits for it. -/
inductive LeaseCall where
  | acquire (answer : Option Bool) (told : Bool)
  | release (landed awaited : Bool)

/-- The members that a node knows, and those that may host, in the order of the addresses. -/
structure SingletonView (ι : Type) where
  members : List ι
  eligible : List ι

inductive ManagerStatus where
  | running
  | suspended
  | recreating
  | terminating
  | stopped
  deriving DecidableEq

/-- A node: the fields of its manager, what its cell knows of it, the instance, and the calls
to the lease. `awaiting` is what the turn tells the manager itself once the release it waits
for is answered. -/
structure SingletonNode (ι : Type) where
  child : Bool := false
  pendingStop : Bool := false
  leaseState : LeaseState := .none
  handOver : Option (List ι) := none
  handOverRequesters : List ι := []
  releaseLeaseWhenChildStops : Bool := false
  terminallyStopped : Bool := false
  status : ManagerStatus := .stopped
  awaiting : Option (List SingletonPrompt) := none
  mailbox : List (SingletonInbox ι) := []
  outbox : List (ι × SingletonMessage) := []
  view : SingletonView ι := ⟨[], []⟩
  instanceLive : Bool := false
  calls : List LeaseCall := []

namespace SingletonNode

variable {ι : Type} [LinearOrder ι] (leased : Bool) (self : ι) (restartOnTermination : Bool)

def singletonHost (view : SingletonView ι) : Option ι := view.eligible.head?

def wantHosted (s : SingletonNode ι) : Bool :=
  !s.terminallyStopped && decide (singletonHost s.view = some self)

def handOverPeers (s : SingletonNode ι) : List ι := s.view.eligible.filter (· ≠ self)

def tell (s : SingletonNode ι) (message : SingletonInbox ι) : SingletonNode ι :=
  { s with mailbox := s.mailbox ++ [message] }

/-- A name that is taken is refused, and the turn fails. -/
def spawn (s : SingletonNode ι) : SingletonNode ι :=
  if s.child then s
  else if s.pendingStop then s
  else if s.instanceLive then { s with status := .suspended }
  else { s with child := true, instanceLive := true }

def stopChild (s : SingletonNode ι) : SingletonNode ι :=
  if s.child then { s with pendingStop := true, child := false } else s

/-- The release that a turn waits for, with what it tells the manager itself behind it. -/
def releaseLease (s : SingletonNode ι) (andThen : List SingletonPrompt) : SingletonNode ι :=
  if s.leaseState = .held then
    { s with
      leaseState := .none
      calls := s.calls ++ [.release false true]
      awaiting := some andThen }
  else { s with mailbox := s.mailbox ++ andThen.map .prompt }

/-- The release that nothing waits for. -/
def voidReleaseLease (s : SingletonNode ι) : SingletonNode ι :=
  if s.leaseState = .held then
    { s with leaseState := .none, calls := s.calls ++ [.release false false] }
  else s

def sendHandOverRequestTo (s : SingletonNode ι) (peers : List ι) : SingletonNode ι :=
  { s with outbox := s.outbox ++ peers.map fun peer => (peer, .handOverRequest) }

def answerHandOver (s : SingletonNode ι) (peer : ι) : SingletonNode ι :=
  { s with outbox := s.outbox ++ [(peer, .handOverAcknowledgment)] }

def answerHandOverRequesters (s : SingletonNode ι) : SingletonNode ι :=
  if s.child || s.pendingStop then s
  else { s with
    handOverRequesters := []
    outbox := s.outbox ++ s.handOverRequesters.map fun peer => (peer, .handOverAcknowledgment) }

def completeHandOver (s : SingletonNode ι) : SingletonNode ι :=
  match s.handOver with
  | none => s
  | some _ =>
    if wantHosted self s = false then { s with handOver := none }
    else if leased ∧ s.leaseState ≠ .held then { s with handOver := none }
    else spawn { s with handOver := none }

def takeOverHosting (s : SingletonNode ι) : SingletonNode ι :=
  if s.child || s.pendingStop then s
  else if s.handOver.isSome then s
  else match s.handOverPeers self with
    | [] => s.spawn
    | peer :: peers =>
      sendHandOverRequestTo { s with handOver := some (peer :: peers) } (peer :: peers)

def onHandOverRetry (s : SingletonNode ι) : SingletonNode ι :=
  match s.handOver with
  | none => s
  | some awaiting =>
    let eligible := s.handOverPeers self
    match awaiting.filter (· ∈ eligible) with
    | [] => completeHandOver leased self { s with handOver := some [] }
    | peer :: peers =>
      sendHandOverRequestTo { s with handOver := some (peer :: peers) }
        (eligible.filter (· ∈ peer :: peers))

def onHandOverAcknowledgment (s : SingletonNode ι) (peer : ι) : SingletonNode ι :=
  match s.handOver with
  | none => s
  | some awaiting =>
    if peer ∉ awaiting then s
    else match awaiting.filter (· ≠ peer) with
      | [] => completeHandOver leased self { s with handOver := some [] }
      | other :: others => { s with handOver := some (other :: others) }

def admitsHandOverFrom (s : SingletonNode ι) (peer : ι) : Bool :=
  decide (peer ∈ s.view.members) && !(wantHosted self s && decide (self < peer))

def onHandOverRequest (s : SingletonNode ι) (peer : ι) : SingletonNode ι :=
  if admitsHandOverFrom self s peer = false then s
  else if s.child then
    stopChild { s with handOverRequesters :=
      if peer ∈ s.handOverRequesters then s.handOverRequesters
      else s.handOverRequesters ++ [peer] }
  else if s.pendingStop then
    { s with handOverRequesters :=
      if peer ∈ s.handOverRequesters then s.handOverRequesters
      else s.handOverRequesters ++ [peer] }
  else s.answerHandOver peer

def reconcileSync (s : SingletonNode ι) : SingletonNode ι :=
  if wantHosted self s && !s.child then takeOverHosting self s
  else if !wantHosted self s && s.child then s.stopChild
  else s

def handleReconcile (s : SingletonNode ι) : SingletonNode ι :=
  if leased = false then reconcileSync self s
  else if wantHosted self s then
    match s.leaseState with
    | .held => takeOverHosting self s
    | .acquiring => s
    | .none => { s with leaseState := .acquiring, calls := s.calls ++ [.acquire none true] }
  else
    match s.leaseState with
    | .held =>
      if s.stopChild.pendingStop then { s.stopChild with releaseLeaseWhenChildStops := true }
      else s.stopChild.releaseLease []
    | .acquiring => s
    | .none => s

def onLeaseAcquireResult (s : SingletonNode ι) (got : Bool) : SingletonNode ι :=
  if s.leaseState ≠ .acquiring then
    if got then { s with calls := s.calls ++ [.release false false] } else s
  else if got = false then { s with leaseState := .none }
  else if wantHosted self s = false then
    { s with leaseState := .none, calls := s.calls ++ [.release false false] }
  else takeOverHosting self { s with leaseState := .held }

def onChildDiedUnexpectedly (s : SingletonNode ι) : SingletonNode ι :=
  if restartOnTermination then { s with child := false }
  else voidReleaseLease { s with child := false, terminallyStopped := true }

/-- All children of a manager have one name, and references compare by it. -/
def handleTerminated (s : SingletonNode ι) : SingletonNode ι :=
  if s.pendingStop then
    let s := answerHandOverRequesters { s with pendingStop := false }
    if s.releaseLeaseWhenChildStops then
      releaseLease { s with releaseLeaseWhenChildStops := false } [.reconcile]
    else if leased then s.tell (.prompt .reconcile)
    else reconcileSync self s
  else if s.child then (s.onChildDiedUnexpectedly restartOnTermination).answerHandOverRequesters
  else s

def onRestartChild (s : SingletonNode ι) : SingletonNode ι :=
  if wantHosted self s = false then s
  else if s.child || s.pendingStop then s
  else if leased ∧ s.leaseState ≠ .held then s.tell (.prompt .reconcile)
  else s.spawn

def onReceive (s : SingletonNode ι) : SingletonInbox ι → SingletonNode ι
  | .prompt .reconcile => handleReconcile leased self s
  | .prompt .acquireRetry => handleReconcile leased self s
  | .prompt .restartChild => onRestartChild leased self s
  | .prompt .handOverTimeout => completeHandOver leased self s
  | .prompt .handOverRetry => onHandOverRetry leased self s
  | .leaseAcquireResult got => onLeaseAcquireResult self s got
  | .handOverRequest peer => onHandOverRequest self s peer
  | .handOverAcknowledgment peer => onHandOverAcknowledgment leased self s peer
  | .terminated => handleTerminated leased self restartOnTermination s

/-- The instance is told to stop and forgotten, and the lease is released when it is held. -/
def postStop (s : SingletonNode ι) : SingletonNode ι :=
  releaseLease (answerHandOverRequesters
    { s with child := false, pendingStop := false, handOver := none }) []

/-- A new manager, or the new instance of one: what is queued stays queued. -/
def preStart (s : SingletonNode ι) : SingletonNode ι :=
  { status := .running
    mailbox := s.mailbox ++ [.prompt .reconcile]
    outbox := s.outbox
    view := s.view
    instanceLive := s.instanceLive
    calls := s.calls }

end SingletonNode

end ActorTs.Cluster
