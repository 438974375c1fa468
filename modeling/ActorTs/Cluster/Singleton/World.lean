import ActorTs.Cluster.Singleton.Manager
import ActorTs.Library.Machine

/-!
# Managers around one lease

The lease has one holder at a time. A call takes effect at some moment before it is answered,
and calls of one node that are under way together take effect in any order. Messages between
the nodes may be lost, and timers fire late.
-/

namespace ActorTs.Cluster

structure SingletonWorld (ι : Type) where
  nodes : ι → SingletonNode ι
  holder : Option ι

inductive SingletonMove (ι : Type) where
  | changeView (node : ι) (view : SingletonView ι)
  | prompt (node : ι) (kind : SingletonPrompt)
  | deliver (node : ι) (i : ℕ)
  | lose (node : ι) (i : ℕ)
  | receive (node : ι)
  | land (node : ι) (i : ℕ) (heard : Bool)
  | refuse (node : ι) (i : ℕ)
  | answer (node : ι) (i : ℕ)
  | instanceTerminated (node : ι)
  | restart (node : ι)
  | recreated (node : ι)
  | stop (node : ι)
  | stopped (node : ι)
  | start (node : ι)

namespace SingletonMessage

def received {ι : Type} (message : SingletonMessage) (peer : ι) : SingletonInbox ι :=
  match message with
  | .handOverRequest => .handOverRequest peer
  | .handOverAcknowledgment => .handOverAcknowledgment peer

end SingletonMessage

namespace LeaseCall

/-- What was asked for a manager that is gone. -/
def untold : LeaseCall → LeaseCall
  | acquire answer _ => acquire answer false
  | release landed awaited => release landed awaited

end LeaseCall

namespace SingletonNode

variable {ι : Type} [LinearOrder ι] (leased : Bool) (self : ι) (restartOnTermination : Bool)

/-- What a manager that is not there is told is lost. -/
def enqueue (s : SingletonNode ι) (message : SingletonInbox ι) : SingletonNode ι :=
  if s.status = .stopped then s else s.tell message

/-- Between two turns of a manager. -/
def idle (s : SingletonNode ι) : Bool :=
  (s.status == .running || s.status == .suspended) && s.awaiting.isNone

def receive (s : SingletonNode ι) : SingletonNode ι :=
  match s.mailbox with
  | [] => s
  | message :: mailbox =>
    if s.status = .running ∧ s.awaiting.isNone then
      onReceive leased self restartOnTermination { s with mailbox } message
    else s

/-- A call that is answered tells the manager, or lets its turn go on. -/
def answer (s : SingletonNode ι) (i : ℕ) : SingletonNode ι :=
  match s.calls[i]? with
  | some (.acquire (some got) told) =>
    let s := { s with calls := s.calls.eraseIdx i }
    if told then s.tell (.leaseAcquireResult got) else s
  | some (.release true awaited) =>
    let s := { s with calls := s.calls.eraseIdx i }
    if awaited then
      { s with mailbox := s.mailbox ++ (s.awaiting.getD []).map .prompt, awaiting := none }
    else s
  | _ => s

/-- A call that the backend refuses. -/
def refuse (s : SingletonNode ι) (i : ℕ) : SingletonNode ι :=
  match s.calls[i]? with
  | some (.acquire none told) => { s with calls := s.calls.set i (.acquire (some false) told) }
  | some (.release false awaited) => { s with calls := s.calls.set i (.release true awaited) }
  | _ => s

def instanceTerminated (s : SingletonNode ι) : SingletonNode ι :=
  if s.instanceLive then enqueue { s with instanceLive := false } .terminated else s

/-- The old instance of the manager stops first, and the children of its cell behind it. -/
def restart (s : SingletonNode ι) : SingletonNode ι :=
  if s.idle then { s.postStop with status := .recreating } else s

def recreated (s : SingletonNode ι) : SingletonNode ι :=
  if s.status = .recreating ∧ s.awaiting.isNone ∧ s.instanceLive = false then s.preStart else s

/-- A manager that is stopped waits for its children before it stops itself. -/
def stop (s : SingletonNode ι) : SingletonNode ι :=
  if s.idle then { s with status := .terminating } else s

def stopped (s : SingletonNode ι) : SingletonNode ι :=
  if s.status = .terminating ∧ s.instanceLive = false then
    { awaiting := s.postStop.awaiting
      outbox := s.postStop.outbox
      view := s.view
      calls := s.postStop.calls.map LeaseCall.untold }
  else s

def start (s : SingletonNode ι) : SingletonNode ι :=
  if s.status = .stopped ∧ s.awaiting.isNone then s.preStart else s

end SingletonNode

namespace SingletonWorld

variable {ι : Type} [LinearOrder ι] (restartOnTermination : Bool)

def update (w : SingletonWorld ι) (node : ι) (f : SingletonNode ι → SingletonNode ι) :
    SingletonWorld ι :=
  { w with nodes := Function.update w.nodes node (f (w.nodes node)) }

/-- A call takes effect: the lease goes to who asks when nobody else has it, and is let go of
by who has it. An acquire that took effect may still be reported as failed. -/
def land (w : SingletonWorld ι) (node : ι) (i : ℕ) (heard : Bool) : SingletonWorld ι :=
  match (w.nodes node).calls[i]? with
  | some (.acquire none told) =>
    let got := decide (w.holder = none ∨ w.holder = some node)
    update { w with holder := if got then some node else w.holder } node fun s =>
      { s with calls := s.calls.set i (.acquire (some (got && heard)) told) }
  | some (.release false awaited) =>
    update { w with holder := if w.holder = some node then none else w.holder } node fun s =>
      { s with calls := s.calls.set i (.release true awaited) }
  | _ => w

def lose (w : SingletonWorld ι) (node : ι) (i : ℕ) : SingletonWorld ι :=
  w.update node fun s => { s with outbox := s.outbox.eraseIdx i }

def deliver (w : SingletonWorld ι) (node : ι) (i : ℕ) : SingletonWorld ι :=
  match (w.nodes node).outbox[i]? with
  | none => w
  | some (peer, message) =>
    (w.lose node i).update peer fun s => s.enqueue (message.received node)

def step (w : SingletonWorld ι) : SingletonMove ι → SingletonWorld ι
  | .changeView node view => w.update node fun s => { s with view }
  | .prompt node kind => w.update node fun s => s.enqueue (.prompt kind)
  | .deliver node i => w.deliver node i
  | .lose node i => w.lose node i
  | .receive node => w.update node (SingletonNode.receive true node restartOnTermination)
  | .land node i heard => w.land node i heard
  | .refuse node i => w.update node fun s => s.refuse i
  | .answer node i => w.update node fun s => s.answer i
  | .instanceTerminated node => w.update node SingletonNode.instanceTerminated
  | .restart node => w.update node SingletonNode.restart
  | .recreated node => w.update node SingletonNode.recreated
  | .stop node => w.update node SingletonNode.stop
  | .stopped node => w.update node SingletonNode.stopped
  | .start node => w.update node SingletonNode.start

/-- Nobody has started a manager. -/
def initial : SingletonWorld ι := ⟨fun _ => {}, none⟩

/-- No two nodes have a live instance. -/
def Unique (w : SingletonWorld ι) : Prop :=
  ∀ n m, (w.nodes n).instanceLive = true → (w.nodes m).instanceLive = true → n = m

/-- A manager is restarted only while it has no instance and asks for no lease, and asks for
the lease only when it has no release under way that may still take effect. -/
def Orderly (w : SingletonWorld ι) : SingletonMove ι → Prop
  | .restart node => (w.nodes node).idle = true →
      (w.nodes node).instanceLive = false ∧ (w.nodes node).leaseState ≠ .acquiring
  | .receive node => ∀ kind mailbox, (w.nodes node).mailbox = .prompt kind :: mailbox →
      (w.nodes node).status = .running ∧ (w.nodes node).awaiting.isNone = true →
      kind = .reconcile ∨ kind = .acquireRetry →
      SingletonNode.wantHosted node (w.nodes node) = true → (w.nodes node).leaseState = .none →
      ∀ awaited, LeaseCall.release false awaited ∉ (w.nodes node).calls
  | _ => True

end SingletonWorld

end ActorTs.Cluster
