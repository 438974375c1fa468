import ActorTs.Library.Machine
import ActorTs.Library.OrderedMap

/-!
# Death watch across a node boundary

Cells on one node watch actors on another. The watching node keeps, for each path, which cells
asked, and asks the other node once for all of them, in the name of the first; the other node
plants a proxy in the actor at the path, and the proxy answers when the actor terminates. A
path at which there is nothing, or nothing that a peer may name, is answered at once.

This is one direction of the watching between two nodes. Its frames are delivered in order. An actor
that has terminated is found at its path until its parent forgets it, and then another one may be
started there.

A watch is known by the moment at which it was placed, an answer by the moment at which it was
given. What is noted of them, nothing reads.
-/

namespace ActorTs.Cluster.RemoteWatcher

/-- Where in its actor tree a node finds a path, if the path leads below the root, and what it
does not let its peers name. -/
structure Tree (π κ : Type*) where
  place : π → Option κ
  refused : κ → Bool

/-- A watch of an actor: who watches which path, since when. -/
structure Watch (ι π : Type*) where
  watcher : ι
  watchee : π
  placed : ℕ
  deriving DecidableEq

inductive Request (ι π : Type*) where
  | watch (watcher : ι) (watchee : π)
  | unwatch (watcher : ι) (watchee : π)
  deriving DecidableEq

/-- The answer to a watch, with the moment at which it was given. -/
structure WatchTerminated (ι π : Type*) where
  watcher : ι
  watchee : π
  existenceConfirmed : Bool
  sent : ℕ

/-- What a node watches at one path: the name it used, and who asked when. -/
structure OutboundWatch (ι : Type*) where
  announcedWatcher : ι
  watchers : OrderedMap ι ℕ

structure RemoteWatcherRef (ι π : Type*) where
  watcher : ι
  watchee : π
  serial : ℕ
  deriving DecidableEq

/-- A planted proxy, with the cell that it was planted in. -/
structure InboundWatch (ι π : Type*) where
  cell : ℕ
  proxy : RemoteWatcherRef ι π

structure Cell (ι π : Type*) where
  id : ℕ
  terminated : Bool
  watchers : List (RemoteWatcherRef ι π)

structure Notification (ι π : Type*) where
  watch : Watch ι π
  existenceConfirmed : Bool
  sent : ℕ

structure World (ι π κ : Type*) where
  outbound : OrderedMap π (OutboundWatch ι)
  requests : List (Request ι π)
  inbound : OrderedMap π (OrderedMap ι (InboundWatch ι π))
  cells : κ → Option (Cell ι π)
  answers : List (WatchTerminated ι π)
  moment : ℕ
  serial : ℕ
  placed : List (Watch ι π)
  ended : List (Watch ι π)
  notifications : List (Notification ι π)
  answered : List (ι × π)

inductive Input (ι π κ : Type*) where
  | watch (watcher : ι) (subject : π)
  | unwatch (watcher : ι) (subject : π)
  /-- A watching cell stops. -/
  | unwatchAll (watcher : ι)
  | deliverRequest
  | deliverAnswer
  | start (place : κ)
  | terminate (place : κ)
  /-- A terminated actor is forgotten by its parent. -/
  | forget (place : κ)

variable {ι π κ : Type*} [DecidableEq ι] [DecidableEq π] [DecidableEq κ]

namespace World

/-- The watches that the entry of a path stands for. -/
def watchesOf (subject : π) (entry : OutboundWatch ι) : List (Watch ι π) :=
  entry.watchers.entries.map fun p => ⟨p.1, subject, p.2⟩

/-- A cell that asks again for what it watches changes nothing. -/
def watch (watcher : ι) (subject : π) (w : World ι π κ) : World ι π κ :=
  match w.outbound.get? subject with
  | some existing =>
    if existing.watchers.has watcher then w
    else { w with
      outbound := w.outbound.set subject
        { existing with watchers := existing.watchers.set watcher (w.moment + 1) }
      placed := w.placed ++ [⟨watcher, subject, w.moment + 1⟩] }
  | none => { w with
      outbound := w.outbound.set subject
        ⟨watcher, OrderedMap.empty.set watcher (w.moment + 1)⟩
      requests := w.requests ++ [.watch watcher subject]
      placed := w.placed ++ [⟨watcher, subject, w.moment + 1⟩]
      answered := w.answered.filter (· ≠ (watcher, subject)) }

def unwatch (watcher : ι) (subject : π) (w : World ι π κ) : World ι π κ :=
  match w.outbound.get? subject with
  | none => w
  | some entry =>
    let watchers := entry.watchers.delete watcher
    let ended := w.ended ++
      (entry.watchers.get? watcher).toList.map fun placed => ⟨watcher, subject, placed⟩
    if 0 < watchers.size then
      { w with outbound := w.outbound.set subject { entry with watchers := watchers }
               ended := ended }
    else
      { w with outbound := w.outbound.delete subject
               requests := w.requests ++ [.unwatch entry.announcedWatcher subject]
               ended := ended }

def unwatchAll (watcher : ι) (w : World ι π κ) : World ι π κ :=
  w.outbound.entries.foldl (fun w entry =>
    if entry.2.watchers.has watcher then w.unwatch watcher entry.1 else w) w

def onWatchTerminated (message : WatchTerminated ι π) (w : World ι π κ) : World ι π κ :=
  match w.outbound.get? message.watchee with
  | none => w
  | some entry => { w with
      outbound := w.outbound.delete message.watchee
      ended := w.ended ++ watchesOf message.watchee entry
      notifications := w.notifications ++ (watchesOf message.watchee entry).map fun watch =>
        ⟨watch, message.existenceConfirmed, message.sent⟩
      answered := w.answered ++ [(entry.announcedWatcher, message.watchee)] }

/-- What a peer may find at a path. -/
def resolve (tree : Tree π κ) (watchee : π) (w : World ι π κ) : Option (κ × Cell ι π) :=
  match tree.place watchee with
  | none => none
  | some place =>
    if tree.refused place then none else (w.cells place).map fun cell => (place, cell)

/-- An actor that has not terminated is at the path. -/
def running (tree : Tree π κ) (watchee : π) (w : World ι π κ) : Bool :=
  ((tree.place watchee).bind w.cells).any fun cell => !cell.terminated

/-- Such an actor is at the path, and a peer may name it. -/
def watchable (tree : Tree π κ) (watchee : π) (w : World ι π κ) : Bool :=
  (resolve tree watchee w).any fun found => !found.2.terminated

def answer (message : WatchTerminated ι π) (w : World ι π κ) : World ι π κ :=
  { w with answers := w.answers ++ [message] }

/-- A cell that has terminated keeps no proxy and answers it at once. -/
def addWatcher (place : κ) (cell : Cell ι π) (proxy : RemoteWatcherRef ι π) (w : World ι π κ) :
    World ι π κ :=
  if cell.terminated then w.answer ⟨proxy.watcher, proxy.watchee, true, w.moment + 1⟩
  else
    let cell := { cell with watchers := cell.watchers ++ [proxy] }
    { w with cells := Function.update w.cells place (some cell) }

def onWatch (tree : Tree π κ) (watcher : ι) (watchee : π) (w : World ι π κ) : World ι π κ :=
  match resolve tree watchee w with
  | none => w.answer ⟨watcher, watchee, false, w.moment + 1⟩
  | some (place, target) =>
    let proxy : RemoteWatcherRef ι π := ⟨watcher, watchee, w.serial⟩
    let byWatcher := (w.inbound.get? watchee).getD .empty
    let kept := match byWatcher.get? watcher with
      | none => target.watchers
      | some previous => target.watchers.filter (· ≠ previous.proxy)
    let target := { target with watchers := kept }
    addWatcher place target proxy { w with
      inbound := w.inbound.set watchee (byWatcher.set watcher ⟨target.id, proxy⟩)
      cells := Function.update w.cells place (some target)
      serial := w.serial + 1 }

/-- A proxy is taken out of the cell that it was planted in, which may be gone. -/
def removeWatcher (tree : Tree π κ) (entry : InboundWatch ι π) (w : World ι π κ) : World ι π κ :=
  match tree.place entry.proxy.watchee with
  | none => w
  | some place =>
    match w.cells place with
    | none => w
    | some cell =>
      if cell.id = entry.cell then
        let cell := { cell with watchers := cell.watchers.filter (· ≠ entry.proxy) }
        { w with cells := Function.update w.cells place (some cell) }
      else w

def onUnwatch (tree : Tree π κ) (watcher : ι) (watchee : π) (w : World ι π κ) : World ι π κ :=
  match w.inbound.get? watchee with
  | none => w
  | some byWatcher =>
    match byWatcher.get? watcher with
    | none => w
    | some entry =>
      let rest := byWatcher.delete watcher
      removeWatcher tree entry { w with
        inbound := if rest.size = 0 then w.inbound.delete watchee
          else w.inbound.set watchee rest }

def start (place : κ) (w : World ι π κ) : World ι π κ :=
  match w.cells place with
  | some _ => w
  | none => { w with
      cells := Function.update w.cells place (some ⟨w.serial, false, []⟩)
      serial := w.serial + 1 }

/-- Every proxy in the cell is told, and forgotten. -/
def terminate (place : κ) (w : World ι π κ) : World ι π κ :=
  match w.cells place with
  | none => w
  | some cell =>
    if cell.terminated then w
    else { w with
      cells := Function.update w.cells place
        (some { cell with terminated := true, watchers := [] })
      answers := w.answers ++ cell.watchers.map fun proxy =>
        ⟨proxy.watcher, proxy.watchee, true, w.moment + 1⟩ }

def forget (place : κ) (w : World ι π κ) : World ι π κ :=
  match w.cells place with
  | none => w
  | some cell =>
    if cell.terminated then { w with cells := Function.update w.cells place none } else w

def deliverRequest (tree : Tree π κ) (w : World ι π κ) : World ι π κ :=
  match w.requests with
  | [] => w
  | .watch watcher watchee :: requests =>
    onWatch tree watcher watchee { w with requests := requests }
  | .unwatch watcher watchee :: requests =>
    onUnwatch tree watcher watchee { w with requests := requests }

def deliverAnswer (w : World ι π κ) : World ι π κ :=
  match w.answers with
  | [] => w
  | message :: answers => onWatchTerminated message { w with answers := answers }

def act (tree : Tree π κ) (w : World ι π κ) : Input ι π κ → World ι π κ
  | .watch watcher subject => w.watch watcher subject
  | .unwatch watcher subject => w.unwatch watcher subject
  | .unwatchAll watcher => w.unwatchAll watcher
  | .deliverRequest => w.deliverRequest tree
  | .deliverAnswer => w.deliverAnswer
  | .start place => w.start place
  | .terminate place => w.terminate place
  | .forget place => w.forget place

def step (tree : Tree π κ) (w : World ι π κ) (input : Input ι π κ) : World ι π κ :=
  { w.act tree input with moment := w.moment + 1 }

/-- Nothing is watched; any actors may be there. -/
def initial (actors : List κ) : World ι π κ where
  outbound := .empty
  requests := []
  inbound := .empty
  cells place := if place ∈ actors then some ⟨0, false, []⟩ else none
  answers := []
  moment := 0
  serial := 1
  placed := []
  ended := []
  notifications := []
  answered := []

end World

end ActorTs.Cluster.RemoteWatcher
