import ActorTs.Actor.Supervision
import ActorTs.Library.JsString
import ActorTs.Library.Machine
import ActorTs.Library.OrderedMap

/-!
# The actor cell

A cell holds one actor through its incarnations: it starts it, restarts it, suspends and
resumes it, decides about its children that fail, and stops it once its children are gone.
It handles one system command after the other, and between them the messages of its
mailbox. What it tells its children, its parent and the event stream is listed in order.

What the application does when the cell calls it is given to each step as a `Conduct`. The
messages of the mailbox matter here only for what they do to the cell.
-/

namespace ActorTs.Actor

abbrev ActorName := JsString

inductive CellState where
  | creating | running | suspended | terminating | terminated
  deriving DecidableEq

/-- What a cell is spawned with, as far as its parent reads it. -/
structure Blueprint (E : Type) where
  /-- The strategy of the actor's own options, for its own failures. -/
  supervisorStrategy : Option (SupervisorStrategy E) := none

/-- A child is named by its path, and that of a child of one cell by its name. -/
inductive SystemCommand (E : Type) where
  | create
  | terminate
  | recreate (cause : Failure E)
  | suspend
  | resume
  | failure (cause : Failure E) (child : ActorName)
  | childTerminated (child : ActorName)
  | watchNotify
  | receiveTimeout
  deriving DecidableEq

inductive LifecycleEvent where
  | started | restarted | stopped
  deriving DecidableEq

/-- A call into the application: the children it spawns, and what it throws. -/
structure Hook (E : Type) where
  spawns : List (ActorName × Blueprint E) := []
  throws : Option E := none

/-- What the application does while a cell handles one input. -/
structure Conduct (E : Type) where
  now : ℚ := 0
  /-- What the factory throws, where it makes no instance. -/
  factory : Option E := none
  preStart : Hook E := {}
  preRestart : Hook E := {}
  postRestart : Hook E := {}
  onReceive : Hook E := {}
  stopChildrenOnRestart : Bool := true
  supervisorStrategy : SupervisorStrategy E := defaultStrategy

structure CellConfig where
  name : ActorName
  /-- The root guardian has no parent. -/
  isRoot : Bool := false
  /-- Names of children that stop one after the other; set for the root alone. -/
  terminationOrder : Option (List ActorName) := none

/-- What a step of a cell does to the world. -/
inductive Effect (E : Type) where
  | spawned (child : ActorName) (blueprint : Blueprint E)
  | tellChild (child : ActorName) (command : SystemCommand E)
  | tellParent (command : SystemCommand E)
  | tellSelf (command : SystemCommand E)
  | rootTerminated
  | published (event : LifecycleEvent)

structure Cell (E : Type) where
  state : CellState := .creating
  /-- How many instances the factory has made; the cell holds the last one. -/
  instances : ℕ := 0
  mailboxSuspended : Bool := false
  children : OrderedMap ActorName (Blueprint E) := .empty
  pendingRecreate : Option (Failure E) := none
  terminationGroupIndex : ℕ := 0
  /-- The restart budget, with the object of the strategy it was made for. -/
  restartBudget : Option (ℕ × RestartBudget) := none
  effects : List (Effect E) := []

namespace Cell

variable {E : Type} (config : CellConfig) (conduct : Conduct E)

def emit (c : Cell E) (effect : Effect E) : Cell E := { c with effects := c.effects ++ [effect] }

def setState (c : Cell E) (state : CellState) : Cell E := { c with state := state }

def tellAll (c : Cell E) (children : List ActorName) (command : SystemCommand E) : Cell E :=
  { c with effects := c.effects ++ children.map fun child => .tellChild child command }

def tellChildren (c : Cell E) (command : SystemCommand E) : Cell E :=
  c.tellAll c.children.keys command

/-- A spawn that is refused throws in the code that asked for it. -/
def createChild (c : Cell E) (name : ActorName) (blueprint : Blueprint E) : Cell E :=
  if c.state = .terminated ∨ c.state = .terminating then c
  else if c.children.has name then c
  else { c with children := c.children.set name blueprint }.emit (.spawned name blueprint)

/-- The application runs, and spawns children. -/
def perform (c : Cell E) (hook : Hook E) : Cell E :=
  hook.spawns.foldl (fun c spawn => c.createChild spawn.1 spawn.2) c

/-- The mailbox is suspended, and the cell with it if it runs. -/
def suspendSelf (c : Cell E) : Cell E :=
  let c := { c with mailboxSuspended := true }
  if c.state = .running then c.setState .suspended else c

def resumeMailbox (c : Cell E) : Cell E := { c with mailboxSuspended := false }

def failToParent (c : Cell E) (cause : Failure E) : Cell E :=
  let c := c.suspendSelf.tellChildren .suspend
  if config.isRoot then c.emit (.tellSelf .terminate)
  else c.emit (.tellParent (.failure cause config.name))

def onSuspend (c : Cell E) : Cell E := c.suspendSelf.tellChildren .suspend

def onResume (c : Cell E) : Cell E :=
  let c := c.resumeMailbox
  (if c.state = .suspended then c.setState .running else c).tellChildren .resume

/-- The first instance is made and started. -/
def onCreate (c : Cell E) : Cell E :=
  match conduct.factory with
  | some cause => c.failToParent config (.initialization false cause)
  | none =>
    let c := { c with instances := c.instances + 1, state := .running }.perform conduct.preStart
    match conduct.preStart.throws with
    | some cause => c.failToParent config (.initialization false cause)
    | none => c.emit (.published .started)

/-- The cell is done. A child that `postStop` asks for is refused by then. -/
def finalizeTermination (c : Cell E) : Cell E :=
  let c := (c.setState .terminated).emit (.published .stopped)
  if config.isRoot then c.emit .rootTerminated
  else c.emit (.tellParent (.childTerminated config.name))

/-- The next child of an order is told to stop; after the last one, all that are left. -/
def terminateFrom (c : Cell E) : List ActorName → Cell E
  | [] =>
    let c := c.tellChildren .terminate
    if c.children.size = 0 then c.finalizeTermination config else c
  | name :: order =>
    let c := { c with terminationGroupIndex := c.terminationGroupIndex + 1 }
    if c.children.has name then c.emit (.tellChild name .terminate) else c.terminateFrom order

def terminateNextGroup (c : Cell E) : Cell E :=
  c.terminateFrom config ((config.terminationOrder.getD []).drop c.terminationGroupIndex)

def onTerminate (c : Cell E) : Cell E :=
  if c.state = .terminated ∨ c.state = .terminating then c
  else
    let c := c.setState .terminating
    if config.terminationOrder.isSome then c.terminateNextGroup config
    else
      let c := c.tellChildren .terminate
      if c.children.size = 0 then c.finalizeTermination config else c

/-- The second half of a restart, once the children of the outgoing instance are gone. -/
def completeRecreate (c : Cell E) : Cell E :=
  match conduct.factory with
  | some cause => c.failToParent config (.initialization true cause)
  | none =>
    let c := { c with instances := c.instances + 1 }.perform conduct.postRestart
    match conduct.postRestart.throws with
    | some cause => c.failToParent config (.initialization true cause)
    | none =>
      let c := c.resumeMailbox.tellChildren .resume
      (c.setState .running).emit (.published .restarted)

/-- A restart waits for the children to stop, unless the instance keeps them. What
`preRestart` throws is logged. -/
def onRecreate (c : Cell E) (cause : Failure E) : Cell E :=
  if c.instances = 0 then c
  else
    let c := c.perform conduct.preRestart
    if conduct.stopChildrenOnRestart ∧ 0 < c.children.size then
      { c with pendingRecreate := some cause }.tellChildren .terminate
    else c.completeRecreate config conduct

/-- Ask for one restart. A strategy in another object gets a budget of its own. -/
def registerRestart (c : Cell E) (strategy : SupervisorStrategy E) (now : ℚ) : Bool × Cell E :=
  let budget := match c.restartBudget with
    | some (object, budget) =>
      if object = strategy.object then budget else RestartBudget.ofStrategy strategy
    | none => RestartBudget.ofStrategy strategy
  let answer := budget.registerRestart now
  (answer.1, { c with restartBudget := some (strategy.object, answer.2) })

/-- The strategy for a child: that of its own options, else this actor's, else the default. -/
def strategyFor (c : Cell E) (child : Blueprint E) : SupervisorStrategy E :=
  child.supervisorStrategy.getD
    (if c.instances = 0 then defaultStrategy else conduct.supervisorStrategy)

def onFailure (c : Cell E) (cause : Failure E) (name : ActorName) : Cell E :=
  match c.children.get? name with
  | none => c
  | some child =>
    let strategy := c.strategyFor conduct child
    let affected := match strategy.scope with
      | .allForOne => c.children.keys
      | .oneForOne => [name]
    match strategy.decider cause with
    | .resume => c.tellAll affected .resume
    | .restart =>
      let answer := c.registerRestart strategy conduct.now
      answer.2.tellAll affected (if answer.1 then .recreate cause else .terminate)
    | .stop => c.tellAll affected .terminate
    | .escalate => c.failToParent config cause

/-- What a stopping cell does when a child is gone. -/
def continueTermination (c : Cell E) : Cell E :=
  if c.state ≠ .terminating then c
  else if config.terminationOrder.isSome then c.terminateNextGroup config
  else if c.children.size = 0 then c.finalizeTermination config
  else c

/-- A child is gone. The last one ends the wait of a restart, unless the cell was told to
stop in the meantime. -/
def onChildTerminated (c : Cell E) (name : ActorName) : Cell E :=
  let c := { c with children := c.children.delete name }
  if c.pendingRecreate.isSome ∧ c.children.size = 0 then
    let c := { c with pendingRecreate := none }
    if c.state ≠ .terminating ∧ c.state ≠ .terminated then c.completeRecreate config conduct
    else c.continueTermination config
  else c.continueTermination config

/-- What a message of the mailbox is to the cell. -/
inductive UserMessage where
  | application | poisonPill | kill
  deriving DecidableEq

def handleUserMessage (c : Cell E) : UserMessage → Cell E
  | .poisonPill => c.onTerminate config
  | .kill => c.failToParent config .killed
  | .application =>
    let c := c.perform conduct.onReceive
    match conduct.onReceive.throws with
    | some cause => c.failToParent config (.thrown cause)
    | none => c

def onReceiveTimeout (c : Cell E) : Cell E :=
  if c.state ≠ .running then c else c.handleUserMessage config conduct .application

def handleSystemCommand (c : Cell E) : SystemCommand E → Cell E
  | .create => c.onCreate config conduct
  | .terminate => c.onTerminate config
  | .recreate cause => c.onRecreate config conduct cause
  | .suspend => c.onSuspend
  | .resume => c.onResume
  | .failure cause child => c.onFailure config conduct cause child
  | .childTerminated child => c.onChildTerminated config conduct child
  | .watchNotify => c
  | .receiveTimeout => c.onReceiveTimeout config conduct

inductive Input (E : Type) where
  | system (command : SystemCommand E)
  | user (message : UserMessage)

/-- A message is taken from the mailbox of a running cell, when it is not suspended. -/
def handle (c : Cell E) : Input E → Cell E
  | .system command => c.handleSystemCommand config conduct command
  | .user message =>
    if c.state = .running ∧ c.mailboxSuspended = false then
      c.handleUserMessage config conduct message
    else c

/-- A step, with its own effects only. A terminated cell takes no more. -/
def step (c : Cell E) (input : Conduct E × Input E) : Cell E :=
  if c.state = .terminated then { c with effects := [] }
  else { c with effects := [] }.handle config input.1 input.2

/-- The effects of a step. -/
def told (c : Cell E) (input : Conduct E × Input E) : List (Effect E) :=
  (c.step config input).effects

end Cell

end ActorTs.Actor
