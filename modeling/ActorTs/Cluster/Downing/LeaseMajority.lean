import ActorTs.Cluster.Downing.Strategies

/-!
# The strategy that asks a lease

On an even split `LeaseMajority` asks an external lease. The call takes its time, so
`decide` answers nothing until a later call finds the result cached. An attempt that
takes too long, or whose split is gone, is abandoned: its result is not used, and a
win that it still reports is given back.

The strategy is a state with one function for each thing that can happen to it. `System` puts it
together with the calls that are under way.
-/

namespace ActorTs.Cluster.Downing

structure LeaseMajorityOptions where
  role : Option JsString := none
  acquireTimeoutMs : Option ℚ := none

/-- The fields of the strategy. -/
structure LeaseMajority where
  decision : Option DowningDecision := none
  decisionRestsOnLease : Bool := false
  acquiring : Bool := false
  lastFingerprint : Option JsString := none
  acquireDeadline : ℚ := 0
  acquireEpoch : ℕ := 0
  failSafe : Bool := false
  abandonedAcquireEpoch : Option ℕ := none
  stopped : Bool := false

/-- An acquire call: what `runAcquire` was started with, and the split it is for. -/
structure Attempt where
  epoch : ℕ
  fingerprint : JsString
  surviveSet : DowningDecision
  downSelfSet : DowningDecision
  deriving DecidableEq

def Attempt.outcome (a : Attempt) (won : Bool) : DowningDecision :=
  if won then a.surviveSet else a.downSelfSet

/-- How an acquire call ends. -/
inductive AcquireResult where
  | reported (won : Bool)
  | rejected

/-- What `decide` returns, by where it comes from: nothing, the counts of the split, or
the decision that is kept. -/
inductive Answer where
  | nothing
  | counted (decision : DowningDecision)
  | cached (decision : DowningDecision)

def Answer.decision : Answer → DowningDecision
  | nothing => ∅
  | counted decision => decision
  | cached decision => decision

def joinKeys (members : List Member) : JsString :=
  [0x2C].intercalate ((members.map addrKey).mergeSort fun a b => decide (a ≤ b))

def fingerprintOf (reachable unreachable : List Member) : JsString :=
  "R[" ++ joinKeys reachable ++ "]|U[" ++ joinKeys unreachable ++ "]"

def ClusterPartitionView.fingerprint (view : ClusterPartitionView) (role : Option JsString) :
    JsString :=
  fingerprintOf (view.reachable role) (view.unreachableCandidates role)

namespace LeaseMajority

variable (options : LeaseMajorityOptions)

def reset (s : LeaseMajority) : LeaseMajority :=
  { s with
    decision := none
    decisionRestsOnLease := false
    lastFingerprint := none
    failSafe := false
    abandonedAcquireEpoch := if s.acquiring then some s.acquireEpoch else s.abandonedAcquireEpoch
    acquiring := false
    acquireEpoch := s.acquireEpoch + 1 }

/-- A result of `decide`: the fields, the answer, and the acquire call that was made. -/
abbrev Decided := LeaseMajority × Answer × Option Attempt

/-- No decision is cached: wait for the attempt under way, or make one. -/
def await (s : LeaseMajority) (now : ℚ) (view : ClusterPartitionView) : Decided :=
  if s.acquiring then
    if s.acquireDeadline < now then
      ({ s with
          acquiring := false
          abandonedAcquireEpoch := some s.acquireEpoch
          acquireEpoch := s.acquireEpoch + 1 }, .nothing, none)
    else (s, .nothing, none)
  else if s.abandonedAcquireEpoch ≠ none then (s, .nothing, none)
  else
    ({ s with
        acquiring := true
        acquireDeadline := now + options.acquireTimeoutMs.getD 5000
        acquireEpoch := s.acquireEpoch + 1 }, .nothing,
      some
        { epoch := s.acquireEpoch + 1
          fingerprint := view.fingerprint options.role
          surviveSet := keysOf (view.unreachableCandidates options.role)
          downSelfSet := keysOf (view.reachable options.role) })

/-- The split is even. `alive` is what `checkAlive` answers, where it is asked. -/
def arbitrate (s : LeaseMajority) (alive : Bool) (now : ℚ) (view : ClusterPartitionView) :
    Decided :=
  if s.failSafe then (s, .nothing, none)
  else
    match s.decision with
    | some decision =>
      if !s.decisionRestsOnLease || alive then (s, .cached decision, none)
      else await options { s with decision := none, decisionRestsOnLease := false } now view
    | none => await options s now view

/-- Forget what was found for another split. -/
def observe (s : LeaseMajority) (fingerprint : JsString) : LeaseMajority :=
  if some fingerprint ≠ s.lastFingerprint then
    { s.reset with lastFingerprint := some fingerprint }
  else s

def decide (s : LeaseMajority) (alive : Bool) (now : ℚ) (view : ClusterPartitionView) : Decided :=
  if s.stopped then (s, .nothing, none)
  else if (view.candidates options.role).length = 0 then (s, .nothing, none)
  else if (view.unreachableCandidates options.role).length = 0 then (s.reset, .nothing, none)
  else
    let s := s.observe (view.fingerprint options.role)
    let needed := (view.candidates options.role).length / 2 + 1
    if needed ≤ (view.reachable options.role).length then
      let decision := keysOf (view.unreachableCandidates options.role)
      ({ s with decision := some decision, decisionRestsOnLease := false }, .counted decision, none)
    else if needed ≤ (view.unreachableCandidates options.role).length then
      let decision := keysOf (view.reachable options.role)
      ({ s with decision := some decision, decisionRestsOnLease := false }, .counted decision, none)
    else arbitrate options s alive now view

/-- The end of `runAcquire`, and whether it calls `release`. -/
def acquired (s : LeaseMajority) (a : Attempt) : AcquireResult → LeaseMajority × Bool
  | .rejected =>
    ({ s with
        abandonedAcquireEpoch :=
          if s.abandonedAcquireEpoch = some a.epoch then none else s.abandonedAcquireEpoch
        acquiring := if a.epoch = s.acquireEpoch then false else s.acquiring }, false)
  | .reported won =>
    if a.epoch ≠ s.acquireEpoch then
      if s.abandonedAcquireEpoch = some a.epoch then
        if won then (s, true) else ({ s with abandonedAcquireEpoch := none }, false)
      else (s, false)
    else
      ({ s with
          acquiring := false
          decision := some (a.outcome won)
          decisionRestsOnLease := won }, false)

/-- The end of `runAbandonRelease` behind its release. -/
def released (s : LeaseMajority) (failed : Bool) : LeaseMajority :=
  { s with failSafe := s.failSafe || failed, abandonedAcquireEpoch := none }

/-- `shutdown`, and whether it calls `release`. -/
def shutdown (s : LeaseMajority) : LeaseMajority × Bool :=
  if s.stopped then (s, false) else ({ s.reset with stopped := true }, true)

end LeaseMajority

/-- The strategy, the acquire calls and the undoing releases under way, and how many
calls of either kind were made. `writer` and `abandoned` are not in the code: the
attempt that the kept decision is the result of, and the attempts ever abandoned. -/
structure System where
  strategy : LeaseMajority := {}
  pending : List Attempt := []
  undoing : List Attempt := []
  acquireCalls : ℕ := 0
  releaseCalls : ℕ := 0
  writer : Option (Attempt × Bool) := none
  abandoned : List ℕ := []

inductive Event where
  | decide (alive : Bool) (now : ℚ) (view : ClusterPartitionView)
  | acquired (index : ℕ) (result : AcquireResult)
  | released (index : ℕ) (failed : Bool)
  | shutdown

namespace System

variable (options : LeaseMajorityOptions)

/-- The attempts abandoned by now, where the fields became `s`. -/
def noteAbandoned (abandoned : List ℕ) (s : LeaseMajority) : List ℕ :=
  s.abandonedAcquireEpoch.toList ++ abandoned

/-- The attempt behind the decision that `decide` left. -/
def writerAfter (writer : Option (Attempt × Bool)) (s : LeaseMajority) :
    Answer → Option (Attempt × Bool)
  | .counted _ => none
  | _ => if s.decision = none then none else writer

def onDecide (sys : System) (alive : Bool) (now : ℚ) (view : ClusterPartitionView) : System :=
  let (s, answer, call) := sys.strategy.decide options alive now view
  { sys with
    strategy := s
    pending := sys.pending ++ call.toList
    acquireCalls := sys.acquireCalls + call.toList.length
    writer := writerAfter sys.writer s answer
    abandoned := noteAbandoned sys.abandoned s }

def onAcquired (sys : System) (index : ℕ) (result : AcquireResult) : System :=
  match sys.pending[index]? with
  | none => sys
  | some a =>
    let (s, releases) := sys.strategy.acquired a result
    { sys with
      strategy := s
      pending := sys.pending.eraseIdx index
      undoing := if releases then sys.undoing ++ [a] else sys.undoing
      releaseCalls := if releases then sys.releaseCalls + 1 else sys.releaseCalls
      writer :=
        match result with
        | .reported won => if a.epoch = sys.strategy.acquireEpoch then some (a, won) else sys.writer
        | .rejected => sys.writer }

def onReleased (sys : System) (index : ℕ) (failed : Bool) : System :=
  match sys.undoing[index]? with
  | none => sys
  | some _ =>
    { sys with
      strategy := sys.strategy.released failed
      undoing := sys.undoing.eraseIdx index }

def onShutdown (sys : System) : System :=
  let (s, releases) := sys.strategy.shutdown
  { sys with
    strategy := s
    releaseCalls := if releases then sys.releaseCalls + 1 else sys.releaseCalls
    writer := if s.decision = none then none else sys.writer
    abandoned := noteAbandoned sys.abandoned s }

def step (sys : System) : Event → System
  | .decide alive now view => sys.onDecide options alive now view
  | .acquired index result => sys.onAcquired index result
  | .released index failed => sys.onReleased index failed
  | .shutdown => sys.onShutdown

def run (sys : System) (events : List Event) : System := events.foldl (step options) sys

end System

end ActorTs.Cluster.Downing
