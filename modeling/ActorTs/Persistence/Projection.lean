import ActorTs.Persistence.TagQuery

/-!
# Projections

A projection reads the events behind its cursor, hands them to the user's handler, one by one
or in groups, and saves the cursor behind each call. The cursor in memory is moved before the
save is answered, so the saved one stays at it or before it; an instance that crashes leaves
the saved one to the next.
-/

namespace ActorTs.Persistence

variable {W P Q : Type}

structure ProjectionEnvelope (W P : Type) where
  event : PersistentEvent W
  offset : P

/-- What a class of projections supplies: where its first cursor stands, the events it is
about and their positions, the query of a tick, and how positions compare. -/
structure ProjectionKind (W P Q : Type) where
  start : P
  concerns : PersistentEvent W → Bool
  position : PersistentEvent W → P
  query : P → Q
  read : List (PersistentEvent W) → Q → Q
  envelopes : Q → Option (List (ProjectionEnvelope W P))
  isCursor : P → P → Bool
  comparePositions : P → P → ℚ

inductive RecoveryStrategy where
  | fail
  | skip
  | retryAndFail
  | retryAndSkip

inductive ProjectionFailureAction where
  | retry
  | skip
  | stop

/-- A projection without a group size has a handler of single events. -/
structure ProjectionOptions where
  recoveryStrategy : RecoveryStrategy
  maxRetries : ℕ
  groupAfterEnvelopes : Option ℕ+

def decideFailureAction (options : ProjectionOptions) (handlerFailures : ℕ) :
    ProjectionFailureAction :=
  let budgetLeft := handlerFailures ≤ options.maxRetries
  match options.recoveryStrategy with
  | .fail => .stop
  | .skip => .skip
  | .retryAndFail => if budgetLeft then .retry else .stop
  | .retryAndSkip => if budgetLeft then .retry else .skip

/-- Where a tick stands: the query, a handler call, or the save behind it. -/
inductive TickPhase (W P Q : Type) where
  | idle
  | querying (query : Q)
  | callingOne (envelope : ProjectionEnvelope W P) (walk rest : List (ProjectionEnvelope W P))
  | callingGroup (first : ProjectionEnvelope W P) (others rest : List (ProjectionEnvelope W P))
  | savingOne (offset : P) (walk rest : List (ProjectionEnvelope W P))
  | savingGroup (offset : P) (rest : List (ProjectionEnvelope W P))

structure ProjectionInstance (W P Q : Type) where
  cursor : P
  stopped : Bool := false
  splitThrough : Option P := none
  handlerFailures : ℕ := 0
  tickFailures : ℕ := 0
  tickFailed : Bool := false
  phase : TickPhase W P Q := .idle

namespace ProjectionInstance

def onTickSucceeded (inst : ProjectionInstance W P Q) : ProjectionInstance W P Q :=
  if inst.tickFailures = 0 then inst else { inst with tickFailures := 0, handlerFailures := 0 }

/-- The epilogue of a tick. -/
def endTick (inst : ProjectionInstance W P Q) : ProjectionInstance W P Q :=
  if inst.tickFailed then { inst with phase := .idle }
  else onTickSucceeded { inst with phase := .idle }

def onPollFailure (inst : ProjectionInstance W P Q) : ProjectionInstance W P Q :=
  endTick { inst with tickFailures := inst.tickFailures + 1, tickFailed := true }

def clearFailureStreak (inst : ProjectionInstance W P Q) : ProjectionInstance W P Q :=
  { inst with handlerFailures := 0, tickFailures := 0, tickFailed := false }

variable (kind : ProjectionKind W P Q) (options : ProjectionOptions)

def isSplit (inst : ProjectionInstance W P Q) (position : P) : Bool :=
  inst.splitThrough.any fun through => kind.comparePositions position through ≤ 0

/-- The next handler call of a tick: the walk through a split group first, then the loop over
the events, or over the groups, of the rest. -/
def proceed (inst : ProjectionInstance W P Q) (walk rest : List (ProjectionEnvelope W P)) :
    ProjectionInstance W P Q :=
  match walk with
  | envelope :: walk => { inst with phase := .callingOne envelope walk rest }
  | [] =>
    match options.groupAfterEnvelopes with
    | none =>
      match rest.dropWhile fun envelope => kind.isCursor envelope.offset inst.cursor with
      | [] => inst.endTick
      | envelope :: rest => { inst with phase := .callingOne envelope [] rest }
    | some n =>
      match rest with
      | [] => inst.endTick
      | envelope :: rest =>
        if inst.isSplit kind envelope.offset then
          { inst with phase := .callingOne envelope [] rest }
        else
          match rest.take (n - 1) with
          | [] => { inst with phase := .callingOne envelope [] rest }
          | other :: others =>
            { inst with
              phase := .callingGroup envelope (other :: others) (rest.drop (n - 1)) }

def onTick (inst : ProjectionInstance W P Q) : ProjectionInstance W P Q :=
  match inst.phase with
  | .idle =>
    if inst.stopped then inst
    else { inst with tickFailed := false, phase := .querying (kind.query inst.cursor) }
  | _ => inst

def onRead (log : List (PersistentEvent W)) (inst : ProjectionInstance W P Q) :
    ProjectionInstance W P Q :=
  match inst.phase with
  | .querying query => { inst with phase := .querying (kind.read log query) }
  | _ => inst

def onQueryFailed (inst : ProjectionInstance W P Q) : ProjectionInstance W P Q :=
  match inst.phase with
  | .querying _ => inst.onPollFailure
  | _ => inst

/-- A query that is answered. The handler of groups gets its envelopes without the one at the
cursor; the loop over single events leaves it out itself. -/
def onAnswer (inst : ProjectionInstance W P Q) : ProjectionInstance W P Q :=
  match inst.phase with
  | .querying query =>
    match kind.envelopes query with
    | none => inst
    | some envelopes =>
      if options.groupAfterEnvelopes.isSome then
        inst.proceed kind options [] (envelopes.filter fun envelope =>
          !kind.isCursor envelope.offset inst.cursor)
      else inst.proceed kind options [] envelopes
  | _ => inst

/-- The offset of the last envelope of a group. -/
def lastOffset (first : ProjectionEnvelope W P) (others : List (ProjectionEnvelope W P)) : P :=
  (others.getLast?.getD first).offset

/-- A handler call that succeeds, and the events it was about. -/
def onHandled (inst : ProjectionInstance W P Q) :
    ProjectionInstance W P Q × List (PersistentEvent W) :=
  match inst.phase with
  | .callingOne envelope walk rest =>
    ({ inst with
      handlerFailures := 0
      cursor := envelope.offset
      phase := .savingOne envelope.offset walk rest }, [envelope.event])
  | .callingGroup first others rest =>
    ({ inst with
      handlerFailures := 0
      cursor := lastOffset first others
      phase := .savingGroup (lastOffset first others) rest },
      (first :: others).map ProjectionEnvelope.event)
  | _ => (inst, [])

def countFailure (inst : ProjectionInstance W P Q) : ProjectionInstance W P Q :=
  { inst with
    handlerFailures := inst.handlerFailures + 1
    tickFailures := inst.tickFailures + 1
    tickFailed := true }

/-- A handler call that fails, and the event that is skipped for it. -/
def onFailed (inst : ProjectionInstance W P Q) :
    ProjectionInstance W P Q × List (PersistentEvent W) :=
  match inst.phase with
  | .callingOne envelope walk rest =>
    match decideFailureAction options inst.countFailure.handlerFailures with
    | .stop => (endTick { inst.countFailure with stopped := true }, [])
    | .retry => (inst.countFailure.endTick, [])
    | .skip =>
      ({ inst.countFailure.clearFailureStreak with
        cursor := envelope.offset
        phase := .savingOne envelope.offset walk rest }, [envelope.event])
  | .callingGroup first others rest =>
    match decideFailureAction options inst.countFailure.handlerFailures with
    | .stop => (endTick { inst.countFailure with stopped := true }, [])
    | .retry => (inst.countFailure.endTick, [])
    | .skip =>
      (proceed kind options
        { inst.countFailure.clearFailureStreak with
          splitThrough := some (lastOffset first others) } (first :: others) rest, [])
  | _ => (inst, [])

/-- The save of the cursor is answered. -/
def onSaved (inst : ProjectionInstance W P Q) : ProjectionInstance W P Q :=
  match inst.phase with
  | .savingOne offset walk rest =>
    let inst := { inst with
      splitThrough := inst.splitThrough.filter fun through =>
        kind.comparePositions offset through < 0 }
    if inst.stopped then inst.endTick else inst.proceed kind options walk rest
  | .savingGroup _ rest =>
    if inst.stopped then inst.endTick else inst.proceed kind options [] rest
  | _ => inst

def onUnsaved (inst : ProjectionInstance W P Q) : ProjectionInstance W P Q :=
  match inst.phase with
  | .savingOne .. | .savingGroup .. => inst.onPollFailure
  | _ => inst

/-- The position that is being saved. -/
def saving? (inst : ProjectionInstance W P Q) : Option P :=
  match inst.phase with
  | .savingOne offset _ _ | .savingGroup offset _ => some offset
  | _ => none

end ProjectionInstance

/-- A save that fails, or that a crash cuts off, may have reached the store. -/
inductive ProjectionMove (W : Type) where
  | append (ev : PersistentEvent W)
  | start
  | tick
  | read
  | queryFailed
  | answer
  | handled
  | failed
  | saved
  | unsaved (landed : Bool)
  | stop
  | crash (landed : Bool)

/-- The journal, the saved cursor, the instance that runs, and the events that were part of
a handler call that succeeded, or that were skipped. -/
structure ProjectionWorld (W P Q : Type) where
  log : List (PersistentEvent W)
  store : P
  running : Option (ProjectionInstance W P Q)
  handled : List (PersistentEvent W)
  deadLetters : List (PersistentEvent W)

namespace ProjectionWorld

variable (kind : ProjectionKind W P Q) (options : ProjectionOptions)

/-- Nothing is written and nothing runs. -/
def opened : ProjectionWorld W P Q := ⟨[], kind.start, none, [], []⟩

/-- The saved cursor behind a save that is under way. -/
def landed (w : ProjectionWorld W P Q) : P :=
  ((w.running.bind ProjectionInstance.saving?).getD w.store)

def step (w : ProjectionWorld W P Q) : ProjectionMove W → ProjectionWorld W P Q
  | .append ev => if Appendable w.log ev then { w with log := w.log ++ [ev] } else w
  | .start => { w with running := w.running.or (some { cursor := w.store }) }
  | .tick => { w with running := w.running.map (ProjectionInstance.onTick kind) }
  | .read => { w with running := w.running.map (ProjectionInstance.onRead kind w.log) }
  | .queryFailed => { w with running := w.running.map ProjectionInstance.onQueryFailed }
  | .answer => { w with running := w.running.map (ProjectionInstance.onAnswer kind options) }
  | .handled =>
    match w.running with
    | none => w
    | some inst =>
      { w with running := some inst.onHandled.1, handled := w.handled ++ inst.onHandled.2 }
  | .failed =>
    match w.running with
    | none => w
    | some inst =>
      { w with
        running := some (inst.onFailed kind options).1
        deadLetters := w.deadLetters ++ (inst.onFailed kind options).2 }
  | .saved =>
    { w with
      store := w.landed
      running := w.running.map (ProjectionInstance.onSaved kind options) }
  | .unsaved landed =>
    { w with
      store := if landed then w.landed else w.store
      running := w.running.map ProjectionInstance.onUnsaved }
  | .stop =>
    { w with running := w.running.filter fun inst => match inst.phase with
      | .idle => false
      | _ => true }
  | .crash landed =>
    { w with store := if landed then w.landed else w.store, running := none }

/-- What was part of a call that succeeded, or was skipped. -/
def Done (w : ProjectionWorld W P Q) (e : PersistentEvent W) : Prop :=
  e ∈ w.handled ∨ e ∈ w.deadLetters

end ProjectionWorld

end ActorTs.Persistence
