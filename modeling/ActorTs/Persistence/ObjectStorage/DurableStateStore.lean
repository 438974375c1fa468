import ActorTs.Library.Machine
import Mathlib.Data.Int.Notation

/-!
# The durable-state store over an object storage

One record is kept under one key of the backend and replaced in place. A store remembers the etag of
the record that it saw last, with its revision, and writes on the condition that the record is still
there; it also remembers the highest revision that it saw, below which it believes no body. Several
stores may share the backend, and each may run several calls at once.

A body decodes to what was encoded, so it is the record itself, and an etag tells the body that
it stands for. Revisions stay within the integers that a number can count.
-/

namespace ActorTs.DurableState

structure Body (σ : Type*) where
  revision : ℕ
  state : σ
  timestamp : ℕ
  deriving DecidableEq

/-- A store, as far as one persistence id goes. -/
structure Store (ε : Type*) where
  etagCache : Option (ε × ℕ)
  revisionFloor : Option ℕ

inductive Failure where
  | concurrency (expected : ℕ) (actual : ℤ)
  | rollback (revision floor : ℕ)
  | other

/-- What an upsert is asked to do. -/
structure Upsert (σ : Type*) where
  expectedRevision : ℕ
  state : σ
  now : ℕ

def Upsert.body {σ : Type*} (upsert : Upsert σ) : Body σ :=
  ⟨upsert.expectedRevision + 1, upsert.state, upsert.now⟩

/-- Where a call is. A load is one of its own or the refresh in front of an upsert. -/
inductive Phase (ε σ : Type*) where
  /-- The backend is asked for the record. -/
  | getting (refresh : Option (Upsert σ))
  /-- The backend answered; the floor is that of the moment of the answer. -/
  | got (refresh : Option (Upsert σ)) (found : Option ε) (floor : Option ℕ)
  /-- The body is being encoded. -/
  | encoding (upsert : Upsert σ)
  /-- The refresh is done and gave a record of this revision, or none. -/
  | refreshed (upsert : Upsert σ) (revision : Option ℕ)
  /-- The backend is asked to put the body. -/
  | putting (upsert : Upsert σ) (ifMatch : Option ε)
  /-- The backend answered with the new etag, or that the condition failed. -/
  | put (upsert : Upsert σ) (etag : Option ε)
  | deleting
  | deleted
  | loaded (record : Option (Body σ))
  | upserted (record : Body σ)
  | threw (failure : Failure)
  | done

/-- Whether a call waits for something that can fail. -/
def Phase.awaits {ε σ : Type*} : Phase ε σ → Bool
  | .loaded _ => false
  | .upserted _ => false
  | .threw _ => false
  | .done => false
  | _ => true

structure Call (ι ε σ : Type*) where
  store : ι
  phase : Phase ε σ

/-- What happened to the record: a put for an expected revision, with the revision that it
replaced, or a delete. -/
inductive Event where
  | committed (expected : ℕ) (replaced : Option ℕ)
  | deleted
  deriving DecidableEq

/-- The revision that an event leaves behind. -/
def Event.revision : Event → Option ℕ
  | .committed expected _ => some (expected + 1)
  | .deleted => none

/-- The backend's record, the stores and their calls; and what happened so far: to the record,
which revisions each store saw, and which loads were refused for a rollback, with the revision
that was read. -/
structure World (ι ε σ : Type*) where
  stored : Option ε
  stores : ι → Store ε
  calls : ℕ → Option (Call ι ε σ)
  log : List Event
  seen : ι → List ℕ
  rollbacks : List (ι × ℕ)

inductive Input (ι ε σ : Type*) where
  | load (id : ℕ) (store : ι)
  | upsert (id : ℕ) (store : ι) (upsert : Upsert σ)
  | delete (id : ℕ) (store : ι)
  /-- The backend reads the record. -/
  | backendGet (id : ℕ)
  /-- A load goes on with what was read. -/
  | finishLoad (id : ℕ)
  /-- An upsert goes on with the encoded body. -/
  | lookUp (id : ℕ)
  /-- An upsert goes on behind its refresh. -/
  | resume (id : ℕ)
  /-- The backend puts the body, under an etag that stands for it, or refuses. -/
  | backendPut (id : ℕ) (etag : ε)
  /-- An upsert goes on with the answer. -/
  | finishPut (id : ℕ)
  | backendDelete (id : ℕ)
  | finishDelete (id : ℕ)
  /-- A request fails in another way, whether it took effect or not. -/
  | fail (id : ℕ)

namespace World

variable {ι ε σ : Type*}

def init : World ι ε σ :=
  ⟨none, fun _ => ⟨none, none⟩, fun _ => none, [], fun _ => [], []⟩

def moveTo (w : World ι ε σ) (id : ℕ) (store : ι) (phase : Phase ε σ) : World ι ε σ :=
  { w with calls := Function.update w.calls id (some ⟨store, phase⟩) }

variable (w : World ι ε σ)

lemma calls_moveTo (id id' : ℕ) (i : ι) (phase : Phase ε σ) :
    (w.moveTo id i phase).calls id' = if id' = id then some ⟨i, phase⟩ else w.calls id' :=
  Function.update_apply ..

variable [DecidableEq ι]

def withStore (w : World ι ε σ) (i : ι) (store : Store ε) : World ι ε σ :=
  { w with stores := Function.update w.stores i store }

def withSeen (w : World ι ε σ) (i : ι) (revision : ℕ) : World ι ε σ :=
  { w with seen := Function.update w.seen i (w.seen i ++ [revision]) }

lemma stores_withStore (i j : ι) (store : Store ε) :
    (w.withStore i store).stores j = if j = i then store else w.stores j :=
  Function.update_apply ..

lemma seen_withSeen (i j : ι) (revision : ℕ) :
    (w.withSeen i revision).seen j = if j = i then w.seen i ++ [revision] else w.seen j :=
  Function.update_apply ..

variable (bodyOf : ε → Body σ) (rejectRevisionRollback : ι → Bool)

/-- Whether a body is below the highest revision that the store saw. -/
def assertNoRollback (i : ι) (floor : Option ℕ) (revision : ℕ) : Option Failure :=
  if !rejectRevisionRollback i then none
  else match floor with
    | none => none
    | some floor => if revision ≥ floor then none else some (.rollback revision floor)

def raiseRevisionFloor (i : ι) (floor : Option ℕ) (revision : ℕ) : Option ℕ :=
  if !rejectRevisionRollback i then floor
  else match floor with
    | none => some revision
    | some floor => if revision > floor then some revision else some floor

/-- The store remembers a record that it saw. -/
def remember (w : World ι ε σ) (i : ι) (etag : ε) (revision : ℕ) : World ι ε σ :=
  (w.withStore i ⟨some (etag, revision),
    raiseRevisionFloor rejectRevisionRollback i (w.stores i).revisionFloor revision⟩).withSeen
      i revision

/-- What a load that gave a record, or none, is followed by. -/
def loaded (record : Option (Body σ)) : Option (Upsert σ) → Phase ε σ
  | none => .loaded record
  | some upsert => .refreshed upsert (record.map (·.revision))

/-- What stands behind the await of the backend's answer in `load`. -/
def onFinishLoad (w : World ι ε σ) (id : ℕ) (i : ι) (refresh : Option (Upsert σ)) :
    Option ε → World ι ε σ
  | none => w.moveTo id i (loaded none refresh)
  | some etag =>
    match assertNoRollback rejectRevisionRollback i (w.stores i).revisionFloor
        (bodyOf etag).revision with
    | some failure =>
      { w.moveTo id i (.threw failure) with
        rollbacks := w.rollbacks ++ [(i, (bodyOf etag).revision)] }
    | none =>
      (w.remember rejectRevisionRollback i etag (bodyOf etag).revision).moveTo id i
        (loaded (some (bodyOf etag)) refresh)

/-- The put with the etag that the store remembers now. -/
def startPut (w : World ι ε σ) (id : ℕ) (i : ι) (upsert : Upsert σ) : World ι ε σ :=
  w.moveTo id i (.putting upsert
    (if upsert.expectedRevision = 0 then none else (w.stores i).etagCache.map Prod.fst))

/-- What stands behind the encoding in `upsert`. -/
def onLookUp (w : World ι ε σ) (id : ℕ) (i : ι) (upsert : Upsert σ) : World ι ε σ :=
  match (w.stores i).etagCache with
  | some (_, revision) =>
    if revision ≠ upsert.expectedRevision then
      w.moveTo id i (.threw (.concurrency upsert.expectedRevision revision))
    else w.startPut id i upsert
  | none =>
    if upsert.expectedRevision > 0 then w.moveTo id i (.getting (some upsert))
    else w.startPut id i upsert

/-- What stands behind the refresh in `upsert`. -/
def onResume (w : World ι ε σ) (id : ℕ) (i : ι) (upsert : Upsert σ) :
    Option ℕ → World ι ε σ
  | none => w.moveTo id i (.threw (.concurrency upsert.expectedRevision 0))
  | some revision =>
    if revision ≠ upsert.expectedRevision then
      w.moveTo id i (.threw (.concurrency upsert.expectedRevision revision))
    else w.startPut id i upsert

variable [DecidableEq ε] [DecidableEq σ]

/-- The condition of a put: that there is no record for revision 0, that the record has the
etag where one is given, and none otherwise. -/
def putAllowed (stored : Option ε) (expectedRevision : ℕ) : Option ε → Bool
  | some etag => stored = some etag
  | none => expectedRevision ≠ 0 ∨ stored = none

def onBackendPut (w : World ι ε σ) (id : ℕ) (i : ι) (upsert : Upsert σ) (ifMatch : Option ε)
    (etag : ε) : World ι ε σ :=
  if !putAllowed w.stored upsert.expectedRevision ifMatch then w.moveTo id i (.put upsert none)
  else if bodyOf etag = upsert.body then
    { w.moveTo id i (.put upsert (some etag)) with
      stored := some etag
      log := w.log ++ [.committed upsert.expectedRevision
        (w.stored.map fun etag => (bodyOf etag).revision)] }
  else w

/-- What stands behind the await of the put in `upsert`. -/
def onFinishPut (w : World ι ε σ) (id : ℕ) (i : ι) (upsert : Upsert σ) :
    Option ε → World ι ε σ
  | none => (w.withStore i { w.stores i with etagCache := none }).moveTo id i
      (.threw (.concurrency upsert.expectedRevision (-1)))
  | some etag => (w.remember rejectRevisionRollback i etag upsert.body.revision).moveTo id i
      (.upserted upsert.body)

def start (w : World ι ε σ) (id : ℕ) (i : ι) (phase : Phase ε σ) : World ι ε σ :=
  match w.calls id with
  | none => w.moveTo id i phase
  | some _ => w

def step (w : World ι ε σ) : Input ι ε σ → World ι ε σ
  | .load id i => w.start id i (.getting none)
  | .upsert id i upsert => w.start id i (.encoding upsert)
  | .delete id i => w.start id i .deleting
  | .backendGet id =>
    match w.calls id with
    | some ⟨i, .getting refresh⟩ =>
      w.moveTo id i (.got refresh w.stored (w.stores i).revisionFloor)
    | _ => w
  | .finishLoad id =>
    match w.calls id with
    | some ⟨i, .got refresh found _⟩ =>
      w.onFinishLoad bodyOf rejectRevisionRollback id i refresh found
    | _ => w
  | .lookUp id =>
    match w.calls id with
    | some ⟨i, .encoding upsert⟩ => w.onLookUp id i upsert
    | _ => w
  | .resume id =>
    match w.calls id with
    | some ⟨i, .refreshed upsert revision⟩ => w.onResume id i upsert revision
    | _ => w
  | .backendPut id etag =>
    match w.calls id with
    | some ⟨i, .putting upsert ifMatch⟩ => w.onBackendPut bodyOf id i upsert ifMatch etag
    | _ => w
  | .finishPut id =>
    match w.calls id with
    | some ⟨i, .put upsert etag⟩ => w.onFinishPut rejectRevisionRollback id i upsert etag
    | _ => w
  | .backendDelete id =>
    match w.calls id with
    | some ⟨i, .deleting⟩ =>
      { w.moveTo id i .deleted with stored := none, log := w.log ++ [.deleted] }
    | _ => w
  | .finishDelete id =>
    match w.calls id with
    | some ⟨i, .deleted⟩ => (w.withStore i ⟨none, none⟩).moveTo id i .done
    | _ => w
  | .fail id =>
    match w.calls id with
    | some ⟨i, phase⟩ => if phase.awaits then w.moveTo id i (.threw .other) else w
    | none => w

/-- The world once the inputs of a run are taken. -/
def run (inputs : List (Input ι ε σ)) : World ι ε σ :=
  Machine.run (step bodyOf rejectRevisionRollback) init inputs

end World

end ActorTs.DurableState
