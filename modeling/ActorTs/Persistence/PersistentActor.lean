import ActorTs.Persistence.Replay

/-!
# The persistent actor

An instance of the actor carries its state and the number of the last event in it. It is rebuilt by
a replay, with one more question to the journal where there was nothing to replay, and it moves by
the events it has had written.
-/

namespace ActorTs.Persistence

variable {W State Event : Type}

structure PersistentActor (W State Event : Type) extends EntityHooks W State Event where
  persistenceId : JsString
  encodeEvent : Event → Except PersistenceError W
  encodeState : State → Except PersistenceError W
  tagsFor : Event → Option (List JsString) := fun _ => none
  snapshotPolicy : ℕ → State → Event → Bool := fun _ _ _ => false
  persistenceOptions : Option PersistenceOptions := none
  snapshotIsOptional : Bool := false
  /-- Whether a fencing lease is configured. -/
  lease : Bool := false

/-- What an instance has in memory once it has recovered. -/
structure Instance (State : Type) where
  state : State
  seq : ℕ
  isLeaseHolder : Bool := true
  deriving DecidableEq

namespace PersistentActor

variable (actor : PersistentActor W State Event)

def request (journal : Journal W) (snapshotStore : SnapshotStore W) :
    ReplayRequest W State Event where
  toEntityHooks := actor.toEntityHooks
  journal := journal
  snapshotStore := some snapshotStore
  persistenceId := actor.persistenceId
  persistenceOptions := actor.persistenceOptions
  snapshotIsOptional := actor.snapshotIsOptional

/-- The head probe tells a new actor from a journal that was compacted past all it held. -/
def readJournalHistory (journal : Journal W) (snapshotStore : SnapshotStore W)
    (snapshot : Option (Snapshot W)) : Except PersistenceError (ReplayHistory W × ℕ) := do
  let history ← readReplayHistory (actor.request journal snapshotStore) snapshot
  if history.sequenceNr ≠ 0 then return (history, history.sequenceNr)
  return (history, ← journal.highestSeq actor.persistenceId)

def recover (journal : Journal W) (snapshotStore : SnapshotStore W) (isLeaseHolder : Bool) :
    Except PersistenceError (Instance State) := do
  assertValidPersistenceId actor.persistenceId "PersistentActor"
  let snapshot ← loadReplaySnapshot (actor.request journal snapshotStore)
  let (history, sequenceNr) ← actor.readJournalHistory journal snapshotStore snapshot
  let result ← actor.foldReplayHistory history
  return ⟨result.state, sequenceNr, isLeaseHolder⟩

def entryOf (event : Event) : Except PersistenceError (JournalEntry W) := do
  return ⟨← actor.encodeEvent event, actor.tagsFor event⟩

/-- The loop over what was written: state and number advance one event at a time, and stay where
they are when the fold fails. The answer is whether a snapshot is due. -/
def advance (inst : Instance State) (shouldSnapshot : Bool) :
    List Event → List (PersistentEvent W) → Instance State × Except PersistenceError Bool
  | event :: events, pe :: written =>
    match actor.fold inst.state event with
    | .error e => (inst, .error e)
    | .ok state =>
      let seq := pe.sequenceNr.value
      advance { inst with state, seq }
        (shouldSnapshot || actor.snapshotPolicy seq state event) events written
  | _, _ => (inst, .ok shouldSnapshot)

def leaseError : PersistenceError :=
  .error ("PersistentActor '" ++ actor.persistenceId ++
    "': cannot persist — this instance does not hold the entity's lease " ++
    "(another instance owns it, or the lease was lost). " ++
    "Gate on `this.isLeaseHolder` to avoid this.")

end PersistentActor

/-- The two stores of an entity, with the codec that payloads go through. -/
structure Stores (W : Type) where
  journal : InMemoryJournal W := {}
  snapshots : InMemorySnapshotStore W := {}

namespace PersistentActor

variable (actor : PersistentActor W State Event) (roundTrip : W → Except PersistenceError W)

def recoverFrom (stores : Stores W) (isLeaseHolder : Bool) :
    Except PersistenceError (Instance State) :=
  actor.recover stores.journal.answers stores.snapshots.answers isLeaseHolder

/-- What a call leaves behind, and its outcome. -/
abbrev Left (W State : Type) := (Stores W × Instance State) × Except PersistenceError Unit

def saveSnapshotNow (now : ℚ) (stores : Stores W) (inst : Instance State) : Left W State :=
  match actor.encodeState inst.state >>=
      stores.snapshots.save roundTrip now actor.persistenceId inst.seq with
  | .error e => ((stores, inst), .error e)
  | .ok (snapshots, _) => (({ stores with snapshots }, inst), .ok ())

def persistAll (now : ℚ) (events : List Event) (stores : Stores W) (inst : Instance State) :
    Left W State :=
  if events.isEmpty then ((stores, inst), .ok ())
  else if actor.lease && !inst.isLeaseHolder then ((stores, inst), .error actor.leaseError)
  else
    match events.mapM actor.entryOf >>= fun entries =>
        stores.journal.append roundTrip now actor.persistenceId entries inst.seq with
    | .error (.concurrency persistenceId expectedSeq actualSeq) =>
      -- Another instance owns the entity: this one stops.
      ((stores, { inst with isLeaseHolder := false }),
        .error (.concurrency persistenceId expectedSeq actualSeq))
    | .error e => ((stores, inst), .error e)
    | .ok (journal, written) =>
      match actor.advance inst false events written with
      | (inst, .error e) => (({ stores with journal }, inst), .error e)
      | (inst, .ok false) => (({ stores with journal }, inst), .ok ())
      | (inst, .ok true) => actor.saveSnapshotNow roundTrip now { stores with journal } inst

def persist (now : ℚ) (event : Event) (stores : Stores W) (inst : Instance State) : Left W State :=
  actor.persistAll roundTrip now [event] stores inst

/-- A fraction stands for the natural number below it, and no number for one beyond all. -/
def deleteHistory (toSeq : ℕ) (stores : Stores W) : Stores W :=
  if toSeq = 0 then stores
  else
    { journal := stores.journal.delete actor.persistenceId toSeq
      snapshots := stores.snapshots.delete actor.persistenceId (toSeq - 1) }

/-- Payloads that can be stored are read back as what they were written for. -/
structure Faithful : Prop where
  event : ∀ e w stored, actor.encodeEvent e = .ok w → roundTrip w = .ok stored →
    actor.decodeEvent stored = .ok e
  state : ∀ s w stored, actor.encodeState s = .ok w → roundTrip w = .ok stored →
    actor.decodeState stored = .ok s

variable {actor} {roundTrip} {events : List Event} {stored : List W}

lemma Faithful.decodes (hfaithful : actor.Faithful roundTrip) {entries : List (JournalEntry W)}
    (hentries : events.mapM actor.entryOf = .ok entries)
    (hstored : (entries.mapM fun entry => roundTrip entry.event) = .ok stored) :
    List.Forall₂ (fun e w => actor.decodeEvent w = .ok e) events stored := by
  replace hentries := Outcome.forall₂_of_mapM_eq_ok hentries
  replace hstored := Outcome.forall₂_of_mapM_eq_ok hstored
  induction hentries generalizing stored with
  | nil =>
    cases hstored
    exact .nil
  | cons hentry _ ih =>
    cases hstored with
    | cons hpayload hstored =>
      obtain ⟨w, hencode, hentry⟩ := Outcome.bind_eq_ok hentry
      cases hentry
      exact .cons (hfaithful.event _ w _ hencode hpayload) (ih hstored)

lemma apply_of_decodes {event : Event} {payload : W} (h : actor.decodeEvent payload = .ok event)
    (state : State) : actor.apply state payload = actor.fold state event := by
  rw [EntityHooks.apply, h]
  rfl

lemma foldlM_of_decodes (h : List.Forall₂ (fun e w => actor.decodeEvent w = .ok e) events stored)
    (state : State) : stored.foldlM actor.apply state = events.foldlM actor.fold state := by
  induction h generalizing state with
  | nil => rfl
  | cons hdecode _ ih =>
    rw [List.foldlM_cons, List.foldlM_cons, apply_of_decodes hdecode]
    exact congrArg _ (funext fun state => ih state)

end PersistentActor

/-- A counter that adds up its events and stores them as they are. -/
def counter : PersistentActor ℕ ℕ ℕ where
  initialState := 0
  fold state event := .ok (state + event)
  decodeEvent := .ok
  decodeState := .ok
  persistenceId := "a"
  encodeEvent := .ok
  encodeState := .ok

lemma counter_faithful : counter.Faithful .ok where
  event _ _ _ hencode hstored := hstored.symm.trans (hencode.symm ▸ rfl)
  state _ _ _ hencode hstored := hstored.symm.trans (hencode.symm ▸ rfl)

end ActorTs.Persistence
