import ActorTs.Library.Interruptible
import ActorTs.Persistence.InMemoryJournal
import Mathlib

/-!
# Copying one journal into another

A migration first prepares every stream that it is going to copy and refuses there what it cannot
copy. Then it copies one stream after the other: the compaction mark, the events one append at a
time, and the progress. Every write is a place where a run can be cut short.
-/

namespace ActorTs.Persistence

variable {W : Type}

/-- The journal that is copied, which numbers its events from 1. -/
structure SourceJournal (W : Type) where
  persistenceIds : List JsString
  read (persistenceId : JsString) (fromSeq : ℕ) : List (PersistentEvent W)
  highestSeq (persistenceId : JsString) : ℕ
  numbered_read : ∀ persistenceId fromSeq, ∀ e ∈ read persistenceId fromSeq,
    ∃ n, e.sequenceNr = .natural (n + 1)

inductive MigrationError where
  | tag (persistenceId : JsString) (sequenceNr : ℕ) (tags : List JsString) (reason : JsString)
  | compactedSource (persistenceId : JsString) (firstSourceSequenceNr targetHighestSeq : ℕ)
  | journalIntegrity (message persistenceId : JsString) (sequenceNr : ℕ)
  | target (error : PersistenceError)

namespace MigrationError

/-- The errors by which a migration refuses a source. -/
def IsRefusal : MigrationError → Prop
  | target _ => False
  | _ => True

def tagsText (tags : List JsString) : JsString :=
  "[" ++ ",".toJs.intercalate (tags.map JsonText.quote) ++ "]"

def message : MigrationError → JsString
  | tag persistenceId sequenceNr tags reason =>
    "[persistence] '" ++ persistenceId ++ "' sequenceNr=" ++
      (Nat.repr sequenceNr).toJs ++ " carries tags " ++ tagsText tags ++
      " that the target journal's append rejects: " ++ reason ++ " — refusing the " ++
      "whole copy before anything is written. Rewrite them with an eventTransform, or pass "
      ++ "invalidTags: 'sanitize' to drop empty and repeated tags as the copy runs"
  | compactedSource persistenceId first targetHighestSeq =>
    "[persistence] '" ++ persistenceId ++ "' source history starts at sequenceNr=" ++
      (Nat.repr first).toJs ++ " but the target is at " ++
      (Nat.repr targetHighestSeq).toJs ++
      " and its journal cannot record a compaction mark " ++
      "(no raiseCompactionMark) — refusing to copy, because appending here would renumber "
      ++ "the stream and detach it from its snapshot and read-side offsets"
  | journalIntegrity message _ _ => message
  | target error => error.message

end MigrationError

inductive InvalidTagPolicy where
  | refuse
  | sanitize
  deriving DecidableEq

structure MigrateJournalsOptions (W : Type) where
  eventTransform : PersistentEvent W → PersistentEvent W := id
  invalidTags : InvalidTagPolicy := .refuse
  /-- There is a progress store. -/
  progress : Bool := false
  persistenceIds : Option (List JsString) := none
  skipExistingPersistenceIds : Bool := false

structure MigrateJournalsResult where
  persistenceIdsInspected : ℕ := 0
  persistenceIdsWritten : ℕ := 0
  persistenceIdsSkippedAlreadyDone : ℕ := 0
  persistenceIdsSkippedExistingTarget : ℕ := 0
  eventsWritten : ℕ := 0
  persistenceIdsCompactionMarkRaised : ℕ := 0
  eventsWithSanitizedTags : ℕ := 0

/-- What stays the same from one run of a migration to the next. -/
structure MigrationPlan (W : Type) where
  source : SourceJournal W
  options : MigrateJournalsOptions W
  /-- What the target reads a payload back as, where it can store it. -/
  roundTrip : W → Except PersistenceError W
  /-- The target has `raiseCompactionMark`. -/
  recordsCompactionMarks : Bool

def MigrationPlan.allPersistenceIds (plan : MigrationPlan W) : List JsString :=
  plan.options.persistenceIds.getD plan.source.persistenceIds

/-- What the runs of a migration write to: the target and the progress store. -/
structure MigrationState (W : Type) where
  target : InMemoryJournal W := {}
  saved : List JsString := []

structure AppliedTags where
  tags : Option (List JsString)
  sanitized : Bool

/-- The tags without empty ones and without repetitions, `seen` being those before them. -/
def keptTags (seen : List JsString) : List JsString → List JsString
  | [] => []
  | tag :: tags =>
    if tag.length = 0 ∨ tag ∈ seen then keptTags seen tags
    else tag :: keptTags (tag :: seen) tags

def applyTagPolicy (tags : Option (List JsString)) (policy : InvalidTagPolicy) : AppliedTags :=
  match tags, policy with
  | none, _ => ⟨none, false⟩
  | some tags, .refuse => ⟨some tags, false⟩
  | some tags, .sanitize =>
    let kept := keptTags [] tags
    if kept.length = tags.length then ⟨some tags, false⟩ else ⟨some kept, true⟩

structure PreparedEntry (W : Type) where
  event : W
  tags : Option (List JsString)
  tagsSanitized : Bool

structure PreparedStream (W : Type) where
  targetHighestSeq : ℕ
  firstSourceSeq : ℕ
  entries : List (PreparedEntry W)

variable (plan : MigrationPlan W) (clock : JsString → ℕ → ℚ) (persistenceId : JsString)

def gapMessage (expected : ℕ) (sequenceNr : SequenceNr) : JsString :=
  "[persistence] '" ++ persistenceId ++ "' source journal has a gap: expected sequenceNr="
    ++ (Nat.repr expected).toJs ++ ", got " ++ sequenceNr.text ++
    " — refusing to copy a stream whose sequence numbers cannot be preserved"

/-- The entries for the source events behind the number `expected`. -/
def prepareEntries : ℕ → List (PersistentEvent W) →
    Except MigrationError (List (PreparedEntry W))
  | _, [] => .ok []
  | expected, sourceEvent :: sourceEvents =>
    if sourceEvent.sequenceNr ≠ .natural (expected + 1) then
      .error (.journalIntegrity (gapMessage persistenceId (expected + 1) sourceEvent.sequenceNr)
        persistenceId sourceEvent.sequenceNr.value)
    else
      let transformed := plan.options.eventTransform sourceEvent
      let applied := applyTagPolicy transformed.tags plan.options.invalidTags
      match assertValidTags applied.tags with
      | .error cause =>
        .error (.tag persistenceId sourceEvent.sequenceNr.value (applied.tags.getD [])
          cause.message)
      | .ok () => do
          let entries ← prepareEntries (expected + 1) sourceEvents
          return ⟨transformed.event, applied.tags, applied.sanitized⟩ :: entries

/-- Where the source's surviving history begins. -/
def firstSourceSeq : List (PersistentEvent W) → ℕ
  | sourceEvent :: _ => sourceEvent.sequenceNr.value
  | [] => plan.source.highestSeq persistenceId + 1

/-- Nothing, where the target has data and such streams are skipped. -/
def prepareStream (target : InMemoryJournal W) :
    Except MigrationError (Option (PreparedStream W)) :=
  let targetHighestSeq := target.highestSeq persistenceId
  if plan.options.skipExistingPersistenceIds = true ∧ 0 < targetHighestSeq then .ok none
  else
    let sourceEvents := plan.source.read persistenceId (targetHighestSeq + 1)
    let first := firstSourceSeq plan persistenceId sourceEvents
    if targetHighestSeq + 1 < first ∧ plan.recordsCompactionMarks = false then
      .error (.compactedSource persistenceId first targetHighestSeq)
    else do
      let entries ← prepareEntries plan persistenceId (first - 1) sourceEvents
      return some ⟨targetHighestSeq, first, entries⟩

def preflight (target : InMemoryJournal W) (completed : List JsString) :
    List JsString → Except MigrationError Unit
  | [] => .ok ()
  | persistenceId :: persistenceIds =>
    if persistenceId ∈ completed then preflight target completed persistenceIds
    else do
      let _ ← prepareStream plan persistenceId target
      preflight target completed persistenceIds

abbrev MigrationStep (W α : Type) := Interruptible (MigrationState W) MigrationError α

def adoptMark (stream : PreparedStream W) (result : MigrateJournalsResult) :
    MigrationStep W MigrateJournalsResult :=
  if stream.targetHighestSeq + 1 < stream.firstSourceSeq then
    if plan.recordsCompactionMarks = false then
      .lift (.error (.compactedSource persistenceId stream.firstSourceSeq
        stream.targetHighestSeq))
    else do
      Interruptible.write fun s => .ok
        { s with target := s.target.raiseCompactionMark persistenceId (stream.firstSourceSeq - 1) }
      return { result with persistenceIdsCompactionMarkRaised :=
        result.persistenceIdsCompactionMarkRaised + 1 }
  else pure result

/-- One append of a copy. -/
def appendEntry (entry : PreparedEntry W) (expected : ℕ) (s : MigrationState W) :
    Except MigrationError (MigrationState W) :=
  match s.target.append plan.roundTrip (clock persistenceId (expected + 1)) persistenceId
    [⟨entry.event, entry.tags⟩] expected with
  | .ok (target, _) => .ok { s with target }
  | .error e => .error (.target e)

def appendEntries : ℕ → List (PreparedEntry W) → MigrateJournalsResult →
    MigrationStep W MigrateJournalsResult
  | _, [], result => pure result
  | expected, entry :: entries, result => do
      Interruptible.write (appendEntry plan clock persistenceId entry expected)
      appendEntries (expected + 1) entries
        { result with
          eventsWritten := result.eventsWritten + 1
          eventsWithSanitizedTags :=
            result.eventsWithSanitizedTags + if entry.tagsSanitized then 1 else 0 }

def saveProgress (completed : List JsString) : MigrationStep W Unit :=
  if plan.options.progress then Interruptible.write fun s => .ok { s with saved := completed }
  else pure ()

/-- One stream, with the ids that are done and the counts so far. -/
def copyStream (completed : List JsString) (result : MigrateJournalsResult) :
    MigrationStep W (List JsString × MigrateJournalsResult) :=
  if persistenceId ∈ completed then
    pure (completed, { result with
      persistenceIdsInspected := result.persistenceIdsInspected + 1
      persistenceIdsSkippedAlreadyDone := result.persistenceIdsSkippedAlreadyDone + 1 })
  else do
    let s ← Interruptible.get
    let prepared ← Interruptible.lift (prepareStream plan persistenceId s.target)
    match prepared with
    | none => do
        saveProgress plan (completed ++ [persistenceId])
        return (completed ++ [persistenceId], { result with
          persistenceIdsInspected := result.persistenceIdsInspected + 1
          persistenceIdsSkippedExistingTarget := result.persistenceIdsSkippedExistingTarget + 1 })
    | some stream => do
        let marked ← adoptMark plan persistenceId stream
          { result with persistenceIdsInspected := result.persistenceIdsInspected + 1 }
        let copied ← appendEntries plan clock persistenceId (stream.firstSourceSeq - 1)
          stream.entries marked
        saveProgress plan (completed ++ [persistenceId])
        return (completed ++ [persistenceId], { copied with
          persistenceIdsWritten :=
            copied.persistenceIdsWritten + if stream.entries.isEmpty then 0 else 1 })

def copyStreams (completed : List JsString) (result : MigrateJournalsResult) :
    List JsString → MigrationStep W MigrateJournalsResult
  | [] => pure result
  | persistenceId :: persistenceIds => do
      let next ← copyStream plan clock persistenceId completed result
      copyStreams next.1 next.2 persistenceIds

/-- `clock` is what the target stamps the events of this run with. -/
def migrateBetweenJournals : MigrationStep W MigrateJournalsResult := do
  let s ← Interruptible.get
  let completed := if plan.options.progress then s.saved else []
  Interruptible.lift (preflight plan s.target completed plan.allPersistenceIds)
  copyStreams plan clock completed {} plan.allPersistenceIds

end ActorTs.Persistence
