import ActorTs.Persistence.InMemoryJournal
import ActorTs.Persistence.InMemorySnapshotStore

/-!
# Folding a journal back into state

A replay asks the snapshot store once and the journal twice, checks what both claim, and only then
folds. The check of the history passes just those events that follow one another from the start of
the fold, with one later start where a compacted prefix is tolerated.
-/

open List

namespace ActorTs.Persistence

variable {W State Event : Type}

/-- `Number.MAX_SAFE_INTEGER`. -/
def maxSafeInteger : ℕ := 2 ^ 53 - 1

def SequenceNr.isSafeInteger (sequenceNr : SequenceNr) : Bool :=
  sequenceNr.isNatural && sequenceNr.value ≤ maxSafeInteger

structure Journal (W : Type) where
  highestSeq : JsString → Except PersistenceError ℕ
  read : JsString → ℕ → Option ℕ → Except PersistenceError (List (PersistentEvent W))

structure SnapshotStore (W : Type) where
  loadLatest : JsString → Except PersistenceError (Option (Snapshot W))
  loadBefore : JsString → ℕ → Except PersistenceError (Option (Snapshot W))

def InMemoryJournal.answers (journal : InMemoryJournal W) : Journal W where
  highestSeq persistenceId := .ok (journal.highestSeq persistenceId)
  read persistenceId fromSeq toSeq := .ok (journal.read persistenceId fromSeq toSeq)

def InMemorySnapshotStore.answers (snapshots : InMemorySnapshotStore W) : SnapshotStore W where
  loadLatest persistenceId := .ok (snapshots.loadLatest persistenceId)
  loadBefore persistenceId seq := .ok (snapshots.loadBefore persistenceId seq)

/-- The modes of the two controls that a store can be asked for. -/
structure PersistenceOptions where
  integrity : Option JsString := none
  encryption : Option JsString := none

/-- The hooks of the entity whose state is rebuilt, adapters included. -/
structure EntityHooks (W State Event : Type) where
  initialState : State
  fold : State → Event → Except PersistenceError State
  decodeEvent : W → Except PersistenceError Event
  decodeState : W → Except PersistenceError State

structure ReplayRequest (W State Event : Type) extends EntityHooks W State Event where
  journal : Journal W
  snapshotStore : Option (SnapshotStore W)
  persistenceId : JsString
  toSequenceNr : Option ℕ := none
  persistenceOptions : Option PersistenceOptions := none
  allowCompactedPrefix : Bool := false
  snapshotIsOptional : Bool := false
  guardSnapshotLoad : Option (Except PersistenceError (Option (Snapshot W)) →
    Except PersistenceError (Option (Snapshot W))) := none

structure ReplayHistory (W : Type) where
  snapshot : Option (Snapshot W)
  events : List (PersistentEvent W)
  sequenceNr : ℕ

structure ReplayResult (State : Type) where
  state : State
  sequenceNr : ℕ
  fromSnapshotSequenceNr : Option ℕ
  eventsApplied : ℕ

/-- Whether a store that rejects a body could be saying that it was tampered with. -/
def PersistenceOptions.protectedSnapshot (options : PersistenceOptions) : Bool :=
  options.integrity.any (· ≠ "none".toJs) || options.encryption.any (· ≠ "none".toJs)

def loadSnapshotOrNull (load : Except PersistenceError (Option (Snapshot W)))
    (snapshotIsOptional : Bool) (persistenceOptions : Option PersistenceOptions) :
    Except PersistenceError (Option (Snapshot W)) :=
  if snapshotIsOptional && !persistenceOptions.any PersistenceOptions.protectedSnapshot then
    match load with
    | .ok snapshot => .ok snapshot
    | .error (.snapshotIntegrity message persistenceId sequenceNr) =>
      .error (.snapshotIntegrity message persistenceId sequenceNr)
    | .error _ => .ok none
  else load

def loadReplaySnapshot (request : ReplayRequest W State Event) :
    Except PersistenceError (Option (Snapshot W)) :=
  match request.snapshotStore with
  | none => .ok none
  | some snapshotStore =>
    let load := match request.toSequenceNr with
      | none => snapshotStore.loadLatest request.persistenceId
      -- `loadBefore` is exclusive.
      | some toSequenceNr => snapshotStore.loadBefore request.persistenceId (toSequenceNr + 1)
    loadSnapshotOrNull (match request.guardSnapshotLoad with | none => load | some guard => guard load)
      request.snapshotIsOptional request.persistenceOptions

def inBrackets (persistenceId : JsString) : JsString :=
  "[persistence] '" ++ persistenceId ++ "' "

def assertNaturalClaim (persistenceId : JsString) (claimed : SequenceNr) :
    Except PersistenceError Unit :=
  if claimed.isNatural then .ok ()
  else .error (.snapshotIntegrity (inBrackets persistenceId ++
    "snapshot has malformed sequenceNr=" ++ claimed.text ++
    " — refusing to recover from a corrupted or tampered snapshot") persistenceId claimed)

/-- An empty journal says nothing against a snapshot. -/
def assertClaimCovered (persistenceId : JsString) (claimed : SequenceNr) (highest : ℕ) :
    Except PersistenceError Unit :=
  if 0 < highest ∧ highest < claimed.value then
    .error (.snapshotIntegrity (inBrackets persistenceId ++ "snapshot claims sequenceNr=" ++
      claimed.text ++ " but journal's highest seq is " ++ (Nat.repr highest).toJs ++
      " — refusing to recover from a corrupted or tampered snapshot " ++
      "(would silently skip event replay)") persistenceId claimed)
  else .ok ()

def assertTrustworthySnapshot (journal : Journal W) (persistenceId : JsString) :
    Option (Snapshot W) → Except PersistenceError Unit
  | none => .ok ()
  | some snapshot => do
      assertNaturalClaim persistenceId snapshot.sequenceNr
      let highest ← journal.highestSeq persistenceId
      assertClaimCovered persistenceId snapshot.sequenceNr highest

structure HistoryBounds where
  persistenceId : JsString
  fromSequenceNr : ℕ
  toSequenceNr : Option ℕ
  allowCompactedPrefix : Bool

namespace HistoryBounds

variable (bounds : HistoryBounds)

def reject (sequenceNr : SequenceNr) (message : JsString) : Except PersistenceError Unit :=
  .error (.journalIntegrity (inBrackets bounds.persistenceId ++ message) bounds.persistenceId
    sequenceNr)

/-- The loop over the events, behind the event numbered `previous` or, at the first index,
behind the start of the fold. -/
def checkHistory : ℕ → ℕ → List (PersistentEvent W) → Except PersistenceError Unit
  | _, _, [] => .ok ()
  | previous, index, e :: events =>
    let n := e.sequenceNr.value
    if ¬ e.sequenceNr.isSafeInteger ∨ n < 1 then
      bounds.reject e.sequenceNr ("journal returned a malformed sequenceNr=" ++
        e.sequenceNr.text ++ " at position " ++ (Nat.repr index).toJs ++
        " — refusing to fold an untrustworthy event stream")
    else if n ≤ previous then
      bounds.reject e.sequenceNr (
        if index = 0 then "journal returned sequenceNr=" ++ e.sequenceNr.text ++
          ", which the replay start (" ++ (Nat.repr previous).toJs ++
          ") already accounts for — refusing to apply an event twice"
        else "journal returned events out of order: sequenceNr=" ++ e.sequenceNr.text ++
          " after " ++ (Nat.repr previous).toJs ++
          " — refusing to fold history in an order it never happened in")
    else if previous + 1 < n ∧ ¬ (index = 0 ∧ bounds.allowCompactedPrefix = true) then
      bounds.reject e.sequenceNr (
        if index = 0 then "history starts at sequenceNr=" ++ e.sequenceNr.text ++
          " but the fold starts at " ++ (Nat.repr previous).toJs ++
          " — the events in between are gone and no snapshot covers them, so the state " ++
          "cannot be reconstructed (compact only past a snapshot)"
        else "journal has a gap: expected sequenceNr=" ++ (Nat.repr (previous + 1)).toJs ++
          ", got " ++ e.sequenceNr.text ++
          " — refusing to recover a state those missing events never produced")
    else if bounds.toSequenceNr.any (· < n) then
      bounds.reject e.sequenceNr ("journal returned sequenceNr=" ++ e.sequenceNr.text ++
        " past the requested bound of " ++
        (bounds.toSequenceNr.elim [] fun t => (Nat.repr t).toJs) ++
        " — refusing to fold events outside the window that was asked for")
    else checkHistory n (index + 1) events

def assertTrustworthyHistory (events : List (PersistentEvent W)) : Except PersistenceError Unit :=
  bounds.checkHistory bounds.fromSequenceNr 0 events

end HistoryBounds

/-- The number a snapshot stands for, or zero. -/
def startOf (snapshot : Option (Snapshot W)) : ℕ := snapshot.elim 0 Snapshot.number

def readReplayHistory (request : ReplayRequest W State Event) (snapshot : Option (Snapshot W)) :
    Except PersistenceError (ReplayHistory W) := do
  let fromSequenceNr := startOf snapshot
  assertTrustworthySnapshot request.journal request.persistenceId snapshot
  let events ← request.journal.read request.persistenceId (fromSequenceNr + 1) request.toSequenceNr
  HistoryBounds.assertTrustworthyHistory
    ⟨request.persistenceId, fromSequenceNr, request.toSequenceNr, request.allowCompactedPrefix⟩ events
  return ⟨snapshot, events, events.getLast?.elim fromSequenceNr fun e => e.sequenceNr.value⟩

namespace EntityHooks

variable (hooks : EntityHooks W State Event)

def apply (state : State) (payload : W) : Except PersistenceError State := do
  hooks.fold state (← hooks.decodeEvent payload)

def startState : Option (Snapshot W) → Except PersistenceError State
  | none => .ok hooks.initialState
  | some snapshot => hooks.decodeState snapshot.state

def foldReplayHistory (history : ReplayHistory W) :
    Except PersistenceError (ReplayResult State) := do
  let start ← hooks.startState history.snapshot
  let state ← history.events.foldlM (fun state entry => hooks.apply state entry.event) start
  return ⟨state, history.sequenceNr, history.snapshot.map Snapshot.number, history.events.length⟩

/-- The events that a fold step runs on: a payload that cannot be decoded or folded is the last
that is looked at. -/
def foldSteps : State → List (PersistentEvent W) → List (PersistentEvent W)
  | _, [] => []
  | state, entry :: events =>
    match hooks.decodeEvent entry.event with
    | .error _ => []
    | .ok event =>
      entry :: match hooks.fold state event with
        | .error _ => []
        | .ok state => foldSteps state events

/-- The state that the payloads lead to, from the initial one. -/
def stateAfter (payloads : List W) : Except PersistenceError State :=
  payloads.foldlM hooks.apply hooks.initialState

end EntityHooks

def replayState (request : ReplayRequest W State Event) :
    Except PersistenceError (ReplayResult State) := do
  let snapshot ← loadReplaySnapshot request
  let history ← readReplayHistory request snapshot
  request.foldReplayHistory history

/-- The events that the fold steps of a replay run on. -/
def ReplayRequest.folded (request : ReplayRequest W State Event) : List (PersistentEvent W) :=
  match loadReplaySnapshot request >>= readReplayHistory request with
  | .error _ => []
  | .ok history =>
    match request.startState history.snapshot with
    | .error _ => []
    | .ok state => request.foldSteps state history.events

lemma SequenceNr.isSafeInteger_iff {sequenceNr : SequenceNr} :
    sequenceNr.isSafeInteger = true ↔
      sequenceNr = .natural sequenceNr.value ∧ sequenceNr.value ≤ maxSafeInteger := by
  cases sequenceNr with
  | natural n =>
    exact decide_eq_true_iff.trans (and_iff_right rfl).symm
  | malformed text => simp [isSafeInteger, isNatural]

variable (persistenceId : JsString) (claimed : SequenceNr)

lemma assertNaturalClaim_eq_ok_iff :
    assertNaturalClaim persistenceId claimed = .ok () ↔ claimed.isNatural = true := by
  rw [assertNaturalClaim]
  split_ifs with h
  · exact iff_of_true rfl h
  · exact iff_of_false nofun h

lemma assertClaimCovered_eq_ok_iff (highest : ℕ) :
    assertClaimCovered persistenceId claimed highest = .ok () ↔
      highest = 0 ∨ claimed.value ≤ highest := by
  rw [assertClaimCovered]
  split_ifs with h
  · exact iff_of_false nofun (by omega)
  · exact iff_of_true rfl (by omega)

lemma assertTrustworthySnapshot_eq_ok_iff (journal : InMemoryJournal W)
    (persistenceId : JsString) (snapshot : Option (Snapshot W)) :
    assertTrustworthySnapshot journal.answers persistenceId snapshot = .ok () ↔
      ∀ s ∈ snapshot, s.sequenceNr.isNatural = true ∧
        (journal.highestSeq persistenceId = 0 ∨
          s.number ≤ journal.highestSeq persistenceId) := by
  cases snapshot with
  | none => simp [assertTrustworthySnapshot]
  | some s =>
    simp only [Option.mem_def, Option.some.injEq, forall_eq']
    rw [← assertNaturalClaim_eq_ok_iff persistenceId, Snapshot.number,
      ← assertClaimCovered_eq_ok_iff persistenceId]
    constructor
    · intro h
      obtain ⟨_, hnatural, h⟩ := Outcome.bind_eq_ok h
      exact ⟨hnatural, h⟩
    · rintro ⟨hnatural, hcovered⟩
      rw [assertTrustworthySnapshot, hnatural]
      exact hcovered

namespace HistoryBounds

variable {bounds : HistoryBounds}

lemma reject_ne_ok (sequenceNr : SequenceNr) (message : JsString) :
    bounds.reject sequenceNr message ≠ .ok () := nofun

variable (previous index : ℕ)

lemma checkHistory_cons_eq_ok_iff (e : PersistentEvent W) (events : List (PersistentEvent W)) :
    bounds.checkHistory previous index (e :: events) = .ok () ↔
      e.sequenceNr.isSafeInteger = true ∧ previous < e.sequenceNr.value ∧
        (e.sequenceNr.value = previous + 1 ∨
          index = 0 ∧ bounds.allowCompactedPrefix = true) ∧
        bounds.toSequenceNr.any (· < e.sequenceNr.value) = false ∧
        bounds.checkHistory e.sequenceNr.value (index + 1) events = .ok () := by
  rw [checkHistory]
  by_cases hsafe : ¬ e.sequenceNr.isSafeInteger = true ∨ e.sequenceNr.value < 1
  · rw [if_pos hsafe]
    refine iff_of_false (reject_ne_ok _ _) fun h => hsafe.elim (not_not.2 h.1) fun hone => ?_
    omega
  rw [if_neg hsafe]
  by_cases hprevious : e.sequenceNr.value ≤ previous
  · rw [if_pos hprevious]
    exact iff_of_false (reject_ne_ok _ _) fun h => hprevious.not_gt h.2.1
  rw [if_neg hprevious]
  by_cases hgap : previous + 1 < e.sequenceNr.value ∧
      ¬ (index = 0 ∧ bounds.allowCompactedPrefix = true)
  · rw [if_pos hgap]
    refine iff_of_false (reject_ne_ok _ _) fun h => h.2.2.1.elim (fun heq => ?_) hgap.2
    omega
  rw [if_neg hgap]
  by_cases hbound : bounds.toSequenceNr.any (· < e.sequenceNr.value) = true
  · rw [if_pos hbound]
    exact iff_of_false (reject_ne_ok _ _) fun h => Bool.false_ne_true (h.2.2.2.1.symm.trans hbound)
  rw [if_neg hbound]
  have hfirst : e.sequenceNr.value = previous + 1 ∨
      index = 0 ∧ bounds.allowCompactedPrefix = true := by
    by_contra hnot
    obtain ⟨hne, hfirst⟩ := not_or.1 hnot
    exact hgap ⟨by omega, hfirst⟩
  simp only [not_not.1 (not_or.1 hsafe).1, not_le.1 hprevious, hfirst,
    Bool.eq_false_iff.2 hbound, true_and]

lemma checkHistory_eq_ok_iff (events : List (PersistentEvent W)) :
    bounds.checkHistory previous index events = .ok () ↔
      ∃ start, (start = previous ∨
          previous < start ∧ index = 0 ∧ bounds.allowCompactedPrefix = true) ∧
        Holding start (events.map PersistentEvent.event) events ∧
        ∀ e ∈ events, e.sequenceNr.value ≤ maxSafeInteger ∧
          bounds.toSequenceNr.any (· < e.sequenceNr.value) = false := by
  induction events generalizing previous index with
  | nil => exact ⟨fun _ => ⟨previous, .inl rfl, .nil previous, by simp⟩, fun _ => rfl⟩
  | cons e events ih =>
    rw [checkHistory_cons_eq_ok_iff, SequenceNr.isSafeInteger_iff, ih]
    constructor
    · rintro ⟨⟨hnatural, hmax⟩, hprevious, hfirst, hbound, start, hstart, hrest, hall⟩
      obtain rfl : start = e.sequenceNr.value :=
        hstart.resolve_right fun h => Nat.succ_ne_zero index h.2.1
      have hback : e.sequenceNr.value - 1 + 1 = e.sequenceNr.value := by omega
      refine ⟨e.sequenceNr.value - 1, ?_, .cons (by rwa [hback]) (by rwa [hback]), ?_⟩
      · by_cases hnext : e.sequenceNr.value = previous + 1
        · exact .inl (by omega)
        · exact .inr ⟨by omega, hfirst.resolve_left hnext⟩
      · exact forall_mem_cons.2 ⟨⟨hmax, hbound⟩, hall⟩
    · rintro ⟨start, hstart, hholding, hall⟩
      obtain ⟨hseq, rest, hrest, hholding⟩ := hholding.of_cons
      rw [map_cons, List.cons.injEq] at hrest
      obtain ⟨⟨hmax, hbound⟩, hall⟩ := forall_mem_cons.1 hall
      have hvalue : e.sequenceNr.value = start + 1 := by rw [hseq, SequenceNr.value_natural]
      refine ⟨⟨by rw [hvalue, hseq], hmax⟩, ?_, ?_, hbound, start + 1, .inl hvalue.symm,
        hrest.2 ▸ hholding, hall⟩
      · rcases hstart with rfl | ⟨hstart, -⟩ <;> omega
      · exact hstart.imp (fun h => by rw [hvalue, h]) And.right

variable {events : List (PersistentEvent W)} {payloads : List W}

lemma assertTrustworthyHistory_of_holding (h : Holding bounds.fromSequenceNr payloads events)
    (hsafe : bounds.fromSequenceNr + payloads.length ≤ maxSafeInteger)
    (hto : ∀ e ∈ events, bounds.toSequenceNr.any (· < e.sequenceNr.value) = false) :
    bounds.assertTrustworthyHistory events = .ok () := by
  refine (checkHistory_eq_ok_iff _ _ _).2 ⟨bounds.fromSequenceNr, .inl rfl, ?_, fun e he =>
    ⟨(h.bounds he).2.trans hsafe, hto e he⟩⟩
  rwa [h.map_event]

lemma eq_of_assertTrustworthyHistory {start : ℕ} (hstrict : bounds.allowCompactedPrefix = false)
    (h : Holding start payloads events) (hne : payloads ≠ [])
    (hok : bounds.assertTrustworthyHistory events = .ok ()) : start = bounds.fromSequenceNr := by
  obtain ⟨start', hstart', hholding, -⟩ := (checkHistory_eq_ok_iff _ _ _).1 hok
  rw [hstrict] at hstart'
  rcases hstart' with rfl | ⟨-, -, hstart'⟩
  · exact h.start_eq hholding hne
  · cases hstart'

end HistoryBounds

namespace EntityHooks

variable {hooks : EntityHooks W State Event}

lemma stateAfter_append (payloads later : List W) :
    hooks.stateAfter (payloads ++ later) =
      hooks.stateAfter payloads >>= fun state => later.foldlM hooks.apply state :=
  foldlM_append

lemma foldSteps_prefix (state : State) (events : List (PersistentEvent W)) :
    hooks.foldSteps state events <+: events := by
  induction events generalizing state with
  | nil => exact prefix_rfl
  | cons entry events ih =>
    rw [foldSteps]
    cases hooks.decodeEvent entry.event with
    | error e => exact nil_prefix
    | ok event =>
      refine cons_prefix_cons.2 ⟨rfl, ?_⟩
      cases hooks.fold state event with
      | error e => exact nil_prefix
      | ok next => exact ih next

lemma foldlM_events {start : ℕ} (h : Holding start payloads events) (state : State) :
    events.foldlM (fun state entry => hooks.apply state entry.event) state =
      payloads.foldlM hooks.apply state := by
  rw [← h.map_event, foldlM_map]

end EntityHooks

end ActorTs.Persistence
