import ActorTs.Persistence.Replay

/-!
# Replay with and without snapshots

A journal that has kept the payloads of an id from some point on, and snapshots that are each the
fold at their number, answer a replay with the fold of a beginning of the history. That beginning is
the one asked for, unless everything behind the newest snapshot within the bound is gone.
-/

open List Option Nat Outcome

namespace ActorTs.Persistence

open HistoryBounds SnapshotRows EntityHooks

variable {W State Event : Type}

/-- The snapshot of an id whose history are the payloads. -/
def EntityHooks.IsFold (hooks : EntityHooks W State Event) (payloads : List W) (s : Snapshot W) :
    Prop :=
  ∃ k ≤ payloads.length, s.sequenceNr = .natural k ∧
    hooks.decodeState s.state = hooks.stateAfter (payloads.take k)

lemma EntityHooks.foldReplayHistory_eq {hooks : EntityHooks W State Event} {payloads : List W}
    {history : ReplayHistory W} (hsnapshot : ∀ s ∈ history.snapshot, hooks.IsFold payloads s)
    (hholding : Holding (startOf history.snapshot)
      ((payloads.take history.sequenceNr).drop (startOf history.snapshot)) history.events)
    (hle : startOf history.snapshot ≤ history.sequenceNr) :
    hooks.foldReplayHistory history =
      (fun state => ⟨state, history.sequenceNr, history.snapshot.map Snapshot.number,
        history.events.length⟩) <$>
        hooks.stateAfter (payloads.take history.sequenceNr) := by
  have hstart : hooks.startState history.snapshot =
      hooks.stateAfter ((payloads.take history.sequenceNr).take (startOf history.snapshot)) := by
    rw [take_take, min_eq_left hle]
    cases h : history.snapshot with
    | none => rfl
    | some s =>
      obtain ⟨k, -, hs, hdecode⟩ := hsnapshot s h
      rw [startState, hdecode, startOf, elim_some, Snapshot.number, hs, SequenceNr.value_natural]
  conv_rhs => rw [← take_append_drop (startOf history.snapshot)
    (payloads.take history.sequenceNr), stateAfter_append, ← hstart]
  rw [foldReplayHistory]
  cases hooks.startState history.snapshot with
  | error e => rfl
  | ok state =>
    change (history.events.foldlM _ state >>= _) = _ <$> foldlM hooks.apply state _
    rw [foldlM_events hholding]
    exact (map_eq_pure_bind _ _).symm

namespace ReplayRequest

variable (request : ReplayRequest W State Event)

/-- What the stores answer: the payloads behind the first `compacted`, and folds. The guard
that recovery puts before the store is left out, as it is in time travel. -/
structure Answered (payloads : List W) (compacted : ℕ) (journal : InMemoryJournal W)
    (snapshots : InMemorySnapshotStore W) : Prop where
  journal_eq : request.journal = journal.answers
  snapshotStore_eq : request.snapshotStore = some snapshots.answers
  noGuard : request.guardSnapshotLoad = none
  compacted_le : compacted ≤ payloads.length
  holds : journal.Holds request.persistenceId compacted (payloads.drop compacted)
  folds : ∀ s ∈ snapshots.rows request.persistenceId, request.IsFold payloads s

/-- Whether the bound lets a number through. -/
def Within (n : ℕ) : Prop := ∀ t ∈ request.toSequenceNr, n ≤ t

/-- How many payloads the request asks for. -/
def asked (payloads : List W) : ℕ := request.toSequenceNr.elim payloads.length (min payloads.length)

variable {request} {payloads : List W} {compacted : ℕ} {journal : InMemoryJournal W}
  {snapshots : InMemorySnapshotStore W}

lemma Answered.highestSeq_eq (h : request.Answered payloads compacted journal snapshots) :
    journal.highestSeq request.persistenceId = payloads.length := by
  rw [h.holds.2, List.length_drop, Nat.add_sub_cancel' h.compacted_le]

lemma asked_le : request.asked payloads ≤ payloads.length := by
  rw [asked]
  cases request.toSequenceNr with
  | none => exact le_rfl
  | some t => exact min_le_left _ _

lemma within_iff {n : ℕ} (h : n ≤ payloads.length) :
    request.Within n ↔ n ≤ request.asked payloads := by
  rw [Within, asked]
  cases request.toSequenceNr with
  | none => simpa using h
  | some t => simp [h]

section

variable (h : request.Answered payloads compacted journal snapshots)
include h

lemma Answered.loadReplaySnapshot_eq :
    ∃ snapshot, loadReplaySnapshot request = .ok snapshot ∧
      (∀ s ∈ snapshot, s ∈ snapshots.rows request.persistenceId ∧ request.Within s.number) ∧
      ∀ s ∈ snapshots.rows request.persistenceId, request.Within s.number →
        ∃ s' ∈ snapshot, s.number ≤ s'.number := by
  have hload : ∀ snapshot : Option (Snapshot W),
      loadSnapshotOrNull (.ok snapshot) request.snapshotIsOptional request.persistenceOptions =
        .ok snapshot := by
    intro snapshot
    rw [loadSnapshotOrNull]
    split <;> rfl
  rw [loadReplaySnapshot, h.snapshotStore_eq, h.noGuard]
  cases hto : request.toSequenceNr with
  | none =>
    refine ⟨_, hload _, fun s hs => ?_, fun s hs _ => ?_⟩
    · exact ⟨(latest_eq_some_iff.1 hs).1, by simp [Within, hto]⟩
    · cases hlatest : snapshots.loadLatest request.persistenceId with
      | none => exact absurd hs (latest_eq_none_iff.1 hlatest s)
      | some s' => exact ⟨s', rfl, (latest_eq_some_iff.1 hlatest).2 s hs⟩
  | some t =>
    refine ⟨_, hload _, fun s hs => ?_, fun s hs hwithin => ?_⟩
    · obtain ⟨⟨hmem, hlt⟩, -⟩ := before_eq_some_iff.1 hs
      exact ⟨hmem, by simpa [Within, hto] using Nat.lt_succ_iff.1 hlt⟩
    · have hlt : s.number < t + 1 := lt_succ_of_le (hwithin t hto)
      cases hbefore : snapshots.loadBefore request.persistenceId (t + 1) with
      | none => exact absurd (before_eq_none_iff.1 hbefore s hs) hlt.not_ge
      | some s' => exact ⟨s', rfl, (before_eq_some_iff.1 hbefore).2 s hs hlt⟩

variable {snapshot : Option (Snapshot W)}

lemma Answered.assertTrustworthySnapshot_eq
    (hsnapshot : ∀ s ∈ snapshot, request.IsFold payloads s) :
    assertTrustworthySnapshot request.journal request.persistenceId snapshot = .ok () := by
  rw [h.journal_eq, assertTrustworthySnapshot_eq_ok_iff, h.highestSeq_eq]
  intro s hs
  obtain ⟨k, hk, hs, -⟩ := hsnapshot s hs
  rw [Snapshot.number, hs]
  exact ⟨SequenceNr.isNatural_natural k, .inr hk⟩

lemma Answered.read_eq (start : ℕ) :
    ∃ events, request.journal.read request.persistenceId (start + 1) request.toSequenceNr =
        .ok events ∧
      Holding (max compacted start)
        ((payloads.take (request.asked payloads)).drop (max compacted start)) events ∧
      ∀ e ∈ events, request.toSequenceNr.any (· < e.sequenceNr.value) = false := by
  refine ⟨journal.read request.persistenceId (start + 1) request.toSequenceNr,
    by rw [h.journal_eq]; rfl, ?_, fun e he => ?_⟩
  · have hread := h.holds.read start request.toSequenceNr
    have hlast : payloads.take (request.toSequenceNr.getD
        (compacted + (payloads.drop compacted).length)) = payloads.take (request.asked payloads) := by
      rw [List.length_drop, Nat.add_sub_cancel' h.compacted_le, asked]
      cases request.toSequenceNr with
      | none => rfl
      | some t => rw [getD_some, elim_some, take_eq_take_min, min_comm]
    rwa [← drop_take, drop_drop, hlast,
      show compacted + (start - compacted) = max compacted start by omega] at hread
  · cases hto : request.toSequenceNr with
    | none => rfl
    | some t =>
      rw [hto] at he
      simpa using InMemoryJournal.le_of_mem_read he

end

lemma startOf_le_asked (h : ∀ s ∈ snapshot, request.IsFold payloads s ∧ request.Within s.number) :
    startOf snapshot ≤ request.asked payloads := by
  cases snapshot with
  | none => exact zero_le _
  | some s =>
    obtain ⟨⟨k, hk, hs, -⟩, hwithin⟩ := h s rfl
    have hnumber : s.number ≤ payloads.length := by
      rwa [Snapshot.number, hs, SequenceNr.value_natural]
    exact (within_iff hnumber).1 hwithin

section

variable (h : request.Answered payloads compacted journal snapshots)
include h

lemma Answered.readReplayHistory_eq
    (hsnapshot : ∀ s ∈ snapshot, request.IsFold payloads s ∧ request.Within s.number) :
    ∃ events, Holding (max compacted (startOf snapshot))
        ((payloads.take (request.asked payloads)).drop (max compacted (startOf snapshot))) events ∧
      (∀ e ∈ events, request.toSequenceNr.any (· < e.sequenceNr.value) = false) ∧
      readReplayHistory request snapshot =
        assertTrustworthyHistory ⟨request.persistenceId, startOf snapshot,
          request.toSequenceNr, request.allowCompactedPrefix⟩ events >>= fun _ =>
            .ok ⟨snapshot, events,
              events.getLast?.elim (startOf snapshot) fun e => e.sequenceNr.value⟩ := by
  obtain ⟨events, hread, hholding, hbound⟩ := h.read_eq (startOf snapshot)
  refine ⟨events, hholding, hbound, ?_⟩
  rw [readReplayHistory, h.assertTrustworthySnapshot_eq fun s hs => (hsnapshot s hs).1]
  rw [hread]
  rfl

lemma Answered.history_ends (hstrict : request.allowCompactedPrefix = false)
    (hsnapshot : ∀ s ∈ snapshot, request.IsFold payloads s ∧ request.Within s.number)
    {history : ReplayHistory W} (hok : readReplayHistory request snapshot = .ok history) :
    history.snapshot = snapshot ∧
      Holding (startOf snapshot) ((payloads.take history.sequenceNr).drop (startOf snapshot))
        history.events ∧
      startOf snapshot ≤ history.sequenceNr ∧
      (history.sequenceNr = request.asked payloads ∨
        history.sequenceNr = startOf snapshot ∧ request.asked payloads ≤ compacted) := by
  obtain ⟨events, hholding, -, heq⟩ := h.readReplayHistory_eq hsnapshot
  have hle := startOf_le_asked hsnapshot
  have hasked : request.asked payloads ≤ payloads.length := asked_le
  rw [heq] at hok
  obtain ⟨_, hcheck, hok⟩ := bind_eq_ok hok
  cases hok
  refine ⟨rfl, ?_⟩
  have hlast := hholding.last_number
  rw [length_drop, length_take, min_eq_left hasked] at hlast
  by_cases hnil : (payloads.take (request.asked payloads)).drop
      (max compacted (startOf snapshot)) = []
  · rw [hnil] at hholding
    have hevents : events = [] := map_eq_nil_iff.1 hholding.map_event
    have hlength := length_eq_zero_iff.2 hnil
    rw [length_drop, length_take, min_eq_left hasked] at hlength
    rw [hevents, List.getLast?_nil, Option.elim_none, List.drop_take, Nat.sub_self, List.take_zero]
    refine ⟨.nil _, le_rfl, ?_⟩
    change startOf snapshot = _ ∨ startOf snapshot = _ ∧ _
    omega
  · have hstart := eq_of_assertTrustworthyHistory hstrict hholding hnil hcheck
    rw [hstart] at hholding hlast
    rw [hlast, Nat.add_sub_cancel' hle]
    exact ⟨hholding, hle, .inl rfl⟩

lemma Answered.history_ok
    (hsnapshot : ∀ s ∈ snapshot, request.IsFold payloads s ∧ request.Within s.number)
    (hcovered : compacted ≤ startOf snapshot) (hsafe : payloads.length ≤ maxSafeInteger) :
    ∃ history, readReplayHistory request snapshot = .ok history ∧
      history.sequenceNr = request.asked payloads := by
  obtain ⟨events, hholding, hbound, heq⟩ := h.readReplayHistory_eq hsnapshot
  have hle := startOf_le_asked hsnapshot
  have hasked : request.asked payloads ≤ payloads.length := asked_le
  rw [max_eq_right hcovered] at hholding
  have hlast := hholding.last_number
  have hlength : startOf snapshot +
      ((payloads.take (request.asked payloads)).drop (startOf snapshot)).length =
        request.asked payloads := by
    rw [List.length_drop, List.length_take, min_eq_left hasked, Nat.add_sub_cancel' hle]
  refine ⟨⟨snapshot, events, _⟩, ?_, hlast.trans hlength⟩
  rw [heq, assertTrustworthyHistory_of_holding hholding
    ((hlength.le.trans hasked).trans hsafe) hbound]
  rfl

/-- The replay is the fold of the history up to a number, which is the one asked for unless all
behind the newest snapshot is gone; it succeeds where a snapshot, or nothing, has to stand for
what is gone. -/
structure Transparent (request : ReplayRequest W State Event) (payloads : List W) (compacted : ℕ)
    (snapshots : SnapshotRows W) : Prop where
  fold_of_ok : ∀ result, replayState request = .ok result →
    request.stateAfter (payloads.take result.sequenceNr) = .ok result.state ∧
      (result.sequenceNr = request.asked payloads ∨
        request.asked payloads ≤ compacted ∧
          (∀ s ∈ snapshots, request.Within s.number → s.number ≤ result.sequenceNr) ∧
          (result.sequenceNr = 0 ∨ ∃ s ∈ snapshots, s.number = result.sequenceNr))
  ok_of_covered : (compacted = 0 ∨ ∃ s ∈ snapshots, compacted ≤ s.number ∧ request.Within s.number) →
    payloads.length ≤ maxSafeInteger →
    ∀ state, request.stateAfter (payloads.take (request.asked payloads)) = .ok state →
      ∃ result, replayState request = .ok result ∧ result.sequenceNr = request.asked payloads

/-- Whatever the stores answer, the fold steps run on events that follow one another from the
snapshot on, or from a later one where that is tolerated, within the bound. -/
def FoldsInOrder (request : ReplayRequest W State Event) : Prop :=
  request.folded = [] ∨
    ∃ snapshot start, loadReplaySnapshot request = .ok snapshot ∧
      (start = startOf snapshot ∨
        startOf snapshot < start ∧ request.allowCompactedPrefix = true) ∧
      Holding start (request.folded.map PersistentEvent.event) request.folded ∧
      ∀ e ∈ request.folded, request.Within e.sequenceNr.value

lemma Answered.transparent (hstrict : request.allowCompactedPrefix = false) :
    request.Transparent payloads compacted (snapshots.rows request.persistenceId) := by
  obtain ⟨snapshot, hload, hstored, hnewest⟩ := h.loadReplaySnapshot_eq
  have hsnapshot : ∀ s ∈ snapshot, request.IsFold payloads s ∧ request.Within s.number :=
    fun s hs => ⟨h.folds s (hstored s hs).1, (hstored s hs).2⟩
  have hfold := fun s hs => (hsnapshot s hs).1
  have hreplay : replayState request =
      readReplayHistory request snapshot >>= fun history => request.foldReplayHistory history := by
    rw [replayState, hload]
    rfl
  constructor
  · intro result hok
    rw [hreplay] at hok
    obtain ⟨history, hhistory, hresult⟩ := bind_eq_ok hok
    obtain ⟨rfl, hholding, hle, hends⟩ := h.history_ends hstrict hsnapshot hhistory
    rw [foldReplayHistory_eq hfold hholding hle] at hresult
    obtain ⟨state, hstate, rfl⟩ := map_eq_ok hresult
    refine ⟨hstate, hends.imp_right fun ⟨hstart, hgone⟩ => ⟨hgone, fun s hs hwithin => ?_, ?_⟩⟩
    · obtain ⟨s', hs', hnumber⟩ := hnewest s hs hwithin
      rw [mem_def.1 hs'] at hstart
      exact hnumber.trans hstart.ge
    · cases hfrom : history.snapshot with
      | none =>
        rw [hfrom] at hstart
        exact .inl hstart
      | some s =>
        rw [hfrom] at hstart
        exact .inr ⟨s, (hstored s hfrom).1, hstart.symm⟩
  · intro hcovered hsafe state hstate
    have hstart : compacted ≤ startOf snapshot := by
      rcases hcovered with rfl | ⟨s, hs, hle, hwithin⟩
      · exact zero_le _
      · obtain ⟨s', hs', hnumber⟩ := hnewest s hs hwithin
        obtain rfl : snapshot = some s' := hs'
        exact hle.trans hnumber
    obtain ⟨history, hhistory, hnumber⟩ := h.history_ok hsnapshot hstart hsafe
    obtain ⟨rfl, hholding, hle, -⟩ := h.history_ends hstrict hsnapshot hhistory
    refine ⟨⟨state, history.sequenceNr, history.snapshot.map Snapshot.number,
      history.events.length⟩, ?_, hnumber⟩
    rw [hreplay, hhistory]
    refine (foldReplayHistory_eq hfold hholding hle).trans ?_
    rw [hnumber, hstate]
    rfl

end

lemma foldsInOrder (request : ReplayRequest W State Event) : request.FoldsInOrder := by
  by_cases hnil : request.folded = []
  · exact .inl hnil
  right
  cases hhistory : loadReplaySnapshot request >>= readReplayHistory request with
  | error e => exact absurd (by rw [folded, hhistory]) hnil
  | ok history =>
    obtain ⟨snapshot, hload, hread⟩ := bind_eq_ok hhistory
    obtain ⟨_, -, hread⟩ := bind_eq_ok hread
    obtain ⟨events, -, hread⟩ := bind_eq_ok hread
    obtain ⟨_, hcheck, hread⟩ := bind_eq_ok hread
    cases hread
    have hfolded : request.folded <+: events := by
      rw [folded, hhistory]
      dsimp only
      cases request.startState snapshot with
      | error e => exact nil_prefix
      | ok state => exact foldSteps_prefix state events
    obtain ⟨start, hstart, hholding, hall⟩ := (checkHistory_eq_ok_iff _ _ _).1 hcheck
    refine ⟨snapshot, start, hload, hstart.imp_right fun h => ⟨h.1, h.2.2⟩,
      hholding.of_prefix hfolded, fun e he t ht => ?_⟩
    have hbound := (hall e (hfolded.subset he)).2
    rw [mem_def.1 ht] at hbound
    exact not_lt.1 (of_decide_eq_false hbound)

/-- A counter that adds up its events, with nothing to decode. -/
def counterHooks : EntityHooks ℕ ℕ ℕ where
  initialState := 0
  fold state event := .ok (state + event)
  decodeEvent := .ok
  decodeState := .ok

/-- The journal of the counter after an event of five, compacted past it. -/
def compactedJournal : InMemoryJournal ℕ where
  streams := OrderedMap.empty.set "a" []
  highWater := OrderedMap.empty.set "a" 1

def counterRequest (journal : InMemoryJournal ℕ) (snapshots : InMemorySnapshotStore ℕ) :
    ReplayRequest ℕ ℕ ℕ where
  toEntityHooks := counterHooks
  journal := journal.answers
  snapshotStore := some snapshots.answers
  persistenceId := "a"

lemma counterRequest_answered :
    (counterRequest compactedJournal {}).Answered [5] 1 compactedJournal {} where
  journal_eq := rfl
  snapshotStore_eq := rfl
  noGuard := rfl
  compacted_le := le_rfl
  holds := ⟨.nil 1, rfl⟩
  folds _ hs := absurd hs not_mem_nil

/-- A replay is the fold of all that was asked for. -/
def ReturnsAsked (request : ReplayRequest W State Event) (payloads : List W) : Prop :=
  ∀ result, replayState request = .ok result →
    request.stateAfter (payloads.take (request.asked payloads)) = .ok result.state ∧
      result.sequenceNr = request.asked payloads

end ReplayRequest

end ActorTs.Persistence
