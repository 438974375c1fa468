import ActorTs.Persistence.PersistentActor

/-!
# Stores that several writers share

A conditional journal takes an append only at the head that its writer expects, and each of
its answers speaks of one state: the payloads of the id, in order. A snapshot shelf returns
only what was put on it. Nothing is ever deleted. The stores in memory are such stores.
-/

namespace ActorTs.Persistence

variable {W : Type}

structure ConditionalJournal (W : Type) (roundTrip : W → Except PersistenceError W) where
  Carrier : Type
  payloads : Carrier → List W
  append : ℚ → Carrier → List (JournalEntry W) → ℕ →
    Except PersistenceError (Carrier × List (PersistentEvent W))
  read : Carrier → ℕ → List (PersistentEvent W)
  highestSeq : Carrier → ℕ
  append_ok : ∀ {now journal entries expectedSeq journal' written}, entries ≠ [] →
    append now journal entries expectedSeq = .ok (journal', written) →
      expectedSeq = (payloads journal).length ∧
        Holding expectedSeq (entries.map JournalEntry.event) written ∧
        ∃ stored, (entries.mapM fun entry => roundTrip entry.event) = .ok stored ∧
          payloads journal' = payloads journal ++ stored
  read_holding : ∀ journal fromSeq, fromSeq ≤ (payloads journal).length →
    Holding fromSeq ((payloads journal).drop fromSeq) (read journal (fromSeq + 1))
  highestSeq_eq : ∀ journal, highestSeq journal = (payloads journal).length

structure SnapshotShelf (W : Type) (roundTrip : W → Except PersistenceError W) where
  Carrier : Type
  stored : Carrier → Set (Snapshot W)
  save : ℚ → Carrier → ℕ → W → Except PersistenceError Carrier
  loadLatest : Carrier → Option (Snapshot W)
  save_ok : ∀ {now snapshots seq state snapshots'},
    save now snapshots seq state = .ok snapshots' →
      ∃ w, roundTrip state = .ok w ∧ ∀ s ∈ stored snapshots', s ∈ stored snapshots ∨
        s.sequenceNr = .natural seq ∧ s.state = w
  loadLatest_mem : ∀ {snapshots s}, loadLatest snapshots = some s → s ∈ stored snapshots

/-- The journal in memory of an id of which nothing was deleted. -/
def InMemoryJournal.Whole (persistenceId : JsString) (journal : InMemoryJournal W) : Prop :=
  ∃ payloads, journal.Holds persistenceId 0 payloads

lemma InMemoryJournal.Whole.holds {persistenceId : JsString} {journal : InMemoryJournal W}
    (h : journal.Whole persistenceId) :
    journal.Holds persistenceId 0 ((journal.stream persistenceId).map PersistentEvent.event) := by
  obtain ⟨payloads, hholds⟩ := h
  rw [hholds.1.map_event]
  exact hholds

def InMemoryJournal.conditional (roundTrip : W → Except PersistenceError W)
    (persistenceId : JsString) : ConditionalJournal W roundTrip where
  Carrier := { journal : InMemoryJournal W // journal.Whole persistenceId }
  payloads journal := (journal.1.stream persistenceId).map PersistentEvent.event
  append now journal entries expectedSeq :=
    match h : journal.1.append roundTrip now persistenceId entries expectedSeq with
    | .error e => .error e
    | .ok (journal', written) =>
      if hne : entries = [] then .ok (journal, [])
      else .ok (⟨journal', by
        obtain ⟨payloads, hholds⟩ := journal.2
        obtain ⟨stored, -, hholds⟩ := hholds.append hne h
        exact ⟨_, hholds⟩⟩, written)
  read journal fromSeq := journal.1.read persistenceId fromSeq none
  highestSeq journal := journal.1.highestSeq persistenceId
  append_ok {now journal entries expectedSeq journal' written} hne h := by
    split at h
    · cases h
    · rename_i journal'' written' happend
      rw [dif_neg hne] at h
      cases h
      obtain ⟨hhead, hwritten, -⟩ := append_eq_ok hne happend
      have hholds := journal.2.holds
      obtain ⟨stored, hstored, hafter⟩ := hholds.append hne happend
      refine ⟨?_, ?_, stored, hstored, hafter.1.map_event⟩
      · rw [← hhead, hholds.2, Nat.zero_add]
      · rw [hwritten]
        exact holding_numbered persistenceId now expectedSeq entries
  read_holding journal fromSeq _ := by
    have hread := journal.2.holds.read fromSeq none
    rwa [Nat.zero_max, Option.getD_none, Nat.zero_add, Nat.sub_zero, Nat.sub_zero,
      List.take_length] at hread
  highestSeq_eq journal := by rw [journal.2.holds.2, Nat.zero_add]

/-- The snapshot store in memory, at the id's own list. -/
def InMemorySnapshotStore.shelf (roundTrip : W → Except PersistenceError W)
    (persistenceId : JsString) : SnapshotShelf W roundTrip where
  Carrier := InMemorySnapshotStore W
  stored snapshots := { s | s ∈ snapshots.rows persistenceId }
  save now snapshots seq state := Prod.fst <$> snapshots.save roundTrip now persistenceId seq state
  loadLatest snapshots := snapshots.loadLatest persistenceId
  save_ok h := by
    obtain ⟨⟨snapshots', row⟩, hsave, rfl⟩ := Outcome.map_eq_ok h
    obtain ⟨w, hw, hrows⟩ := save_eq_ok hsave
    refine ⟨w, hw, fun s hs => ?_⟩
    rcases SnapshotRows.of_mem_save (hrows ▸ hs) with rfl | hs
    · exact .inr ⟨rfl, rfl⟩
    · exact .inl hs
  loadLatest_mem h := (SnapshotRows.latest_eq_some_iff.1 h).1

end ActorTs.Persistence
