import ActorTs.Library.Machine
import ActorTs.Persistence.PersistentActor

/-!
# Recovering again

One instance at a time works on the stores of an id. What a recovery accepts is a journal that goes
on right behind the latest snapshot, or behind nothing where nothing is missing; what the recovered
instance writes keeps it so. The one recovery that leaves no such stores is that from a journal of
which only the head is remembered.
-/

open List Option Nat

namespace ActorTs.Persistence

open Outcome Machine PersistentActor

variable {W State Event : Type}

namespace PersistentActor

variable {actor : PersistentActor W State Event} {roundTrip : W → Except PersistenceError W}

/-! ## What a recovery asks of the stores -/

def latest (actor : PersistentActor W State Event) (stores : Stores W) : Option (Snapshot W) :=
  stores.snapshots.loadLatest actor.persistenceId

/-- The events behind the latest snapshot. -/
def tail (actor : PersistentActor W State Event) (stores : Stores W) : List (PersistentEvent W) :=
  stores.journal.read actor.persistenceId (startOf (actor.latest stores) + 1) none

def head (actor : PersistentActor W State Event) (stores : Stores W) : ℕ :=
  stores.journal.highestSeq actor.persistenceId

/-- The last number that is read, or that of the snapshot. -/
def reached (actor : PersistentActor W State Event) (stores : Stores W) : ℕ :=
  (actor.tail stores).getLast?.elim (startOf (actor.latest stores)) fun e => e.sequenceNr.value

def bounds (actor : PersistentActor W State Event) (stores : Stores W) : HistoryBounds :=
  ⟨actor.persistenceId, startOf (actor.latest stores), none, false⟩

lemma loadReplaySnapshot_request (stores : Stores W) :
    loadReplaySnapshot (actor.request stores.journal.answers stores.snapshots.answers) =
      .ok (actor.latest stores) := by
  change loadSnapshotOrNull (.ok (actor.latest stores)) _ _ = _
  rw [loadSnapshotOrNull]
  split <;> rfl

lemma readReplayHistory_eq_ok_iff {stores : Stores W} {history : ReplayHistory W} :
    readReplayHistory (actor.request stores.journal.answers stores.snapshots.answers)
        (actor.latest stores) = .ok history ↔
      ((∀ s ∈ actor.latest stores, s.sequenceNr.isNatural = true ∧
          (actor.head stores = 0 ∨ s.number ≤ actor.head stores)) ∧
        (actor.bounds stores).assertTrustworthyHistory (actor.tail stores) = .ok ()) ∧
      history = ⟨actor.latest stores, actor.tail stores, actor.reached stores⟩ := by
  rw [head, ← assertTrustworthySnapshot_eq_ok_iff, readReplayHistory]
  simp only [bind_eq_ok_iff]
  constructor
  · rintro ⟨_, hsnapshot, events, hread, _, hcheck, hhistory⟩
    cases hread
    cases hhistory
    exact ⟨⟨hsnapshot, hcheck⟩, rfl⟩
  · rintro ⟨⟨hsnapshot, hcheck⟩, rfl⟩
    exact ⟨(), hsnapshot, actor.tail stores, rfl, (), hcheck, rfl⟩

/-- The stores lead to a state and a number. -/
structure Recovers (actor : PersistentActor W State Event) (stores : Stores W) (state : State)
    (seq : ℕ) : Prop where
  claims : ∀ s ∈ actor.latest stores, s.sequenceNr.isNatural = true ∧
    (actor.head stores = 0 ∨ s.number ≤ actor.head stores)
  history : (actor.bounds stores).assertTrustworthyHistory (actor.tail stores) = .ok ()
  state_eq : (actor.startState (actor.latest stores) >>= fun start =>
    (actor.tail stores).foldlM (fun state entry => actor.apply state entry.event) start) = .ok state
  seq_eq : seq = if actor.reached stores ≠ 0 then actor.reached stores else actor.head stores

lemma readJournalHistory_eq (stores : Stores W) (snapshot : Option (Snapshot W)) :
    actor.readJournalHistory stores.journal.answers stores.snapshots.answers snapshot =
      (fun history => (history,
        if history.sequenceNr ≠ 0 then history.sequenceNr else actor.head stores)) <$>
        readReplayHistory (actor.request stores.journal.answers stores.snapshots.answers)
          snapshot := by
  rw [readJournalHistory]
  cases readReplayHistory (actor.request stores.journal.answers stores.snapshots.answers)
      snapshot with
  | error e => rfl
  | ok history =>
    change (if history.sequenceNr ≠ 0 then _ else _) =
      Except.ok (history, if history.sequenceNr ≠ 0 then _ else _)
    split_ifs <;> rfl

lemma recoverFrom_eq_ok_iff {stores : Stores W} {isLeaseHolder : Bool} {inst : Instance State} :
    actor.recoverFrom stores isLeaseHolder = .ok inst ↔
      assertValidPersistenceId actor.persistenceId "PersistentActor" = .ok () ∧
        actor.Recovers stores inst.state inst.seq ∧ inst.isLeaseHolder = isLeaseHolder := by
  rw [recoverFrom, recover, loadReplaySnapshot_request]
  constructor
  · intro h
    obtain ⟨_, hvalid, h⟩ := bind_eq_ok h
    obtain ⟨_, hload, h⟩ := bind_eq_ok h
    cases hload
    obtain ⟨_, hread, h⟩ := bind_eq_ok h
    rw [readJournalHistory_eq] at hread
    obtain ⟨_, hhistory, rfl⟩ := map_eq_ok hread
    obtain ⟨⟨hclaims, hcheck⟩, rfl⟩ := readReplayHistory_eq_ok_iff.1 hhistory
    obtain ⟨_, hfold, h⟩ := bind_eq_ok h
    obtain ⟨start, hstart, hfold⟩ := bind_eq_ok hfold
    obtain ⟨state, hstate, hfold⟩ := bind_eq_ok hfold
    cases hfold
    cases h
    exact ⟨hvalid, ⟨hclaims, hcheck, bind_eq_ok_iff.2 ⟨start, hstart, hstate⟩, rfl⟩, rfl⟩
  · rintro ⟨hvalid, h, rfl⟩
    have hhistory := readReplayHistory_eq_ok_iff.2 ⟨⟨h.claims, h.history⟩, rfl⟩
    obtain ⟨start, hstart, hstate⟩ := bind_eq_ok h.state_eq
    refine bind_eq_ok_iff.2 ⟨(), hvalid, bind_eq_ok_iff.2 ⟨_, rfl, ?_⟩⟩
    rw [readJournalHistory_eq, hhistory]
    refine bind_eq_ok_iff.2 ⟨_, rfl, bind_eq_ok_iff.2
      ⟨⟨inst.state, actor.reached stores, (actor.latest stores).map Snapshot.number,
        (actor.tail stores).length⟩, ?_, ?_⟩⟩
    · exact bind_eq_ok_iff.2 ⟨start, hstart, bind_eq_ok_iff.2 ⟨_, hstate, rfl⟩⟩
    · change Except.ok (Instance.mk inst.state (if actor.reached stores ≠ 0 then _ else _) _) = _
      rw [← h.seq_eq]

/-! ## Stores that can be recovered from -/

/-- The journal goes on right behind the latest snapshot, and the state is what both lead to. -/
structure Healthy (actor : PersistentActor W State Event) (stores : Stores W) (state : State)
    (seq start : ℕ) (payloads : List W) : Prop where
  holds : stores.journal.Holds actor.persistenceId start payloads
  natural : ∀ s ∈ actor.latest stores, s.sequenceNr.isNatural = true
  start_le : start ≤ startOf (actor.latest stores)
  covered : startOf (actor.latest stores) ≤ start + payloads.length
  state_eq : (actor.startState (actor.latest stores) >>= fun state =>
    (payloads.drop (startOf (actor.latest stores) - start)).foldlM actor.apply state) = .ok state
  seq_eq : seq = start + payloads.length

/-- The state is that of a snapshot with nothing behind it, away from the head of the journal:
nothing more can be appended. -/
structure Stuck (actor : PersistentActor W State Event) (stores : Stores W) (state : State)
    (seq : ℕ) : Prop where
  claims : ∀ s ∈ actor.latest stores, s.sequenceNr.isNatural = true ∧
    (actor.head stores = 0 ∨ s.number ≤ actor.head stores)
  start_eq : startOf (actor.latest stores) = seq
  positive : 0 < seq
  state_eq : actor.startState (actor.latest stores) = .ok state
  tail_eq : actor.tail stores = []
  head_ne : actor.head stores ≠ seq

/-- Nothing with a number is left in the stores, but the head of the journal is remembered. -/
def RememberedHead (actor : PersistentActor W State Event) (stores : Stores W) : Prop :=
  stores.journal.stream actor.persistenceId = [] ∧ startOf (actor.latest stores) = 0 ∧
    0 < actor.head stores

variable {stores : Stores W} {state : State} {seq start : ℕ} {payloads : List W}

lemma holding_tail (h : stores.journal.Holds actor.persistenceId start payloads) :
    Holding (max start (startOf (actor.latest stores)))
      (payloads.drop (startOf (actor.latest stores) - start)) (actor.tail stores) := by
  have hread := h.read (startOf (actor.latest stores)) none
  rwa [Option.getD_none, Nat.add_sub_cancel_left, List.take_length] at hread

lemma Healthy.recovers (h : actor.Healthy stores state seq start payloads)
    (hsafe : seq ≤ maxSafeInteger) : actor.Recovers stores state seq := by
  have htail := holding_tail h.holds
  rw [max_eq_right h.start_le] at htail
  have hlength : startOf (actor.latest stores) +
      (payloads.drop (startOf (actor.latest stores) - start)).length = seq := by
    have := h.start_le
    have := h.covered
    rw [length_drop, h.seq_eq]
    omega
  have hhead : actor.head stores = seq := by rw [head, h.holds.2, h.seq_eq]
  refine ⟨fun s hs => ⟨h.natural s hs, .inr ?_⟩, ?_, ?_, ?_⟩
  · have hcovered := h.covered
    rw [mem_def.1 hs] at hcovered
    rw [hhead, h.seq_eq]
    exact hcovered
  · exact HistoryBounds.assertTrustworthyHistory_of_holding htail (hlength.le.trans hsafe)
      fun _ _ => rfl
  · simp only [EntityHooks.foldlM_events htail]
    exact h.state_eq
  · rw [reached, htail.last_number, hlength, hhead, ite_self]

lemma Stuck.recovers (h : actor.Stuck stores state seq) : actor.Recovers stores state seq := by
  have hreached : actor.reached stores = seq := by
    rw [reached, h.tail_eq, getLast?_nil, elim_none, h.start_eq]
  refine ⟨h.claims, ?_, ?_, ?_⟩
  · rw [h.tail_eq]
    rfl
  · rw [h.state_eq, h.tail_eq]
    rfl
  · rw [hreached, if_pos h.positive.ne']

lemma Recovers.healthy_or_stuck (hholds : stores.journal.Holds actor.persistenceId start payloads)
    (h : actor.Recovers stores state seq) (hhead : ¬ actor.RememberedHead stores) :
    actor.Healthy stores state seq start payloads ∨ actor.Stuck stores state seq := by
  have htail := holding_tail hholds
  have hholdsHead : actor.head stores = start + payloads.length := hholds.2
  by_cases hnil : payloads.drop (startOf (actor.latest stores) - start) = []
  · have htailNil : actor.tail stores = [] := by
      rw [hnil] at htail
      exact map_eq_nil_iff.1 htail.map_event
    have hreached : actor.reached stores = startOf (actor.latest stores) := by
      rw [reached, htailNil]
      rfl
    have hstate : actor.startState (actor.latest stores) = .ok state := by
      have := h.state_eq
      rw [htailNil] at this
      obtain ⟨start, hstart, hstate⟩ := bind_eq_ok this
      cases hstate
      exact hstart
    have hlength := length_eq_zero_iff.2 hnil
    rw [length_drop] at hlength
    have hseq := h.seq_eq
    rw [hreached] at hseq
    by_cases hzero : startOf (actor.latest stores) = 0
    · have hempty : payloads = [] := length_eq_zero_iff.1 (by omega)
      have hstart : start = 0 := by
        by_contra hne
        refine hhead ⟨?_, hzero, ?_⟩
        · rw [hempty] at hholds
          exact map_eq_nil_iff.1 hholds.1.map_event
        · omega
      subst hempty hstart
      refine .inl ⟨hholds, fun s hs => (h.claims s hs).1, zero_le _, hzero.le, ?_, ?_⟩
      · rw [hstate, drop_nil]
        rfl
      · rw [hseq, hzero, hholdsHead]
        rfl
    · rw [if_pos hzero] at hseq
      by_cases hne : actor.head stores = seq
      · refine .inl ⟨hholds, fun s hs => (h.claims s hs).1, by omega, by omega, ?_, by omega⟩
        rw [hstate, hnil]
        rfl
      · exact .inr ⟨h.claims, hseq.symm, by omega, hstate, htailNil, hne⟩
  · have hstart := HistoryBounds.eq_of_assertTrustworthyHistory rfl htail hnil h.history
    have hle : start ≤ startOf (actor.latest stores) := max_eq_right_iff.1 hstart
    have hpos : 0 < (payloads.drop (startOf (actor.latest stores) - start)).length :=
      length_pos_iff.2 hnil
    rw [hstart] at htail
    have hreached : actor.reached stores = startOf (actor.latest stores) +
        (payloads.drop (startOf (actor.latest stores) - start)).length := htail.last_number
    have hseq := h.seq_eq
    rw [length_drop] at hreached hpos
    rw [if_pos (by omega)] at hseq
    refine .inl ⟨hholds, fun s hs => (h.claims s hs).1, hle, by omega, ?_, by omega⟩
    rw [← h.state_eq]
    simp only [EntityHooks.foldlM_events htail]

/-! ## What the calls of an instance keep -/

variable {inst inst' : Instance State} {stores' : Stores W} {now : ℚ}

variable {events : List Event}

lemma advance_eq_ok {written : List (PersistentEvent W)} {paid : List W} {due due' : Bool}
    (h : actor.advance inst due events written = (inst', .ok due'))
    (hwritten : Holding inst.seq paid written) (hlength : paid.length = events.length) :
    events.foldlM actor.fold inst.state = .ok inst'.state ∧
      inst'.seq = inst.seq + events.length := by
  induction events generalizing inst written paid due with
  | nil =>
    cases h
    exact ⟨rfl, rfl⟩
  | cons event events ih =>
    cases hwritten with
    | nil => cases hlength
    | @cons _ paid pe written hseq hwritten =>
      rw [advance] at h
      cases hfold : actor.fold inst.state event with
      | error e =>
        rw [hfold] at h
        cases h
      | ok next =>
        rw [hfold] at h
        rw [hseq, SequenceNr.value_natural] at h
        have hcount : Holding ({ inst with state := next, seq := inst.seq + 1 } :
            Instance State).seq paid written := hwritten
        obtain ⟨hstate, hnumber⟩ := ih h hcount (succ.inj hlength)
        refine ⟨?_, ?_⟩
        · rw [foldlM_cons, hfold]
          exact hstate
        · rw [hnumber, length_cons]
          exact add_right_comm _ _ _

lemma persistAll_eq_ok (hne : events ≠ [])
    (h : actor.persistAll roundTrip now events stores inst = ((stores', inst'), .ok ())) :
    actor.head stores = inst.seq ∧
      ∃ entries journal written due next, events.mapM actor.entryOf = .ok entries ∧
        stores.journal.append roundTrip now actor.persistenceId entries inst.seq =
          .ok (journal, written) ∧
        actor.advance inst false events written = (next, .ok due) ∧
        ((stores', inst') = ({ stores with journal }, next) ∨
          actor.saveSnapshotNow roundTrip now { stores with journal } next =
            ((stores', inst'), .ok ())) := by
  rw [persistAll, if_neg (by simpa using hne)] at h
  split_ifs at h
  · cases h
  generalize hx : (events.mapM actor.entryOf >>= fun entries =>
    stores.journal.append roundTrip now actor.persistenceId entries inst.seq) = x at h
  cases x with
  | error e => cases e <;> cases h
  | ok answer =>
    obtain ⟨journal, written⟩ := answer
    obtain ⟨entries, hentries, happend⟩ := bind_eq_ok hx
    have hentriesNe : entries ≠ [] := by
      rintro rfl
      have := (forall₂_of_mapM_eq_ok hentries).length_eq
      exact hne (length_eq_zero_iff.1 this)
    refine ⟨(InMemoryJournal.append_eq_ok hentriesNe happend).1, entries, journal, written, ?_⟩
    dsimp only at h
    rcases hadvance : actor.advance inst false events written with ⟨next, outcome⟩
    rw [hadvance] at h
    cases outcome with
    | error e => cases h
    | ok due =>
      refine ⟨due, next, hentries, happend, rfl, ?_⟩
      cases due with
      | false => exact .inl (congrArg Prod.fst h).symm
      | true => exact .inr h

lemma saveSnapshotNow_eq_ok
    (h : actor.saveSnapshotNow roundTrip now stores inst = ((stores', inst'), .ok ())) :
    inst' = inst ∧ stores'.journal = stores.journal ∧
      ∃ w stored, actor.encodeState inst.state = .ok w ∧ roundTrip w = .ok stored ∧
        stores'.snapshots.rows actor.persistenceId =
          (stores.snapshots.rows actor.persistenceId).save stores.snapshots.keepN
            { persistenceId := actor.persistenceId, sequenceNr := .natural inst.seq,
              state := stored, timestamp := now } := by
  rw [saveSnapshotNow] at h
  generalize hx : (actor.encodeState inst.state >>=
    stores.snapshots.save roundTrip now actor.persistenceId inst.seq) = x at h
  cases x with
  | error e => cases h
  | ok answer =>
    obtain ⟨w, hencode, hsave⟩ := bind_eq_ok hx
    obtain ⟨stored, hstored, hrows⟩ := InMemorySnapshotStore.save_eq_ok hsave
    cases h
    exact ⟨rfl, rfl, w, stored, hencode, hstored, hrows⟩

section

variable (hfaithful : actor.Faithful roundTrip)
include hfaithful

lemma latest_saveSnapshotNow (hle : startOf (actor.latest stores) ≤ inst.seq)
    (h : actor.saveSnapshotNow roundTrip now stores inst = ((stores', inst'), .ok ())) :
    startOf (actor.latest stores') = inst.seq ∧
      (∀ s ∈ actor.latest stores', s.sequenceNr.isNatural = true) ∧
      actor.startState (actor.latest stores') = .ok inst.state := by
  obtain ⟨-, -, w, stored, hencode, hstored, hrows⟩ := saveSnapshotNow_eq_ok h
  have hlatest : actor.latest stores' = some ⟨actor.persistenceId, .natural inst.seq, stored, now⟩ := by
    rw [latest, InMemorySnapshotStore.loadLatest, hrows]
    refine SnapshotRows.latest_save _ fun t ht => ?_
    refine le_trans ?_ hle
    cases hold : actor.latest stores with
    | none => exact absurd ht (SnapshotRows.latest_eq_none_iff.1 hold t)
    | some s => exact (SnapshotRows.latest_eq_some_iff.1 hold).2 t ht
  rw [hlatest]
  refine ⟨rfl, fun s hs => ?_, hfaithful.state _ _ _ hencode hstored⟩
  cases hs
  rfl

lemma Healthy.saveSnapshotNow (h : actor.Healthy stores inst.state inst.seq start payloads)
    (hsave : actor.saveSnapshotNow roundTrip now stores inst = ((stores', inst'), .ok ())) :
    actor.Healthy stores' inst'.state inst'.seq start payloads := by
  obtain ⟨rfl, hjournal, -⟩ := saveSnapshotNow_eq_ok hsave
  obtain ⟨hstart, hnatural, hstate⟩ :=
    latest_saveSnapshotNow hfaithful (h.covered.trans h.seq_eq.ge) hsave
  have hseq := h.seq_eq
  refine ⟨by rw [hjournal]; exact h.holds, hnatural, by omega, by omega, ?_, hseq⟩
  rw [hstate, hstart, drop_eq_nil_of_le (by omega)]
  rfl

lemma Healthy.persistAll (h : actor.Healthy stores inst.state inst.seq start payloads)
    (hpersist : actor.persistAll roundTrip now events stores inst = ((stores', inst'), .ok ())) :
    ∃ payloads', actor.Healthy stores' inst'.state inst'.seq start payloads' := by
  by_cases hne : events = []
  · rw [hne] at hpersist
    cases hpersist
    exact ⟨payloads, h⟩
  obtain ⟨hhead, entries, journal, written, due, next, hentries, happend, hadvance, hleft⟩ :=
    persistAll_eq_ok hne hpersist
  have hlength := (forall₂_of_mapM_eq_ok hentries).length_eq
  have hentriesNe : entries ≠ [] := by
    rintro rfl
    exact hne (length_eq_zero_iff.1 hlength)
  obtain ⟨stored, hstored, hholds⟩ := h.holds.append hentriesNe happend
  obtain ⟨-, rfl, -⟩ := InMemoryJournal.append_eq_ok hentriesNe happend
  obtain ⟨hfold, hseq⟩ := advance_eq_ok hadvance
    (holding_numbered actor.persistenceId now inst.seq entries) (by rw [length_map, hlength])
  have hstoredLength := (forall₂_of_mapM_eq_ok hstored).length_eq
  have hnext : actor.Healthy { stores with journal } next.state next.seq start
      (payloads ++ stored) := by
    refine ⟨hholds, h.natural, h.start_le, ?_, ?_, ?_⟩
    · have := h.covered
      rw [length_append]
      exact this.trans (by omega)
    · have hcovered := h.covered
      have hstate := h.state_eq
      obtain ⟨first, hfirst, hstate⟩ := bind_eq_ok hstate
      refine bind_eq_ok_iff.2 ⟨first, hfirst, ?_⟩
      change foldlM actor.apply first
        ((payloads ++ stored).drop (startOf (actor.latest stores) - start)) = _
      rw [drop_append_of_le_length (by omega), foldlM_append, hstate]
      exact (foldlM_of_decodes (hfaithful.decodes hentries hstored) _).trans hfold
    · rw [hseq, h.seq_eq, length_append]
      omega
  rcases hleft with hleft | hsave
  · cases hleft
    exact ⟨_, hnext⟩
  · exact ⟨_, hnext.saveSnapshotNow hfaithful hsave⟩

lemma Stuck.saveSnapshotNow (h : actor.Stuck stores inst.state inst.seq)
    (hsave : actor.saveSnapshotNow roundTrip now stores inst = ((stores', inst'), .ok ())) :
    actor.Stuck stores' inst'.state inst'.seq := by
  obtain ⟨rfl, hjournal, -⟩ := saveSnapshotNow_eq_ok hsave
  obtain ⟨hstart, hnatural, hstate⟩ := latest_saveSnapshotNow hfaithful h.start_eq.le hsave
  have hhead : actor.head stores' = actor.head stores := by rw [head, hjournal]; rfl
  refine ⟨fun s hs => ⟨hnatural s hs, ?_⟩, hstart, h.positive, hstate, ?_, hhead ▸ h.head_ne⟩
  · have hnumber : s.number = inst'.seq := by
      rw [mem_def.1 hs] at hstart
      exact hstart
    rw [hhead, hnumber]
    cases hold : actor.latest stores with
    | none =>
      have hzero := h.start_eq
      have hpos := h.positive
      rw [hold] at hzero
      exact absurd hzero hpos.ne
    | some s' =>
      have hold' := h.start_eq
      rw [hold] at hold'
      exact hold' ▸ (h.claims s' hold).2
  · have htail := h.tail_eq
    rw [tail, h.start_eq] at htail
    rw [tail, hstart, hjournal, htail]

end

lemma Stuck.persistAll (h : actor.Stuck stores inst.state inst.seq)
    (hpersist : actor.persistAll roundTrip now events stores inst = ((stores', inst'), .ok ())) :
    actor.Stuck stores' inst'.state inst'.seq := by
  by_cases hne : events = []
  · rw [hne] at hpersist
    cases hpersist
    exact h
  · exact absurd (persistAll_eq_ok hne hpersist).1 h.head_ne

end PersistentActor

/-! ## Runs -/

/-- What happens to an entity, one after the other: a new instance is started, or the live one is
called. -/
inductive Call (Event : Type) where
  | recover (isLeaseHolder : Bool)
  | persistAll (now : ℚ) (events : List Event)
  | saveSnapshot (now : ℚ)
  | deleteHistory (toSeq : ℕ)

structure Entity (W State : Type) where
  stores : Stores W := {}
  live : Option (Instance State) := none

namespace Entity

variable (actor : PersistentActor W State Event) (roundTrip : W → Except PersistenceError W)

/-- The outcome of a call of the live instance, with what it leaves. -/
def called (entity : Entity W State) (f : Stores W → Instance State → PersistentActor.Left W State) :
    Entity W State :=
  match entity.live with
  | none => entity
  | some inst => let ((stores, inst), _) := f entity.stores inst; ⟨stores, some inst⟩

def step (entity : Entity W State) : Call Event → Entity W State
  | .recover isLeaseHolder =>
    { entity with live := (actor.recoverFrom entity.stores isLeaseHolder).toOption }
  | .persistAll now events => entity.called (actor.persistAll roundTrip now events)
  | .saveSnapshot now => entity.called (actor.saveSnapshotNow roundTrip now)
  | .deleteHistory toSeq =>
    entity.called fun stores inst => ((actor.deleteHistory toSeq stores, inst), .ok ())

/-- A write of the live instance that goes through. -/
def Completes : Entity W State → Call Event → Prop
  | ⟨stores, some inst⟩, .persistAll now events =>
    (actor.persistAll roundTrip now events stores inst).2 = .ok ()
  | ⟨stores, some inst⟩, .saveSnapshot now =>
    (actor.saveSnapshotNow roundTrip now stores inst).2 = .ok ()
  | _, _ => False

def Holds (entity : Entity W State) : Prop :=
  ∃ start payloads, entity.stores.journal.Holds actor.persistenceId start payloads

variable {actor} {roundTrip}

lemma journal_saveSnapshotNow (now : ℚ) (stores : Stores W) (inst : Instance State) :
    (actor.saveSnapshotNow roundTrip now stores inst).1.1.journal = stores.journal := by
  rw [saveSnapshotNow]
  split <;> rfl

lemma journal_persistAll (now : ℚ) (events : List Event) (stores : Stores W)
    (inst : Instance State) :
    (actor.persistAll roundTrip now events stores inst).1.1.journal = stores.journal ∨
      ∃ entries written, entries ≠ [] ∧
        stores.journal.append roundTrip now actor.persistenceId entries inst.seq =
          .ok ((actor.persistAll roundTrip now events stores inst).1.1.journal, written) := by
  rw [persistAll]
  split_ifs with hnil hlease
  · exact .inl rfl
  · exact .inl rfl
  generalize hx : (events.mapM actor.entryOf >>= fun entries =>
    stores.journal.append roundTrip now actor.persistenceId entries inst.seq) = x
  cases x with
  | error e => cases e <;> exact .inl rfl
  | ok answer =>
    obtain ⟨journal, written⟩ := answer
    obtain ⟨entries, hentries, happend⟩ := bind_eq_ok hx
    have hne : entries ≠ [] := by
      rintro rfl
      have := (forall₂_of_mapM_eq_ok hentries).length_eq
      exact hnil (isEmpty_iff.2 (length_eq_zero_iff.1 this))
    refine .inr ⟨entries, written, hne, ?_⟩
    rw [happend]
    dsimp only
    rcases actor.advance inst false events written with ⟨next, _ | _ | _⟩
    · rfl
    · rfl
    · exact congrArg (fun journal => Except.ok (journal, written))
        (journal_saveSnapshotNow now { stores with journal } next).symm

lemma Holds.step {entity : Entity W State} (h : entity.Holds actor) (call : Call Event) :
    (entity.step actor roundTrip call).Holds actor := by
  obtain ⟨stores, live⟩ := entity
  obtain ⟨start, payloads, hholds⟩ := h
  cases call with
  | recover isLeaseHolder => exact ⟨start, payloads, hholds⟩
  | persistAll now events =>
    cases live with
    | none => exact ⟨start, payloads, hholds⟩
    | some inst =>
      rcases journal_persistAll now events stores inst with hjournal | ⟨entries, _, hne, happend⟩
      · refine ⟨start, payloads, ?_⟩
        change (actor.persistAll roundTrip now events stores inst).1.1.journal.Holds _ _ _
        rwa [hjournal]
      · obtain ⟨stored, -, hholds⟩ := hholds.append hne happend
        exact ⟨start, payloads ++ stored, hholds⟩
  | saveSnapshot now =>
    cases live with
    | none => exact ⟨start, payloads, hholds⟩
    | some inst =>
      refine ⟨start, payloads, ?_⟩
      change (actor.saveSnapshotNow roundTrip now stores inst).1.1.journal.Holds _ _ _
      rwa [journal_saveSnapshotNow]
  | deleteHistory toSeq =>
    cases live with
    | none => exact ⟨start, payloads, hholds⟩
    | some inst =>
      by_cases hzero : toSeq = 0
      · refine ⟨start, payloads, ?_⟩
        change (actor.deleteHistory toSeq stores).journal.Holds _ _ _
        rwa [deleteHistory, if_pos hzero]
      · refine ⟨min (max start toSeq) (start + payloads.length), payloads.drop (toSeq - start), ?_⟩
        change (actor.deleteHistory toSeq stores).journal.Holds _ _ _
        rw [deleteHistory, if_neg hzero]
        exact hholds.delete toSeq

/-- An instance that its own stores lead to. -/
def Kept (actor : PersistentActor W State Event) (entity : Entity W State) : Prop :=
  ∃ inst, entity.live = some inst ∧
    ((∃ start payloads, actor.Healthy entity.stores inst.state inst.seq start payloads) ∨
      actor.Stuck entity.stores inst.state inst.seq)

lemma Kept.step (hfaithful : actor.Faithful roundTrip) {entity : Entity W State}
    {call : Call Event} (hcompletes : entity.Completes actor roundTrip call)
    (h : entity.Kept actor) : (entity.step actor roundTrip call).Kept actor := by
  obtain ⟨stores, live⟩ := entity
  obtain ⟨inst, rfl : live = some inst, hkept⟩ := h
  cases call with
  | recover isLeaseHolder => exact hcompletes.elim
  | deleteHistory toSeq => exact hcompletes.elim
  | persistAll now events =>
    have hleft : actor.persistAll roundTrip now events stores inst = (_, .ok ()) :=
      Prod.ext rfl hcompletes
    refine ⟨(actor.persistAll roundTrip now events stores inst).1.2, rfl, ?_⟩
    rcases hkept with ⟨start, payloads, hhealthy⟩ | hstuck
    · exact .inl ⟨start, hhealthy.persistAll hfaithful hleft⟩
    · exact .inr (hstuck.persistAll hleft)
  | saveSnapshot now =>
    have hleft : actor.saveSnapshotNow roundTrip now stores inst = (_, .ok ()) :=
      Prod.ext rfl hcompletes
    refine ⟨(actor.saveSnapshotNow roundTrip now stores inst).1.2, rfl, ?_⟩
    rcases hkept with ⟨start, payloads, hhealthy⟩ | hstuck
    · exact .inl ⟨start, payloads, hhealthy.saveSnapshotNow hfaithful hleft⟩
    · exact .inr (hstuck.saveSnapshotNow hfaithful hleft)

/-- A recovery would rebuild the live instance. -/
def Rebuilt (actor : PersistentActor W State Event) (entity : Entity W State) : Prop :=
  ∃ inst, entity.live = some inst ∧
    ∀ isLeaseHolder, actor.recoverFrom entity.stores isLeaseHolder =
      .ok { inst with isLeaseHolder }

/-- The stores of an entity after its earlier calls, from empty ones. -/
def storesAfter (actor : PersistentActor W State Event)
    (roundTrip : W → Except PersistenceError W) (keepN : ℕ) (earlier : List (Call Event)) :
    Stores W :=
  (Machine.run (step actor roundTrip) { stores := { snapshots := { keepN } } } earlier).stores

/-- What an instance recovered and wrote since, the next one recovers. -/
theorem recovers_again (actor : PersistentActor W State Event)
    (roundTrip : W → Except PersistenceError W) (hfaithful : actor.Faithful roundTrip) (keepN : ℕ)
    (earlier later : List (Call Event)) (isLeaseHolder : Bool) (inst : Instance State)
    (hrecovered : actor.recoverFrom (storesAfter actor roundTrip keepN earlier) isLeaseHolder =
      .ok inst)
    (hhead : ¬ actor.RememberedHead (storesAfter actor roundTrip keepN earlier))
    (hcompletes : Machine.Along (step actor roundTrip) (Completes actor roundTrip)
      ⟨storesAfter actor roundTrip keepN earlier, some inst⟩ later)
    (hsafe : actor.head (run (step actor roundTrip)
      ⟨storesAfter actor roundTrip keepN earlier, some inst⟩ later).stores ≤ maxSafeInteger) :
    (run (step actor roundTrip)
      ⟨storesAfter actor roundTrip keepN earlier, some inst⟩ later).Rebuilt actor := by
  have hempty : Holds actor ({ stores := { snapshots := { keepN } } } : Entity W State) :=
    ⟨0, [], .nil 0, rfl⟩
  have halong : Machine.Along (step actor roundTrip) (fun _ _ => True)
      ({ stores := { snapshots := { keepN } } } : Entity W State) earlier := along_true
  obtain ⟨start, payloads, hholds⟩ :=
    invariant (I := Holds actor) (fun _ call _ h => Holds.step h call) halong hempty
  obtain ⟨hvalid, hrecovers, -⟩ := PersistentActor.recoverFrom_eq_ok_iff.1 hrecovered
  have hkept : Kept actor ⟨storesAfter actor roundTrip keepN earlier, some inst⟩ :=
    ⟨inst, rfl, (hrecovers.healthy_or_stuck hholds hhead).imp_left fun h => ⟨start, payloads, h⟩⟩
  obtain ⟨inst', hlive, hkept⟩ :=
    invariant (I := Kept actor) (fun _ _ hcompletes h => Kept.step hfaithful hcompletes h)
      hcompletes hkept
  refine ⟨inst', hlive, fun isLeaseHolder => ?_⟩
  refine PersistentActor.recoverFrom_eq_ok_iff.2 ⟨hvalid, ?_, rfl⟩
  rcases hkept with ⟨start, payloads, hhealthy⟩ | hstuck
  · refine hhealthy.recovers ?_
    rw [hhealthy.seq_eq, ← hhealthy.holds.2]
    exact hsafe
  · exact hstuck.recovers

/-- The counter is restarted with a five and adds a seven. -/
theorem recovers_again_counter :
    (run (step counter .ok)
      ⟨storesAfter counter .ok 0 [.recover true, .persistAll 0 [5]], some ⟨5, 1, true⟩⟩
      [.persistAll 0 [7]]).Rebuilt counter :=
  recovers_again counter .ok counter_faithful 0 [.recover true, .persistAll 0 [5]]
    [.persistAll 0 [7]] true ⟨5, 1, true⟩ rfl (fun h => absurd h.1 (cons_ne_nil _ _))
    ⟨rfl, trivial⟩ (by decide)

/-- The only event is compacted away and no snapshot was saved: the counter adds a seven and does
not recover again. -/
theorem not_recovers_again :
    let stores := storesAfter counter .ok 0 [.recover true, .persistAll 0 [5], .deleteHistory 1]
    let entity := run (step counter .ok) ⟨stores, some ⟨0, 1, true⟩⟩ [.persistAll 0 [7]]
    counter.recoverFrom stores true = .ok ⟨0, 1, true⟩ ∧
      Machine.Along (step counter .ok) (Completes counter .ok) ⟨stores, some ⟨0, 1, true⟩⟩
        [.persistAll 0 [7]] ∧
      ¬ entity.Rebuilt counter := by
  refine ⟨rfl, ⟨rfl, trivial⟩, ?_⟩
  rintro ⟨inst, -, h⟩
  cases h true

end Entity

end ActorTs.Persistence
