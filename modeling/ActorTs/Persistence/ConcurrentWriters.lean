import ActorTs.Persistence.ConditionalStores
import ActorTs.Persistence.ReplayTransparency
import ActorTs.Persistence.SequentialRecovery

/-!
# Several instances of one entity

Any number of instances of an actor share a conditional journal and a snapshot shelf. Each store
call is a step of its own, and an append that was given up may land later. What an instance has in
memory is the fold of a beginning of the journal, as long as no append lands between the empty read
of a recovery and its head probe.
-/

open List Nat Outcome

namespace ActorTs.Persistence

open Machine PersistentActor HistoryBounds

variable {W State Event : Type} {roundTrip : W → Except PersistenceError W}

/-- Where an instance stands: in its recovery before one of its calls, in service, or waiting
for an append. A stopped one may be followed by a new one. -/
inductive Process (W State Event : Type) where
  | loading (isLeaseHolder : Bool)
  | trusting (isLeaseHolder : Bool) (snapshot : Snapshot W)
  | reading (isLeaseHolder : Bool) (snapshot : Option (Snapshot W))
  | probing (isLeaseHolder : Bool) (history : ReplayHistory W)
  | live (inst : Instance State)
  | persisting (inst : Instance State) (events : List Event) (entries : List (JournalEntry W))
  | written (inst : Instance State) (events : List Event) (written : List (PersistentEvent W))
  | stopped

inductive Move (Event : Type) where
  | start (isLeaseHolder : Bool)
  | load (i : ℕ) (failure : Option PersistenceError)
  | trust (i : ℕ)
  | read (i : ℕ)
  | probe (i : ℕ)
  | loseLease (i : ℕ)
  | persist (i : ℕ) (events : List Event)
  | append (i : ℕ) (now : ℚ)
  | answer (i : ℕ)
  | giveUp (i : ℕ)
  | landAppend (k : ℕ) (now : ℚ)
  | saveSnapshot (i : ℕ)
  | landSave (k : ℕ) (now : ℚ)
  | stop (i : ℕ)

namespace PersistentActor

variable (actor : PersistentActor W State Event)

/-! ## The phases of a recovery, each after the answer of its call -/

def started (isLeaseHolder : Bool) : Process W State Event :=
  match assertValidPersistenceId actor.persistenceId "PersistentActor" with
  | .error _ => .stopped
  | .ok () => .loading isLeaseHolder

def loaded (isLeaseHolder : Bool) (answer : Except PersistenceError (Option (Snapshot W))) :
    Process W State Event :=
  match loadSnapshotOrNull answer actor.snapshotIsOptional actor.persistenceOptions with
  | .error _ => .stopped
  | .ok none => .reading isLeaseHolder none
  | .ok (some snapshot) =>
    match assertNaturalClaim actor.persistenceId snapshot.sequenceNr with
    | .error _ => .stopped
    | .ok () => .trusting isLeaseHolder snapshot

def trusted (isLeaseHolder : Bool) (snapshot : Snapshot W) (highest : ℕ) :
    Process W State Event :=
  match assertClaimCovered actor.persistenceId snapshot.sequenceNr highest with
  | .error _ => .stopped
  | .ok () => .reading isLeaseHolder (some snapshot)

def folded (isLeaseHolder : Bool) (history : ReplayHistory W) (seq : ℕ) :
    Process W State Event :=
  match actor.foldReplayHistory history with
  | .error _ => .stopped
  | .ok result => .live ⟨result.state, seq, isLeaseHolder⟩

def readBack (isLeaseHolder : Bool) (snapshot : Option (Snapshot W))
    (events : List (PersistentEvent W)) : Process W State Event :=
  match HistoryBounds.assertTrustworthyHistory
      ⟨actor.persistenceId, startOf snapshot, none, false⟩ events with
  | .error _ => .stopped
  | .ok () =>
    let history : ReplayHistory W :=
      ⟨snapshot, events, events.getLast?.elim (startOf snapshot) fun e => e.sequenceNr.value⟩
    if history.sequenceNr ≠ 0 then actor.folded isLeaseHolder history history.sequenceNr
    else .probing isLeaseHolder history

end PersistentActor

/-! ## A recovery that nobody disturbs -/

namespace PersistentActor

/-- The next phase of a recovery from stores that do not change. -/
def proceed (actor : PersistentActor W State Event) (stores : Stores W) :
    Process W State Event → Process W State Event
  | .loading isLeaseHolder => actor.loaded isLeaseHolder (.ok (actor.latest stores))
  | .trusting isLeaseHolder snapshot => actor.trusted isLeaseHolder snapshot (actor.head stores)
  | .reading isLeaseHolder snapshot => actor.readBack isLeaseHolder snapshot
      (stores.journal.read actor.persistenceId (startOf snapshot + 1) none)
  | .probing isLeaseHolder history => actor.folded isLeaseHolder history (actor.head stores)
  | p => p

def settled : Except PersistenceError (Instance State) → Process W State Event
  | .ok inst => .live inst
  | .error _ => .stopped

variable (actor : PersistentActor W State Event)

lemma folded_eq_settled (isLeaseHolder : Bool) (history : ReplayHistory W) (seq : ℕ) :
    actor.folded isLeaseHolder history seq = settled (actor.foldReplayHistory history >>=
      fun result => .ok ⟨result.state, seq, isLeaseHolder⟩) := by
  rw [folded]
  cases actor.foldReplayHistory history <;> rfl

variable (stores : Stores W)

lemma proceed_settled (outcome : Except PersistenceError (Instance State)) :
    actor.proceed stores (settled outcome) = settled outcome := by
  cases outcome <;> rfl

/-- What the journal answers behind a snapshot, as a history. -/
def historyBehind (actor : PersistentActor W State Event) (stores : Stores W)
    (snapshot : Option (Snapshot W)) : ReplayHistory W :=
  let events := stores.journal.read actor.persistenceId (startOf snapshot + 1) none
  ⟨snapshot, events, events.getLast?.elim (startOf snapshot) fun e => e.sequenceNr.value⟩

/-- A recovery whose snapshot is believed. -/
def recoverBehind (actor : PersistentActor W State Event) (stores : Stores W)
    (isLeaseHolder : Bool) (snapshot : Option (Snapshot W)) :
    Except PersistenceError (Instance State) := do
  let history := actor.historyBehind stores snapshot
  HistoryBounds.assertTrustworthyHistory ⟨actor.persistenceId, startOf snapshot, none, false⟩
    history.events
  let result ← actor.foldReplayHistory history
  return ⟨result.state,
    if history.sequenceNr ≠ 0 then history.sequenceNr else actor.head stores, isLeaseHolder⟩

variable (isLeaseHolder : Bool)

lemma proceed_reading (snapshot : Option (Snapshot W)) :
    (actor.proceed stores)^[2] (.reading isLeaseHolder snapshot) =
      settled (actor.recoverBehind stores isLeaseHolder snapshot) := by
  change actor.proceed stores (actor.readBack isLeaseHolder snapshot
    (actor.historyBehind stores snapshot).events) = _
  rw [readBack, recoverBehind]
  cases hcheck : assertTrustworthyHistory ⟨actor.persistenceId, startOf snapshot, none, false⟩
      (actor.historyBehind stores snapshot).events with
  | error e =>
    rfl
  | ok _ =>
    change actor.proceed stores (if (actor.historyBehind stores snapshot).sequenceNr ≠ 0 then
        actor.folded isLeaseHolder (actor.historyBehind stores snapshot) _
      else .probing isLeaseHolder (actor.historyBehind stores snapshot)) =
        settled (actor.foldReplayHistory (actor.historyBehind stores snapshot) >>= fun result =>
          .ok ⟨result.state, if (actor.historyBehind stores snapshot).sequenceNr ≠ 0 then _ else _,
            isLeaseHolder⟩)
    split_ifs with hzero
    · rw [folded_eq_settled, proceed_settled]
      rfl
    · exact folded_eq_settled actor isLeaseHolder _ _

lemma recoverFrom_eq : actor.recoverFrom stores isLeaseHolder =
      assertValidPersistenceId actor.persistenceId "PersistentActor" >>= fun _ =>
        assertTrustworthySnapshot stores.journal.answers actor.persistenceId
          (actor.latest stores) >>= fun _ =>
            actor.recoverBehind stores isLeaseHolder (actor.latest stores) := by
  rw [recoverFrom, recover, loadReplaySnapshot_request]
  refine congrArg _ (funext fun _ => ?_)
  change (actor.readJournalHistory stores.journal.answers stores.snapshots.answers
    (actor.latest stores) >>= fun p => actor.foldReplayHistory p.1 >>= fun result =>
      .ok (Instance.mk result.state p.2 isLeaseHolder)) = _
  rw [readJournalHistory_eq, recoverBehind]
  have hread : readReplayHistory (actor.request stores.journal.answers stores.snapshots.answers)
      (actor.latest stores) =
        assertTrustworthySnapshot stores.journal.answers actor.persistenceId (actor.latest stores) >>=
          fun _ => assertTrustworthyHistory
            ⟨actor.persistenceId, startOf (actor.latest stores), none, false⟩
            (actor.historyBehind stores (actor.latest stores)).events >>= fun _ =>
              .ok (actor.historyBehind stores (actor.latest stores)) := rfl
  rw [hread]
  cases assertTrustworthySnapshot stores.journal.answers actor.persistenceId
      (actor.latest stores) with
  | error e => rfl
  | ok _ =>
    cases assertTrustworthyHistory ⟨actor.persistenceId, startOf (actor.latest stores), none, false⟩
      (actor.historyBehind stores (actor.latest stores)).events <;> rfl

theorem proceed_eq_recoverFrom : (actor.proceed stores)^[4] (actor.started isLeaseHolder) =
      settled (actor.recoverFrom stores isLeaseHolder) := by
  have hloaded : loadSnapshotOrNull (.ok (actor.latest stores)) actor.snapshotIsOptional
      actor.persistenceOptions = .ok (actor.latest stores) := by
    rw [loadSnapshotOrNull]
    split <;> rfl
  rw [recoverFrom_eq, started]
  cases assertValidPersistenceId actor.persistenceId "PersistentActor" with
  | error e => rfl
  | ok _ =>
    change (actor.proceed stores)^[3] (actor.loaded isLeaseHolder (.ok (actor.latest stores))) =
      settled (assertTrustworthySnapshot _ _ (actor.latest stores) >>= fun _ =>
        actor.recoverBehind stores isLeaseHolder (actor.latest stores))
    rw [loaded, hloaded]
    cases actor.latest stores with
    | none =>
      change actor.proceed stores ((actor.proceed stores)^[2] (.reading isLeaseHolder none)) = _
      rw [proceed_reading, proceed_settled]
      rfl
    | some s =>
      rw [assertTrustworthySnapshot]
      dsimp only
      cases assertNaturalClaim actor.persistenceId s.sequenceNr with
      | error e => rfl
      | ok _ =>
        change (actor.proceed stores)^[2]
          (actor.trusted isLeaseHolder s (actor.head stores)) = settled
            (assertClaimCovered actor.persistenceId s.sequenceNr (actor.head stores) >>=
              fun _ => actor.recoverBehind stores isLeaseHolder (some s))
        rw [trusted]
        cases assertClaimCovered actor.persistenceId s.sequenceNr (actor.head stores) with
        | error e => rfl
        | ok _ => exact proceed_reading actor stores isLeaseHolder (some s)

end PersistentActor

/-! ## What a process knows of the journal -/

namespace PersistentActor

/-- The memory of an instance is the fold of a beginning of the journal. -/
def Reflects (actor : PersistentActor W State Event) (payloads : List W) (inst : Instance State) :
    Prop :=
  inst.seq ≤ payloads.length ∧ actor.stateAfter (payloads.take inst.seq) = .ok inst.state

def Fits (actor : PersistentActor W State Event) (payloads : List W) :
    Process W State Event → Prop
  | .loading _ => True
  | .trusting _ snapshot => actor.IsFold payloads snapshot
  | .reading _ snapshot => ∀ s ∈ snapshot, actor.IsFold payloads s
  | .probing _ history => history.events = [] ∧ startOf history.snapshot = 0 ∧
      history.sequenceNr = 0 ∧ ∀ s ∈ history.snapshot, actor.IsFold payloads s
  | .live inst => actor.Reflects payloads inst
  | .persisting inst events entries => actor.Reflects payloads inst ∧ entries ≠ [] ∧
      events.mapM actor.entryOf = .ok entries
  | .written inst events written => actor.Reflects payloads inst ∧
      ∃ later paid, later <+: payloads.drop inst.seq ∧
        List.Forall₂ (fun e w => actor.decodeEvent w = .ok e) events later ∧
        Holding inst.seq paid written ∧ paid.length = events.length
  | .stopped => True

variable {actor : PersistentActor W State Event} {payloads later : List W}
  {inst : Instance State} {p : Process W State Event}
  {answer : Except PersistenceError (Option (Snapshot W))}

lemma isFold_append {s : Snapshot W} (h : actor.IsFold payloads s) :
    actor.IsFold (payloads ++ later) s := by
  obtain ⟨k, hk, hs, hdecode⟩ := h
  refine ⟨k, ?_, hs, ?_⟩
  · rw [length_append]
    omega
  · rw [take_append_of_le_length hk]
    exact hdecode

lemma Reflects.append (h : actor.Reflects payloads inst) :
    actor.Reflects (payloads ++ later) inst := by
  refine ⟨?_, ?_⟩
  · rw [length_append]
    exact h.1.trans (le_add_right _ _)
  · rw [take_append_of_le_length h.1]
    exact h.2

lemma Fits.append (h : actor.Fits payloads p) : actor.Fits (payloads ++ later) p := by
  cases p with
  | loading isLeaseHolder => trivial
  | trusting isLeaseHolder snapshot => exact isFold_append h
  | reading isLeaseHolder snapshot => exact fun s hs => isFold_append (h s hs)
  | probing isLeaseHolder history =>
    exact ⟨h.1, h.2.1, h.2.2.1, fun s hs => isFold_append (h.2.2.2 s hs)⟩
  | live inst => exact Reflects.append h
  | persisting inst events entries => exact ⟨h.1.append, h.2⟩
  | written inst events written =>
    obtain ⟨hreflects, paidFor, paid, hlater₀, hrest⟩ := h
    refine ⟨hreflects.append, paidFor, paid, ?_, hrest⟩
    rw [drop_append_of_le_length hreflects.1]
    exact hlater₀.trans (prefix_append _ _)
  | stopped => trivial

lemma Reflects.next {event : Event} {payload : W} {state : State}
    (h : actor.Reflects payloads inst) (hlater₀ : payload :: later <+: payloads.drop inst.seq)
    (hdecode : actor.decodeEvent payload = .ok event)
    (hfold : actor.fold inst.state event = .ok state) :
    actor.Reflects payloads { inst with state := state, seq := inst.seq + 1 } ∧
      later <+: payloads.drop (inst.seq + 1) := by
  obtain ⟨rest, hrest⟩ := hlater₀
  have hsplit : payloads = payloads.take inst.seq ++ payload :: (later ++ rest) := by
    rw [← cons_append, hrest, take_append_drop]
  have hlength : (payloads.take inst.seq).length = inst.seq := by
    rw [length_take, min_eq_left h.1]
  have htake : payloads.take (inst.seq + 1) = payloads.take inst.seq ++ [payload] := by
    conv_lhs => rw [hsplit]
    rw [List.take_append, List.take_of_length_le (by omega), hlength, Nat.add_sub_cancel_left]
    rfl
  refine ⟨⟨?_, ?_⟩, ?_⟩
  · have := congrArg length hsplit
    rw [length_append, hlength, length_cons] at this
    change inst.seq + 1 ≤ _
    omega
  · change actor.stateAfter (payloads.take (inst.seq + 1)) = _
    rw [htake, EntityHooks.stateAfter_append, h.2]
    change [payload].foldlM actor.apply inst.state = _
    rw [foldlM_cons, apply_of_decodes hdecode, hfold]
    rfl
  · have hdrop : payloads.drop (inst.seq + 1) = (payloads.drop inst.seq).drop 1 := by
      rw [drop_drop]
    rw [hdrop, ← hrest]
    exact prefix_append _ _

lemma Reflects.advance {events : List Event} {written : List (PersistentEvent W)}
    {paid : List W} {due : Bool} (h : actor.Reflects payloads inst)
    (hlater₀ : later <+: payloads.drop inst.seq)
    (hdecodes : List.Forall₂ (fun e w => actor.decodeEvent w = .ok e) events later)
    (hwritten : Holding inst.seq paid written) :
    actor.Reflects payloads (actor.advance inst due events written).1 := by
  induction hdecodes generalizing inst written paid due with
  | nil => exact h
  | @cons event payload events later hdecode _ ih =>
    cases hwritten with
    | nil => exact h
    | @cons _ paid pe written hseq hwritten =>
      rw [advance]
      cases hfold : actor.fold inst.state event with
      | error e => exact h
      | ok state =>
        obtain ⟨hnext, hlater⟩ := h.next hlater₀ hdecode hfold
        rw [hseq, SequenceNr.value_natural]
        exact ih hnext hlater hwritten

lemma eq_of_loadSnapshotOrNull {snapshotIsOptional : Bool}
    {persistenceOptions : Option PersistenceOptions} {s : Snapshot W}
    (h : loadSnapshotOrNull answer snapshotIsOptional persistenceOptions = .ok (some s)) :
    answer = .ok (some s) := by
  simp only [loadSnapshotOrNull] at h
  split at h
  · cases answer with
    | ok snapshot => exact h
    | error e => cases e <;> cases h
  · exact h

variable {isLeaseHolder : Bool}

lemma fits_loaded (h : ∀ s, answer = .ok (some s) → actor.IsFold payloads s) :
    actor.Fits payloads (actor.loaded isLeaseHolder answer) := by
  rw [loaded]
  cases hload : loadSnapshotOrNull answer actor.snapshotIsOptional actor.persistenceOptions with
  | error e => trivial
  | ok snapshot =>
    cases snapshot with
    | none => exact fun s hs => by cases hs
    | some s =>
      dsimp only
      split
      · trivial
      · refine h s ?_
        exact eq_of_loadSnapshotOrNull hload

lemma fits_trusted {s : Snapshot W} (h : actor.IsFold payloads s) (highest : ℕ) :
    actor.Fits payloads (actor.trusted isLeaseHolder s highest) := by
  rw [trusted]
  split
  · trivial
  · rintro _ ⟨⟩
    exact h

lemma fits_folded {history : ReplayHistory W}
    (hsnapshot : ∀ s ∈ history.snapshot, actor.IsFold payloads s)
    (hholding : Holding (startOf history.snapshot)
      ((payloads.take history.sequenceNr).drop (startOf history.snapshot)) history.events)
    (hle : startOf history.snapshot ≤ history.sequenceNr)
    (hlength : history.sequenceNr ≤ payloads.length) :
    actor.Fits payloads (actor.folded isLeaseHolder history history.sequenceNr) := by
  rw [folded, EntityHooks.foldReplayHistory_eq hsnapshot hholding hle]
  cases hstate : actor.stateAfter (payloads.take history.sequenceNr) with
  | error e => trivial
  | ok state => exact ⟨hlength, hstate⟩

lemma startOf_le {snapshot : Option (Snapshot W)}
    (h : ∀ s ∈ snapshot, actor.IsFold payloads s) : startOf snapshot ≤ payloads.length := by
  cases snapshot with
  | none => exact zero_le _
  | some s =>
    obtain ⟨k, hk, hs, -⟩ := h s rfl
    rwa [startOf, Option.elim_some, Snapshot.number, hs, SequenceNr.value_natural]

lemma fits_readBack {snapshot : Option (Snapshot W)} {events : List (PersistentEvent W)}
    (hsnapshot : ∀ s ∈ snapshot, actor.IsFold payloads s)
    (hholding : Holding (startOf snapshot) (payloads.drop (startOf snapshot)) events) :
    actor.Fits payloads (actor.readBack isLeaseHolder snapshot events) := by
  have hle := startOf_le hsnapshot
  have hlast := hholding.last_number
  rw [List.length_drop, Nat.add_sub_cancel' hle] at hlast
  rw [readBack]
  split
  · trivial
  dsimp only
  rw [hlast]
  split_ifs with hzero
  · have hholding' : Holding (startOf snapshot)
        ((payloads.take payloads.length).drop (startOf snapshot)) events := by
      rwa [List.take_length]
    have hfits : actor.Fits payloads (actor.folded isLeaseHolder
        ⟨snapshot, events, payloads.length⟩ payloads.length) :=
      fits_folded hsnapshot hholding' hle le_rfl
    exact hfits
  · rw [not_not] at hzero
    have hstart : startOf snapshot = 0 := by omega
    refine ⟨?_, hstart, hzero, hsnapshot⟩
    rw [List.length_eq_zero_iff.1 hzero, List.drop_nil] at hholding
    exact List.map_eq_nil_iff.1 hholding.map_event

end PersistentActor

/-- The stores with their instances, and the writes under way whose callers no longer wait. -/
structure World (J : ConditionalJournal W roundTrip) (S : SnapshotShelf W roundTrip)
    (State Event : Type) where
  journal : J.Carrier
  snapshots : S.Carrier
  processes : List (Process W State Event) := []
  appends : List (List (JournalEntry W) × ℕ) := []
  saves : List (ℕ × W) := []

namespace World

variable {J : ConditionalJournal W roundTrip} {S : SnapshotShelf W roundTrip}
  (actor : PersistentActor W State Event)

def put (w : World J S State Event) (i : ℕ) (p : Process W State Event) : World J S State Event :=
  { w with processes := w.processes.set i p }

/-- A snapshot of what an instance has in memory now is on its way to the store. -/
def requestSave (w : World J S State Event) (inst : Instance State) : World J S State Event :=
  match actor.encodeState inst.state with
  | .error _ => w
  | .ok payload => { w with saves := w.saves ++ [(inst.seq, payload)] }

def step (w : World J S State Event) : Move Event → World J S State Event
  | .start isLeaseHolder => { w with processes := w.processes ++ [actor.started isLeaseHolder] }
  | .load i failure =>
    match w.processes[i]? with
    | some (.loading isLeaseHolder) =>
      w.put i (actor.loaded isLeaseHolder (match failure with
        | none => .ok (S.loadLatest w.snapshots)
        | some e => .error e))
    | _ => w
  | .trust i =>
    match w.processes[i]? with
    | some (.trusting isLeaseHolder snapshot) =>
      w.put i (actor.trusted isLeaseHolder snapshot (J.highestSeq w.journal))
    | _ => w
  | .read i =>
    match w.processes[i]? with
    | some (.reading isLeaseHolder snapshot) =>
      w.put i (actor.readBack isLeaseHolder snapshot
        (J.read w.journal (startOf snapshot + 1)))
    | _ => w
  | .probe i =>
    match w.processes[i]? with
    | some (.probing isLeaseHolder history) =>
      w.put i (actor.folded isLeaseHolder history (J.highestSeq w.journal))
    | _ => w
  | .loseLease i =>
    match w.processes[i]? with
    | some (.live inst) => w.put i (.live { inst with isLeaseHolder := false })
    | _ => w
  | .persist i events =>
    match w.processes[i]? with
    | some (.live inst) =>
      if events.isEmpty || actor.lease && !inst.isLeaseHolder then w
      else match events.mapM actor.entryOf with
        | .error _ => w
        | .ok entries => w.put i (.persisting inst events entries)
    | _ => w
  | .append i now =>
    match w.processes[i]? with
    | some (.persisting inst events entries) =>
      match J.append now w.journal entries inst.seq with
      | .ok (journal, written) => { w.put i (.written inst events written) with journal }
      -- A second writer was detected: the instance stops itself.
      | .error (.concurrency _ _ _) => w.put i .stopped
      | .error _ => w.put i (.live inst)
    | _ => w
  | .answer i =>
    match w.processes[i]? with
    | some (.written inst events written) =>
      match actor.advance inst false events written with
      | (inst, .ok true) => (w.put i (.live inst)).requestSave actor inst
      | (inst, _) => w.put i (.live inst)
    | _ => w
  | .giveUp i =>
    match w.processes[i]? with
    | some (.persisting inst _ entries) =>
      { w.put i (.live inst) with appends := w.appends ++ [(entries, inst.seq)] }
    | some (.written inst _ _) => w.put i (.live inst)
    | _ => w
  | .landAppend k now =>
    match w.appends[k]? with
    | some (entries, expectedSeq) =>
      match J.append now w.journal entries expectedSeq with
      | .ok (journal, _) => { w with journal, appends := w.appends.eraseIdx k }
      | .error _ => { w with appends := w.appends.eraseIdx k }
    | none => w
  | .saveSnapshot i =>
    match w.processes[i]? with
    | some (.live inst) => w.requestSave actor inst
    | _ => w
  | .landSave k now =>
    match w.saves[k]? with
    | some (seq, payload) =>
      match S.save now w.snapshots seq payload with
      | .ok snapshots => { w with snapshots, saves := w.saves.eraseIdx k }
      | .error _ => { w with saves := w.saves.eraseIdx k }
    | none => w
  | .stop i => w.put i .stopped

/-! ## Every step -/

/-- The payloads that the journal holds. -/
def payloads (w : World J S State Event) : List W := J.payloads w.journal

/-- No append lands between the empty read of a recovery and its head probe. -/
def Untorn (w : World J S State Event) : Move Event → Prop
  | .probe i => ∀ isLeaseHolder history,
      w.processes[i]? = some (.probing isLeaseHolder history) → J.highestSeq w.journal = 0
  | _ => True

structure Sound (w : World J S State Event) : Prop where
  processes : ∀ p ∈ w.processes, actor.Fits w.payloads p
  appends : ∀ q ∈ w.appends, q.1 ≠ []
  saves : ∀ q ∈ w.saves, q.1 ≤ w.payloads.length ∧ ∀ stored, roundTrip q.2 = .ok stored →
    actor.decodeState stored = actor.stateAfter (w.payloads.take q.1)
  stored : ∀ s ∈ S.stored w.snapshots, actor.IsFold w.payloads s

variable {actor} {w : World J S State Event} {journal : J.Carrier}

lemma Sound.fits (h : w.Sound actor) {i : ℕ} {p : Process W State Event}
    (hp : w.processes[i]? = some p) : actor.Fits w.payloads p :=
  h.processes p (mem_of_getElem? hp)

lemma Sound.put (h : w.Sound actor) (i : ℕ) (p : Process W State Event)
    (hp : actor.Fits w.payloads p) : (w.put i p).Sound actor where
  processes q hq := (mem_or_eq_of_mem_set hq).elim (h.processes q) fun hq => hq ▸ hp
  appends := h.appends
  saves := h.saves
  stored := h.stored

lemma Sound.grow (h : w.Sound actor) {later : List W}
    (hgrow : J.payloads journal = w.payloads ++ later) :
    ({ w with journal } : World J S State Event).Sound actor where
  processes p hp := by
    change actor.Fits (J.payloads journal) p
    rw [hgrow]
    exact (h.processes p hp).append
  appends := h.appends
  saves q hq := by
    obtain ⟨hle, hdecode⟩ := h.saves q hq
    change q.1 ≤ (J.payloads journal).length ∧ ∀ stored, roundTrip q.2 = .ok stored →
      actor.decodeState stored = actor.stateAfter ((J.payloads journal).take q.1)
    rw [hgrow, take_append_of_le_length hle, length_append]
    exact ⟨hle.trans (le_add_right _ _), hdecode⟩
  stored s hs := by
    change actor.IsFold (J.payloads journal) s
    rw [hgrow]
    exact isFold_append (h.stored s hs)

lemma Sound.requestSave (hfaithful : actor.Faithful roundTrip) (h : w.Sound actor)
    {inst : Instance State} (hinst : actor.Reflects w.payloads inst) :
    (w.requestSave actor inst).Sound actor := by
  rw [World.requestSave]
  cases hencode : actor.encodeState inst.state with
  | error e => exact h
  | ok payload =>
    refine ⟨h.processes, h.appends, fun q hq => ?_, h.stored⟩
    rcases mem_append.1 hq with hq | hq
    · exact h.saves q hq
    · rw [mem_singleton.1 hq]
      refine ⟨hinst.1, fun stored hstored => ?_⟩
      exact (hfaithful.state _ _ _ hencode hstored).trans hinst.2.symm

lemma append_grows {now : ℚ} {entries : List (JournalEntry W)} {expectedSeq : ℕ}
    {written : List (PersistentEvent W)} (hne : entries ≠ [])
    (h : J.append now w.journal entries expectedSeq = .ok (journal, written)) :
    expectedSeq = w.payloads.length ∧
      Holding expectedSeq (entries.map JournalEntry.event) written ∧
      ∃ stored, (entries.mapM fun entry => roundTrip entry.event) = .ok stored ∧
        J.payloads journal = w.payloads ++ stored :=
  J.append_ok hne h

lemma Sound.append (hfaithful : actor.Faithful roundTrip) (h : w.Sound actor) (i : ℕ) (now : ℚ) :
    (w.step actor (.append i now)).Sound actor := by
  rw [step]
  split
  · rename_i inst events entries hp
    obtain ⟨hinst, hne, hentries⟩ := h.fits hp
    cases happend : J.append now w.journal entries inst.seq with
    | error e =>
      cases e with
      | concurrency persistenceId expectedSeq actualSeq => exact h.put i .stopped trivial
      | snapshotIntegrity => exact h.put i (.live inst) hinst
      | journalIntegrity => exact h.put i (.live inst) hinst
      | error => exact h.put i (.live inst) hinst
    | ok answer =>
      obtain ⟨journal, written⟩ := answer
      obtain ⟨hhead, hwritten, stored, hstored, hgrow⟩ := append_grows hne happend
      have hlength := (forall₂_of_mapM_eq_ok hentries).length_eq
      refine (h.grow hgrow).put i (.written inst events written) ⟨?_, stored, _, ?_,
        hfaithful.decodes hentries hstored, hwritten, by rw [length_map, hlength]⟩
      · change actor.Reflects (J.payloads journal) inst
        rw [hgrow]
        exact hinst.append
      · change stored <+: (J.payloads journal).drop inst.seq
        rw [hgrow, hhead, drop_left]
  · exact h

lemma Sound.step (hfaithful : actor.Faithful roundTrip) (h : w.Sound actor)
    {move : Move Event} (hmove : w.Untorn move) : (w.step actor move).Sound actor := by
  cases move with
  | start isLeaseHolder =>
    refine ⟨fun p hp => ?_, h.appends, h.saves, h.stored⟩
    rcases mem_append.1 hp with hp | hp
    · exact h.processes p hp
    · rw [mem_singleton.1 hp, started]
      split <;> trivial
  | load i failure =>
    simp only [World.step]
    split
    · refine h.put i _ (fits_loaded fun s hs => ?_)
      cases failure with
      | none => exact h.stored s (S.loadLatest_mem (Except.ok.inj hs))
      | some e => cases hs
    · exact h
  | trust i =>
    rw [World.step]
    split
    · rename_i hp
      exact h.put i _ (fits_trusted (h.fits hp) _)
    · exact h
  | read i =>
    rw [World.step]
    split
    · rename_i snapshot hp
      have hsnapshot := h.fits hp
      exact h.put i _ (fits_readBack hsnapshot (J.read_holding _ _ (startOf_le hsnapshot)))
    · exact h
  | probe i =>
    rw [World.step]
    split
    · rename_i isLeaseHolder history hp
      obtain ⟨hevents, hstart, hseq, hsnapshot⟩ := h.fits hp
      rw [hmove isLeaseHolder history hp, ← hseq]
      refine h.put i _ (fits_folded hsnapshot ?_ ?_ ?_)
      · rw [hevents, hstart, hseq]
        exact .nil 0
      · rw [hstart]
        exact zero_le _
      · rw [hseq]
        exact zero_le _
    · exact h
  | loseLease i =>
    rw [World.step]
    split
    · rename_i inst hp
      have hinst : actor.Reflects w.payloads inst := h.fits hp
      exact h.put i (.live { inst with isLeaseHolder := false }) hinst
    · exact h
  | persist i events =>
    rw [World.step]
    split
    · rename_i inst hp
      split_ifs with hrefused
      · exact h
      · split
        · exact h
        · rename_i entries hentries
          refine h.put i (.persisting inst events entries) ⟨h.fits hp, ?_, hentries⟩
          rintro rfl
          have := (forall₂_of_mapM_eq_ok hentries).length_eq
          exact hrefused (by rw [length_eq_zero_iff.1 this]; rfl)
    · exact h
  | append i now => exact h.append hfaithful i now
  | answer i =>
    rw [World.step]
    split
    · rename_i inst events written hp
      obtain ⟨hinst, later, paid, hlater₀, hdecodes, hwritten, -⟩ := h.fits hp
      have hadvance : actor.Reflects _ (actor.advance inst false events written).1 :=
        hinst.advance hlater₀ hdecodes hwritten
      split
      · rename_i inst' heq
        rw [heq] at hadvance
        exact (h.put i (.live inst') hadvance).requestSave hfaithful hadvance
      · rename_i inst' _ _ heq
        rw [heq] at hadvance
        exact h.put i (.live inst') hadvance
    · exact h
  | giveUp i =>
    rw [World.step]
    split
    · rename_i inst events entries hp
      obtain ⟨hinst, hne, -⟩ := h.fits hp
      have hput := h.put i (.live inst) hinst
      refine ⟨hput.processes, fun q hq => ?_, hput.saves, hput.stored⟩
      rcases mem_append.1 hq with hq | hq
      · exact h.appends q hq
      · rw [mem_singleton.1 hq]
        exact hne
    · rename_i inst _ _ hp
      exact h.put i (.live inst) (h.fits hp).1
    · exact h
  | landAppend k now =>
    rw [World.step]
    split
    · rename_i entries expectedSeq hq
      have hne := h.appends _ (mem_of_getElem? hq)
      have herase : ∀ q ∈ w.appends.eraseIdx k, q.1 ≠ [] :=
        fun q hq => h.appends q (mem_of_mem_eraseIdx hq)
      split
      · rename_i journal written happend
        obtain ⟨-, -, stored, -, hgrow⟩ := append_grows hne happend
        have hgrown := h.grow hgrow
        exact ⟨hgrown.processes, herase, hgrown.saves, hgrown.stored⟩
      · exact ⟨h.processes, herase, h.saves, h.stored⟩
    · exact h
  | saveSnapshot i =>
    rw [World.step]
    split
    · rename_i hp
      exact h.requestSave hfaithful (h.fits hp)
    · exact h
  | landSave k now =>
    rw [World.step]
    split
    · rename_i seq payload hq
      obtain ⟨hle, hdecode⟩ := h.saves _ (mem_of_getElem? hq)
      have herase := fun q (hq : q ∈ w.saves.eraseIdx k) =>
        h.saves q (mem_of_mem_eraseIdx hq)
      split
      · rename_i snapshots hsave
        obtain ⟨stored, hstored, hmem⟩ := S.save_ok hsave
        refine ⟨h.processes, h.appends, herase, fun s hs => ?_⟩
        rcases hmem s hs with hs | ⟨hnumber, hstate⟩
        · exact h.stored s hs
        · exact ⟨seq, hle, hnumber, hstate ▸ hdecode stored hstored⟩
      · exact ⟨h.processes, h.appends, herase, h.stored⟩
    · exact h
  | stop i => exact h.put i .stopped trivial

end World

/-- What an instance that has recovered has in memory. -/
def Process.memory : Process W State Event → Option (Instance State)
  | .live inst => some inst
  | .persisting inst _ _ => some inst
  | .written inst _ _ => some inst
  | _ => none

namespace World

variable {J : ConditionalJournal W roundTrip} {S : SnapshotShelf W roundTrip}

/-- Every recovered instance has the fold of a beginning of the journal in memory, and every
stored snapshot is the fold at its number. -/
structure Remembers (actor : PersistentActor W State Event) (w : World J S State Event) : Prop where
  memory : ∀ p ∈ w.processes, ∀ inst ∈ p.memory, actor.Reflects w.payloads inst
  stored : ∀ s ∈ S.stored w.snapshots, actor.IsFold w.payloads s

lemma Sound.remembers {actor : PersistentActor W State Event} {w : World J S State Event}
    (h : w.Sound actor) : w.Remembers actor where
  memory p hp inst hinst := by
    have hfits := h.processes p hp
    cases p with
    | live _ => cases hinst; exact hfits
    | persisting _ _ _ => cases hinst; exact hfits.1
    | written _ _ _ => cases hinst; exact hfits.1
    | _ => cases hinst
  stored := h.stored

/-- Along a run in which every head probe finds the journal as empty as the read before it did,
the memory of the instances is the fold of the journal. -/
theorem memory_is_fold (actor : PersistentActor W State Event) (hfaithful : actor.Faithful roundTrip)
    (journal : J.Carrier) (snapshots : S.Carrier)
    (hstored : ∀ s ∈ S.stored snapshots, actor.IsFold (J.payloads journal) s)
    (moves : List (Move Event))
    (huntorn : Machine.Along (step actor) Untorn
      ({ journal, snapshots } : World J S State Event) moves) :
    (run (step actor) ({ journal, snapshots } : World J S State Event) moves).Remembers
      actor := by
  have hsound : ({ journal, snapshots } : World J S State Event).Sound actor :=
    ⟨fun _ hp => absurd hp not_mem_nil, fun _ hq => absurd hq not_mem_nil,
      fun _ hq => absurd hq not_mem_nil, hstored⟩
  exact (invariant (I := Sound actor)
    (fun _ _ hmove h => h.step hfaithful hmove) huntorn hsound).remembers

/-- Two counters over the stores in memory, with nothing stored yet. -/
def newCounters : World (InMemoryJournal.conditional (W := ℕ) .ok "a")
    (InMemorySnapshotStore.shelf (W := ℕ) .ok "a") ℕ ℕ where
  journal := ⟨{}, [], .nil 0, rfl⟩
  snapshots := {}

/-- One counter recovers and adds a five. -/
theorem memory_is_fold_counter : (run (step counter) newCounters
      [.start true, .load 0 none, .read 0, .probe 0, .persist 0 [5], .append 0 0, .answer 0,
        .saveSnapshot 0, .landSave 0 0]).Remembers counter :=
  memory_is_fold counter counter_faithful newCounters.journal newCounters.snapshots
    (fun _ hs => absurd hs not_mem_nil)
    [.start true, .load 0 none, .read 0, .probe 0, .persist 0 [5], .append 0 0, .answer 0,
      .saveSnapshot 0, .landSave 0 0]
    ⟨trivial, trivial, trivial, fun _ _ _ => rfl, trivial, trivial, trivial, trivial, trivial,
      trivial⟩

/-- The second counter has read nothing when the five of the first one lands, and takes the head
for its own number: it counts from zero at the number one. -/
theorem not_memory_is_fold : ¬ (run (step counter) newCounters
      [.start true, .load 0 none, .read 0, .probe 0, .start true, .load 1 none, .read 1,
        .persist 0 [5], .append 0 0, .answer 0, .probe 1]).Remembers counter := by
  intro h
  have hstate := (h.memory (.live ⟨0, 1, true⟩) (.tail _ (.head _)) ⟨0, 1, true⟩ rfl).2
  exact absurd (Except.ok.inj hstate) (by decide)

end World

end ActorTs.Persistence
