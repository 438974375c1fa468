import ActorTs.Library.OrderedMap
import ActorTs.Library.Outcome
import ActorTs.Persistence.JournalTypes

/-!
# The journal in memory

One list of events for each persistence id, and beside it the highest number ever given
out, which a deletion leaves as it is. What a stream holds is said by `Holding`: payloads
in order, numbered without a gap from the number they start behind. Each operation of the
journal takes such a stream to such a stream.
-/

open List Option OrderedMap Nat Outcome

namespace ActorTs.Persistence

variable {W : Type}

/-- The entries of one append, numbered behind `seq`. -/
def numbered (persistenceId : JsString) (now : ℚ) : ℕ → List (JournalEntry W) →
    List (PersistentEvent W)
  | _, [] => []
  | seq, entry :: entries =>
    { persistenceId, sequenceNr := .natural (seq + 1), event := entry.event, timestamp := now,
      tags := entry.tags } :: numbered persistenceId now (seq + 1) entries

/-- The stored copies: the same events with the payloads that come back from the codec. -/
def withPayloads (appended : List (PersistentEvent W)) (payloads : List W) :
    List (PersistentEvent W) :=
  appended.zipWith (fun pe payload => { pe with event := payload }) payloads

structure InMemoryJournal (W : Type) where
  streams : OrderedMap JsString (List (PersistentEvent W)) := .empty
  highWater : OrderedMap JsString ℕ := .empty

namespace InMemoryJournal

def highestSeq (journal : InMemoryJournal W) (persistenceId : JsString) : ℕ :=
  (journal.highWater.get? persistenceId).getD 0

def stream (journal : InMemoryJournal W) (persistenceId : JsString) : List (PersistentEvent W) :=
  (journal.streams.get? persistenceId).getD []

/-- `roundTrip` is what a payload is read back as, where it can be stored at all. The events
that are returned carry the caller's own payloads. -/
def append (roundTrip : W → Except PersistenceError W) (now : ℚ) (journal : InMemoryJournal W)
    (persistenceId : JsString) (entries : List (JournalEntry W)) (expectedSeq : ℕ) :
    Except PersistenceError (InMemoryJournal W × List (PersistentEvent W)) := do
  assertValidPersistenceId persistenceId "InMemoryJournal.append"
  assertValidEntryTags entries
  if entries.isEmpty then return (journal, [])
  let actualSeq := journal.highestSeq persistenceId
  if actualSeq ≠ expectedSeq then throw (.concurrency persistenceId expectedSeq actualSeq)
  let roundTripped ← entries.mapM fun entry => roundTrip entry.event
  let appended := numbered persistenceId now actualSeq entries
  return ({ streams := journal.streams.set persistenceId
              (journal.stream persistenceId ++ withPayloads appended roundTripped)
            highWater := journal.highWater.set persistenceId (actualSeq + entries.length) },
    appended)

def read (journal : InMemoryJournal W) (persistenceId : JsString) (fromSeq : ℕ)
    (toSeq : Option ℕ) : List (PersistentEvent W) :=
  let last := toSeq.getD (journal.highestSeq persistenceId)
  (journal.stream persistenceId).filter fun e =>
    fromSeq ≤ e.sequenceNr.value ∧ e.sequenceNr.value ≤ last

def delete (journal : InMemoryJournal W) (persistenceId : JsString) (toSeq : ℕ) :
    InMemoryJournal W :=
  match journal.streams.get? persistenceId with
  | none => journal
  | some stream =>
    { journal with
      streams := journal.streams.set persistenceId
        (stream.filter fun e => toSeq < e.sequenceNr.value) }

/-- The mark never goes down, and the id is known from here on. -/
def raiseCompactionMark (journal : InMemoryJournal W) (persistenceId : JsString)
    (throughSeq : ℕ) : InMemoryJournal W where
  streams :=
    if journal.streams.has persistenceId then journal.streams
    else journal.streams.set persistenceId []
  highWater :=
    if journal.highestSeq persistenceId < throughSeq then
      journal.highWater.set persistenceId throughSeq
    else journal.highWater

end InMemoryJournal

/-- The events are the payloads in order, numbered from `start + 1` on. -/
inductive Holding : ℕ → List W → List (PersistentEvent W) → Prop
  | nil (start : ℕ) : Holding start [] []
  | cons {start : ℕ} {payloads : List W} {e : PersistentEvent W} {events : List (PersistentEvent W)}
      (hseq : e.sequenceNr = .natural (start + 1)) (h : Holding (start + 1) payloads events) :
      Holding start (e.event :: payloads) (e :: events)

namespace Holding

variable {start : ℕ} {payloads later : List W} {events added : List (PersistentEvent W)}

variable {e : PersistentEvent W}

section

variable (h : Holding start payloads events)
include h

lemma bounds (he : e ∈ events) :
    start < e.sequenceNr.value ∧ e.sequenceNr.value ≤ start + payloads.length := by
  induction h with
  | nil => cases he
  | cons hseq _ ih =>
    rw [length_cons]
    rcases mem_cons.1 he with rfl | he
    · rw [hseq, SequenceNr.value_natural]
      omega
    · have := ih he
      omega

lemma numbered (he : e ∈ events) : ∃ n, e.sequenceNr = .natural (n + 1) := by
  induction h with
  | nil => cases he
  | @cons start _ _ _ hseq _ ih =>
    rcases mem_cons.1 he with rfl | he
    · exact ⟨start, hseq⟩
    · exact ih he

lemma map_event : events.map PersistentEvent.event = payloads := by
  induction h with
  | nil => rfl
  | cons _ _ ih => rw [map_cons, ih]

lemma length_eq : events.length = payloads.length := by
  rw [← h.map_event, length_map]

end

lemma of_cons (h : Holding start payloads (e :: events)) :
    e.sequenceNr = .natural (start + 1) ∧
      ∃ rest, payloads = e.event :: rest ∧ Holding (start + 1) rest events := by
  cases h with
  | cons hseq h => exact ⟨hseq, _, rfl, h⟩

lemma start_eq {start' : ℕ} {payloads' : List W} (h : Holding start payloads events)
    (h' : Holding start' payloads' events) (hne : payloads ≠ []) : start = start' := by
  cases h with
  | nil => exact absurd rfl hne
  | cons hseq _ =>
    cases h' with
    | cons hseq' _ =>
      rw [hseq] at hseq'
      exact succ.inj (SequenceNr.natural.inj hseq')

lemma last_number (h : Holding start payloads events) :
    (events.getLast?.elim start fun e => e.sequenceNr.value) = start + payloads.length := by
  induction h with
  | nil => rfl
  | @cons start payloads e events hseq _ ih =>
    rw [getLast?_cons, elim_some, length_cons, add_comm payloads.length, ← add_assoc, ← ih]
    cases events.getLast? with
    | none => rw [getD_none, elim_none, hseq, SequenceNr.value_natural]
    | some e' => rfl

lemma append (h : Holding start payloads events)
    (hadded : Holding (start + payloads.length) later added) :
    Holding start (payloads ++ later) (events ++ added) := by
  induction h with
  | nil => exact hadded
  | @cons start payloads e events hseq _ ih =>
    have hstart : start + 1 + payloads.length = start + (e.event :: payloads).length := by
      rw [length_cons]
      omega
    exact .cons hseq (ih (hstart ▸ hadded))

lemma of_prefix {first : List (PersistentEvent W)}
    (h : Holding start (events.map PersistentEvent.event) events) (hfirst : first <+: events) :
    Holding start (first.map PersistentEvent.event) first := by
  induction first generalizing start events with
  | nil => exact .nil start
  | cons e first ih =>
    cases events with
    | nil => exact absurd (prefix_nil.1 hfirst) (cons_ne_nil _ _)
    | cons e' events =>
      obtain ⟨rfl, hlater⟩ := cons_prefix_cons.1 hfirst
      obtain ⟨hseq, rest, hrest, h⟩ := h.of_cons
      rw [map_cons, cons.injEq] at hrest
      exact .cons hseq (ih (hrest.2 ▸ h) hlater)

lemma filter_eq_drop (h : Holding start payloads events) (k : ℕ) :
    (events.filter fun e => k < e.sequenceNr.value) = events.drop (k - start) := by
  induction h with
  | nil => rw [filter_nil, drop_nil]
  | @cons start payloads e events hseq h ih =>
    by_cases hk : k ≤ start
    · rw [Nat.sub_eq_zero_of_le hk, List.drop_zero]
      refine filter_eq_self.2 fun e' he' => decide_eq_true ?_
      have := (cons hseq h).bounds he'
      omega
    · have hskip : ¬ k < e.sequenceNr.value := by
        rw [hseq, SequenceNr.value_natural]
        omega
      rw [filter_cons_of_neg (by simpa using hskip), ih,
        show k - start = k - (start + 1) + 1 by omega, drop_succ_cons]

lemma drop (h : Holding start payloads events) (k : ℕ) :
    Holding (max start k) (payloads.drop (k - start))
      (events.filter fun e => k < e.sequenceNr.value) := by
  induction h with
  | nil => simpa using nil _
  | @cons start payloads e events hseq h ih =>
    by_cases hk : k ≤ start
    · have hall : (e :: events).filter (fun e => k < e.sequenceNr.value) = e :: events := by
        refine filter_eq_self.2 fun e' he' => decide_eq_true ?_
        have := (cons hseq h).bounds he'
        omega
      rw [hall, max_eq_left hk, Nat.sub_eq_zero_of_le hk, List.drop_zero]
      exact cons hseq h
    · have hskip : ¬ k < e.sequenceNr.value := by
        rw [hseq, SequenceNr.value_natural]
        omega
      rw [filter_cons_of_neg (by simpa using hskip)]
      have hmax : max (start + 1) k = max start k := by omega
      have hsub : k - start = k - (start + 1) + 1 := by omega
      rw [hmax] at ih
      rwa [hsub, drop_succ_cons]

lemma take (h : Holding start payloads events) (k : ℕ) :
    Holding start (payloads.take (k - start)) (events.filter fun e => e.sequenceNr.value ≤ k) := by
  induction h with
  | nil => simpa using nil _
  | @cons start payloads e events hseq h ih =>
    by_cases hk : k ≤ start
    · have hnone : (e :: events).filter (fun e => e.sequenceNr.value ≤ k) = [] := by
        refine filter_eq_nil_iff.2 fun e' he' => ?_
        have := (cons hseq h).bounds he'
        simp only [decide_eq_true_eq]
        omega
      rw [hnone, Nat.sub_eq_zero_of_le hk, List.take_zero]
      exact nil start
    · have hkeep : e.sequenceNr.value ≤ k := by
        rw [hseq, SequenceNr.value_natural]
        omega
      rw [filter_cons_of_pos (by simpa using hkeep),
        show k - start = k - (start + 1) + 1 by omega, take_succ_cons]
      exact cons hseq ih

end Holding

lemma holding_numbered (persistenceId : JsString) (now : ℚ) (seq : ℕ)
    (entries : List (JournalEntry W)) :
    Holding seq (entries.map JournalEntry.event) (numbered persistenceId now seq entries) := by
  induction entries generalizing seq with
  | nil => exact .nil seq
  | cons entry entries ih =>
    exact .cons (e := ⟨persistenceId, .natural (seq + 1), entry.event, now, entry.tags⟩) rfl
      (ih (seq + 1))

lemma Holding.withPayloads {start : ℕ} {payloads stored : List W}
    {events : List (PersistentEvent W)} (h : Holding start payloads events)
    (hlength : stored.length = payloads.length) :
    Holding start stored (withPayloads events stored) := by
  induction h generalizing stored with
  | nil start =>
    rw [length_eq_zero_iff.1 hlength]
    exact nil start
  | @cons start payloads e events hseq _ ih =>
    cases stored with
    | nil => cases hlength
    | cons payload stored =>
      exact cons (e := { e with event := payload }) hseq (ih (succ.inj hlength))

namespace InMemoryJournal

variable {roundTrip : W → Except PersistenceError W} {now : ℚ}
  {journal journal' : InMemoryJournal W} {persistenceId : JsString} {start : ℕ}
  {payloads : List W}

/-- What is left of the payloads of an id, behind the number of the last one deleted. -/
def Holds (journal : InMemoryJournal W) (persistenceId : JsString) (start : ℕ)
    (payloads : List W) : Prop :=
  Holding start payloads (journal.stream persistenceId) ∧
    journal.highestSeq persistenceId = start + payloads.length

variable {expectedSeq : ℕ} {appended : List (PersistentEvent W)} {entries : List (JournalEntry W)}

lemma append_eq_ok (hne : entries ≠ [])
    (h : journal.append roundTrip now persistenceId entries expectedSeq =
      .ok (journal', appended)) :
    journal.highestSeq persistenceId = expectedSeq ∧
      appended = numbered persistenceId now expectedSeq entries ∧
      ∃ stored, (entries.mapM fun entry => roundTrip entry.event) = .ok stored ∧
        journal'.stream persistenceId =
          journal.stream persistenceId ++ withPayloads appended stored ∧
        journal'.highestSeq persistenceId = expectedSeq + entries.length := by
  obtain ⟨_, _, h⟩ := bind_eq_ok h
  obtain ⟨_, _, h⟩ := bind_eq_ok h
  rw [if_neg (by simpa using hne)] at h
  by_cases hseq : journal.highestSeq persistenceId = expectedSeq
  · rw [if_neg (not_not.2 hseq)] at h
    obtain ⟨stored, hstored, h⟩ := bind_eq_ok h
    cases h
    refine ⟨hseq, by rw [hseq], stored, hstored, ?_, ?_⟩
    · rw [stream, get?_set_self, getD_some, hseq]
    · rw [highestSeq, get?_set_self, getD_some, hseq]
  · rw [if_pos hseq] at h
    cases h

lemma append_one_eq_ok {entry : JournalEntry W}
    (h : journal.append roundTrip now persistenceId [entry] expectedSeq =
      .ok (journal', appended)) :
    journal.highestSeq persistenceId = expectedSeq ∧
      ∃ payload, roundTrip entry.event = .ok payload ∧
        journal'.stream persistenceId = journal.stream persistenceId ++
          [⟨persistenceId, .natural (expectedSeq + 1), payload, now, entry.tags⟩] ∧
        journal'.highestSeq persistenceId = expectedSeq + 1 := by
  obtain ⟨hseq, rfl, stored, hstored, hstream, hhead⟩ := append_eq_ok (cons_ne_nil _ _) h
  obtain ⟨payload, hpayload, hstored⟩ := bind_eq_ok hstored
  cases hstored
  exact ⟨hseq, payload, hpayload, hstream, hhead⟩

lemma Holds.append (hholds : journal.Holds persistenceId start payloads) (hne : entries ≠ [])
    (h : journal.append roundTrip now persistenceId entries expectedSeq =
      .ok (journal', appended)) :
    ∃ stored, (entries.mapM fun entry => roundTrip entry.event) = .ok stored ∧
      journal'.Holds persistenceId start (payloads ++ stored) := by
  obtain ⟨hseq, happended, stored, hstored, hstream, hhead⟩ := append_eq_ok hne h
  have hlength : stored.length = (entries.map JournalEntry.event).length := by
    rw [length_map, (forall₂_of_mapM_eq_ok hstored).length_eq]
  refine ⟨stored, hstored, ?_, ?_⟩
  · rw [hstream, happended]
    refine hholds.1.append ?_
    rw [← hholds.2, hseq]
    exact (holding_numbered persistenceId now expectedSeq entries).withPayloads hlength
  · rw [hhead, ← hseq, hholds.2, length_append, hlength, length_map, add_assoc]

lemma highestSeq_delete (toSeq : ℕ) :
    (journal.delete persistenceId toSeq).highestSeq persistenceId =
      journal.highestSeq persistenceId := by
  rw [delete]
  split <;> rfl

lemma stream_delete (toSeq : ℕ) :
    (journal.delete persistenceId toSeq).stream persistenceId =
      (journal.stream persistenceId).filter fun e => toSeq < e.sequenceNr.value := by
  rw [delete]
  cases h : journal.streams.get? persistenceId with
  | none => rw [stream, h, getD_none, filter_nil]
  | some events =>
    simp only [stream, get?_set_self, h, getD_some]

lemma Holds.delete (h : journal.Holds persistenceId start payloads) (toSeq : ℕ) :
    (journal.delete persistenceId toSeq).Holds persistenceId
      (min (max start toSeq) (start + payloads.length)) (payloads.drop (toSeq - start)) := by
  have hdrop := h.1.drop toSeq
  refine ⟨?_, ?_⟩
  · rw [stream_delete]
    by_cases hlast : toSeq ≤ start + payloads.length
    · rwa [min_eq_left (max_le (le_add_right _ _) hlast)]
    · have hnone : payloads.drop (toSeq - start) = [] := drop_eq_nil_of_le (by omega)
      rw [hnone] at hdrop ⊢
      rw [length_eq_zero_iff.1 (hdrop.length_eq)]
      exact .nil _
  · rw [highestSeq_delete, h.2, length_drop]
    omega

lemma highestSeq_raiseCompactionMark (throughSeq : ℕ) :
    (journal.raiseCompactionMark persistenceId throughSeq).highestSeq persistenceId =
      max (journal.highestSeq persistenceId) throughSeq := by
  by_cases hlt : journal.highestSeq persistenceId < throughSeq
  · rw [highestSeq, raiseCompactionMark, if_pos hlt, get?_set_self, getD_some, max_eq_right hlt.le]
  · rw [highestSeq, raiseCompactionMark, if_neg hlt, max_eq_left (not_lt.1 hlt), highestSeq]

lemma stream_raiseCompactionMark (throughSeq : ℕ) :
    (journal.raiseCompactionMark persistenceId throughSeq).stream persistenceId =
      journal.stream persistenceId := by
  rw [stream, raiseCompactionMark]
  split
  · rfl
  · next hnone =>
    rw [get?_set_self, getD_some, stream, not_isSome_iff_eq_none.1 hnone, getD_none]

/-! What is written under one id leaves the others as they are. -/

section Others

variable {other : JsString}

lemma highestSeq_raiseCompactionMark_of_ne (hne : other ≠ persistenceId) (throughSeq : ℕ) :
    (journal.raiseCompactionMark persistenceId throughSeq).highestSeq other =
      journal.highestSeq other := by
  by_cases hlt : journal.highestSeq persistenceId < throughSeq
  · rw [highestSeq, raiseCompactionMark, if_pos hlt, get?_set, if_neg hne.symm, highestSeq]
  · rw [highestSeq, raiseCompactionMark, if_neg hlt, highestSeq]

lemma stream_raiseCompactionMark_of_ne (hne : other ≠ persistenceId) (throughSeq : ℕ) :
    (journal.raiseCompactionMark persistenceId throughSeq).stream other = journal.stream other := by
  rw [stream, raiseCompactionMark]
  split
  · rfl
  · rw [get?_set, if_neg hne.symm, stream]

lemma append_others {entries : List (JournalEntry W)} {expectedSeq : ℕ}
    {appended : List (PersistentEvent W)} (hne : other ≠ persistenceId)
    (h : journal.append roundTrip now persistenceId entries expectedSeq =
      .ok (journal', appended)) :
    journal'.stream other = journal.stream other ∧
      journal'.highestSeq other = journal.highestSeq other := by
  obtain ⟨_, _, h⟩ := bind_eq_ok h
  obtain ⟨_, _, h⟩ := bind_eq_ok h
  by_cases hempty : entries.isEmpty = true
  · rw [if_pos hempty] at h
    cases h
    exact ⟨rfl, rfl⟩
  · rw [if_neg hempty] at h
    by_cases hseq : journal.highestSeq persistenceId = expectedSeq
    · rw [if_neg (not_not.2 hseq)] at h
      obtain ⟨stored, _, h⟩ := bind_eq_ok h
      cases h
      simp only [stream, highestSeq, get?_set, if_neg hne.symm, and_self]
    · rw [if_pos hseq] at h
      cases h

end Others

lemma le_of_mem_read {e : PersistentEvent W} {fromSeq t : ℕ}
    (he : e ∈ journal.read persistenceId fromSeq (some t)) : e.sequenceNr.value ≤ t :=
  (of_decide_eq_true (mem_filter.1 he).2).2

lemma Holds.read (h : journal.Holds persistenceId start payloads) (fromSeq : ℕ)
    (toSeq : Option ℕ) :
    Holding (max start fromSeq)
      ((payloads.take (toSeq.getD (start + payloads.length) - start)).drop (fromSeq - start))
      (journal.read persistenceId (fromSeq + 1) toSeq) := by
  have hread : journal.read persistenceId (fromSeq + 1) toSeq =
      ((journal.stream persistenceId).filter fun e =>
        e.sequenceNr.value ≤ toSeq.getD (start + payloads.length)).filter fun e =>
          fromSeq < e.sequenceNr.value := by
    rw [InMemoryJournal.read, List.filter_filter, h.2]
    refine filter_congr fun e _ => ?_
    simp
  rw [hread]
  exact (h.1.take _).drop fromSeq

end InMemoryJournal

end ActorTs.Persistence
