import ActorTs.Library.Caught
import ActorTs.Library.Stamp
import ActorTs.Persistence.PersistenceIdStream
import Mathlib.Data.List.Induction

/-!
# Events by tag

A tag query lists the persistence ids, reads one stream after the other and sorts what it has
read by offset: time, then persistence id, then number. The journal goes on while it reads,
so what it answers is no state the journal was in; it holds at least what the journal held
when the query began.
-/

open List

namespace ActorTs.Persistence

variable {W : Type}

/-- A position in the journal; `name` is the persistence id and `number` the sequence number. -/
abbrev Offset := Stamp

def offsetStart : Offset := ⟨0, [], 0⟩

def offsetCompare (a b : Offset) : ℚ := Stamp.compare a b

def offsetGreater (a b : Offset) : Bool := decide (0 < offsetCompare a b)

def offsetOfEvent (ev : PersistentEvent W) : Offset := ⟨ev.timestamp, ev.persistenceId, ev.number⟩

deriving instance DecidableEq for PersistentEvent

structure TaggedEvent (W : Type) where
  event : PersistentEvent W
  offset : Offset
  deriving DecidableEq

def tagged (ev : PersistentEvent W) : TaggedEvent W := ⟨ev, offsetOfEvent ev⟩

structure TagFilterSpec where
  all : Option (List JsString) := none
  any : Option (List JsString) := none
  not : Option (List JsString) := none

def eventMatchesTagFilter (eventTags : Option (List JsString)) (filter : TagFilterSpec) : Bool :=
  let tags := eventTags.getD []
  (filter.all.getD []).all tags.contains &&
    (match filter.any with
      | none => true
      | some any => any.any tags.contains) &&
    (filter.not.getD []).all fun tag => !tags.contains tag

/-- What a query asks for. -/
def Wanted (spec : TagFilterSpec) (fromOffset : Offset) (ev : PersistentEvent W) : Prop :=
  eventMatchesTagFilter ev.tags spec = true ∧ fromOffset ≤ offsetOfEvent ev

instance (spec : TagFilterSpec) (fromOffset : Offset) (ev : PersistentEvent W) :
    Decidable (Wanted spec fromOffset ev) := inferInstanceAs (Decidable (_ ∧ _))

/-- The ids in the order in which they appeared. -/
def persistenceIds (log : List (PersistentEvent W)) : List JsString :=
  log.foldl (fun ids ev => if ev.persistenceId ∈ ids then ids else ids ++ [ev.persistenceId]) []

def readStream (log : List (PersistentEvent W)) (persistenceId : JsString) :
    List (PersistentEvent W) :=
  log.filter fun ev => ev.persistenceId = persistenceId ∧ 1 ≤ ev.number

/-- A query under way: the ids it has still to read, once it has listed them, and what it has
read so far. -/
structure TagScan (W : Type) where
  remaining : Option (List JsString) := none
  read : List (PersistentEvent W) := []

namespace TagScan

/-- The next answer of the journal. -/
def step (log : List (PersistentEvent W)) (scan : TagScan W) : TagScan W :=
  match scan.remaining with
  | none => { scan with remaining := some (persistenceIds log) }
  | some [] => scan
  | some (persistenceId :: remaining) =>
    ⟨some remaining, scan.read ++ readStream log persistenceId⟩

def finished (scan : TagScan W) : Bool := scan.remaining == some []

end TagScan

/-- What the query answers of what it has read. -/
def currentEventsByTag (spec : TagFilterSpec) (fromOffset : Offset)
    (read : List (PersistentEvent W)) : List (TaggedEvent W) :=
  (((read.filter fun ev => eventMatchesTagFilter ev.tags spec).map tagged).filter fun te =>
    ¬ offsetCompare te.offset fromOffset < 0).insertionSort
      fun a b => offsetCompare a.offset b.offset ≤ 0

/-- What a journal keeps: numbers that go up in each stream, from 1, and a clock that does not
go back. -/
structure Kept (log : List (PersistentEvent W)) : Prop where
  numbers : log.Pairwise fun e e' => e.persistenceId = e'.persistenceId → e.number < e'.number
  positive : ∀ e ∈ log, 1 ≤ e.number
  clock : log.Pairwise fun e e' => e.timestamp ≤ e'.timestamp

def Appendable (log : List (PersistentEvent W)) (ev : PersistentEvent W) : Prop :=
  (∀ e ∈ log, e.persistenceId = ev.persistenceId → e.number < ev.number) ∧ 1 ≤ ev.number ∧
    ∀ e ∈ log, e.timestamp ≤ ev.timestamp

instance (log : List (PersistentEvent W)) (ev : PersistentEvent W) :
    Decidable (Appendable log ev) := inferInstanceAs (Decidable (_ ∧ _))

variable {log : List (PersistentEvent W)} {ev e e' : PersistentEvent W} {spec : TagFilterSpec}
  {fromOffset : Offset} {read : List (PersistentEvent W)} {scan : TagScan W}

namespace Kept

lemma nil : Kept ([] : List (PersistentEvent W)) := ⟨.nil, nofun, .nil⟩

lemma concat (h : Kept log) (hev : Appendable log ev) : Kept (log ++ [ev]) where
  numbers := pairwise_append.2 ⟨h.numbers, pairwise_singleton _ _,
    fun e he e' he' => mem_singleton.1 he' ▸ hev.1 e he⟩
  positive e he := by
    rcases mem_append.1 he with he | he
    · exact h.positive e he
    · rw [mem_singleton.1 he]
      exact hev.2.1
  clock := pairwise_append.2 ⟨h.clock, pairwise_singleton _ _,
    fun e he e' he' => mem_singleton.1 he' ▸ hev.2.2 e he⟩

lemma offsets (h : Kept log) : log.Pairwise fun e e' => offsetOfEvent e ≠ offsetOfEvent e' := by
  refine h.numbers.imp fun {e e'} hlt heq => ?_
  have hid : e.persistenceId = e'.persistenceId := congrArg Stamp.name heq
  exact absurd (congrArg Stamp.number heq) (hlt hid).ne

lemma mem_readStream (h : Kept log) {persistenceId : JsString} :
    e ∈ readStream log persistenceId ↔ e ∈ log ∧ e.persistenceId = persistenceId := by
  rw [readStream, mem_filter, decide_eq_true_eq]
  exact ⟨fun he => ⟨he.1, he.2.1⟩, fun he => ⟨he.1, he.2, h.positive e he.1⟩⟩

end Kept

def firstEvent (persistenceId : JsString) (timestamp : ℚ) : PersistentEvent Unit :=
  ⟨persistenceId, .natural 1, (), timestamp, none⟩

lemma kept_firstEvent (persistenceId : JsString) (timestamp : ℚ) :
    Kept [firstEvent persistenceId timestamp] :=
  ⟨pairwise_singleton _ _, fun _ he => mem_singleton.1 he ▸ le_rfl, pairwise_singleton _ _⟩

lemma persistenceIds_concat :
    persistenceIds (log ++ [ev]) = if ev.persistenceId ∈ persistenceIds log
      then persistenceIds log else persistenceIds log ++ [ev.persistenceId] := by
  rw [persistenceIds, foldl_append]
  rfl

lemma nodup_persistenceIds : (persistenceIds log).Nodup := by
  induction log using List.reverseRecOn with
  | nil => exact nodup_nil
  | append_singleton log ev ih =>
    rw [persistenceIds_concat]
    split
    · exact ih
    · next hnew => exact nodup_append.2 ⟨ih, nodup_singleton _, fun a ha b hb heq =>
      hnew (mem_singleton.1 hb ▸ heq ▸ ha)⟩

lemma mem_persistenceIds (he : e ∈ log) : e.persistenceId ∈ persistenceIds log := by
  induction log using List.reverseRecOn with
  | nil => cases he
  | append_singleton log ev ih =>
    rw [persistenceIds_concat]
    rcases mem_append.1 he with he | he
    · split
      · exact ih he
      · exact mem_append_left _ (ih he)
    · rw [mem_singleton.1 he]
      split
      · assumption
      · exact mem_append_right _ (mem_singleton_self _)

lemma mem_currentEventsByTag {te : TaggedEvent W} :
    te ∈ currentEventsByTag spec fromOffset read ↔
      ∃ e ∈ read, Wanted spec fromOffset e ∧ tagged e = te := by
  rw [currentEventsByTag, mem_insertionSort, mem_filter, mem_map]
  constructor
  · rintro ⟨⟨e, he, rfl⟩, hfrom⟩
    rw [decide_eq_true_eq, offsetCompare, Stamp.compare_neg_iff, not_lt] at hfrom
    obtain ⟨hmem, hmatches⟩ := mem_filter.1 he
    exact ⟨e, hmem, ⟨hmatches, hfrom⟩, rfl⟩
  · rintro ⟨e, he, ⟨hmatches, hfrom⟩, rfl⟩
    refine ⟨⟨e, mem_filter.2 ⟨he, hmatches⟩, rfl⟩, ?_⟩
    rw [decide_eq_true_eq, offsetCompare, Stamp.compare_neg_iff, not_lt]
    exact hfrom

lemma tagged_mem_currentEventsByTag :
    tagged e ∈ currentEventsByTag spec fromOffset read ↔ e ∈ read ∧ Wanted spec fromOffset e := by
  rw [mem_currentEventsByTag]
  constructor
  · rintro ⟨e', he', hwanted, heq⟩
    have hsame : e' = e := congrArg TaggedEvent.event heq
    exact hsame ▸ ⟨he', hwanted⟩
  · exact fun ⟨he, hwanted⟩ => ⟨e, he, hwanted, rfl⟩

lemma sorted_currentEventsByTag
    (hread : read.Pairwise fun e e' => offsetOfEvent e ≠ offsetOfEvent e') :
    (currentEventsByTag spec fromOffset read).Pairwise fun a b => a.offset < b.offset := by
  have hdistinct : ((read.filter fun ev => eventMatchesTagFilter ev.tags spec).map tagged).Pairwise
      fun a b => a.offset ≠ b.offset :=
    pairwise_map.2 (hread.sublist filter_sublist)
  exact pairwise_lt_insertionSort (fun a b => Stamp.compare_nonpos_iff)
    (hdistinct.sublist filter_sublist)

/-- A scan of a journal that was `since` events long when it began: it has read each event at
most once, and of those it found every one is read or yet to be read. -/
structure TagScan.Sound (log : List (PersistentEvent W)) (since : ℕ) (scan : TagScan W) :
    Prop where
  mem : ∀ e ∈ scan.read, e ∈ log
  distinct : scan.read.Pairwise fun e e' => offsetOfEvent e ≠ offsetOfEvent e'
  unlisted : scan.remaining = none → scan.read = []
  nodup : ∀ ids, scan.remaining = some ids → ids.Nodup
  unread : ∀ ids, scan.remaining = some ids → ∀ e ∈ scan.read, e.persistenceId ∉ ids
  covers : ∀ e ∈ log.take since, ∀ ids, scan.remaining = some ids →
    e ∈ scan.read ∨ e.persistenceId ∈ ids
  since_le : since ≤ log.length

namespace TagScan.Sound

variable {since : ℕ}

lemma start (log : List (PersistentEvent W)) : Sound log log.length ({} : TagScan W) :=
  ⟨nofun, .nil, fun _ => rfl, nofun, nofun, nofun, le_rfl⟩

lemma concat (h : Sound log since scan) (ev : PersistentEvent W) :
    Sound (log ++ [ev]) since scan := by
  refine ⟨fun e he => mem_append_left _ (h.mem e he), h.distinct, h.unlisted, h.nodup,
    h.unread, ?_, ?_⟩
  · rw [take_append_of_le_length h.since_le]
    exact h.covers
  · rw [length_append]
    exact h.since_le.trans (Nat.le_add_right _ _)

lemma step (h : Sound log since scan) (hkept : Kept log) :
    Sound log since (scan.step log) := by
  rcases hremaining : scan.remaining with _ | ids
  · have hread := h.unlisted hremaining
    have hstep : scan.step log = ⟨some (persistenceIds log), []⟩ := by
      rw [TagScan.step, hremaining, hread]
    rw [hstep]
    refine ⟨nofun, .nil, nofun, ?_, fun _ _ _ he => (nomatch he), ?_, h.since_le⟩
    · rintro ids ⟨⟩
      exact nodup_persistenceIds
    · rintro e he ids ⟨⟩
      exact .inr (mem_persistenceIds (mem_of_mem_take he))
  · cases ids with
    | nil =>
      have hstep : scan.step log = scan := by rw [TagScan.step, hremaining]
      rwa [hstep]
    | cons persistenceId ids =>
      have hstep : scan.step log = ⟨some ids, scan.read ++ readStream log persistenceId⟩ := by
        rw [TagScan.step, hremaining]
      obtain ⟨hnew, hids⟩ := nodup_cons.1 (h.nodup _ hremaining)
      have hunread := h.unread _ hremaining
      rw [hstep]
      refine ⟨fun e he => ?_, ?_, nofun, ?_, ?_, ?_, h.since_le⟩
      · rcases mem_append.1 he with he | he
        · exact h.mem e he
        · exact (hkept.mem_readStream.1 he).1
      · refine pairwise_append.2 ⟨h.distinct, hkept.offsets.sublist filter_sublist,
          fun e he e' he' heq => hunread e he ?_⟩
        have hid : e.persistenceId = e'.persistenceId := congrArg Stamp.name heq
        rw [hid]
        exact mem_cons.2 (.inl (hkept.mem_readStream.1 he').2)
      · rintro _ ⟨⟩
        exact hids
      · rintro _ ⟨⟩ e he
        rcases mem_append.1 he with he | he
        · exact fun hmem => hunread e he (mem_cons_of_mem _ hmem)
        · rw [(hkept.mem_readStream.1 he).2]
          exact hnew
      · rintro e he _ ⟨⟩
        rcases h.covers e he _ hremaining with hread | hmem
        · exact .inl (mem_append_left _ hread)
        · rcases mem_cons.1 hmem with hid | hmem
          · exact .inl (mem_append_right _ (hkept.mem_readStream.2 ⟨mem_of_mem_take he, hid⟩))
          · exact .inr hmem

lemma read_of_finished (h : Sound log since scan) (hfinished : scan.finished = true)
    (he : e ∈ log.take since) : e ∈ scan.read :=
  (h.covers e he [] (eq_of_beq hfinished)).resolve_right not_mem_nil

end TagScan.Sound

end ActorTs.Persistence
