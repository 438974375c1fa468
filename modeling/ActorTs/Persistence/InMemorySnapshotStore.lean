import ActorTs.Library.OrderedMap
import ActorTs.Persistence.JournalTypes

/-!
# The snapshot store in memory

The snapshots of an id stand in a list by their numbers, no number twice, and that order is
a field of the list. A load is then known by what is stored, whatever the saves and deletes
that led there.
-/

open List Option OrderedMap Nat

namespace ActorTs.Persistence

variable {W : Type}

namespace Snapshot

def number (s : Snapshot W) : ℕ := s.sequenceNr.value

end Snapshot

/-- Snapshots of one id, the oldest number first. -/
structure SnapshotRows (W : Type) where
  rows : List (Snapshot W) := []
  sorted : rows.Pairwise fun s t => s.number < t.number := by exact List.Pairwise.nil

namespace SnapshotRows

variable {list : SnapshotRows W} {row s t : Snapshot W}

instance : Membership (Snapshot W) (SnapshotRows W) := ⟨fun list s => s ∈ list.rows⟩

lemma mem_def : s ∈ list ↔ s ∈ list.rows := Iff.rfl

/-- Put a row in the place of the one of its number, or else in order behind all others of
smaller numbers. -/
def upsertRows (row : Snapshot W) (rows : List (Snapshot W)) : List (Snapshot W) :=
  match rows.findIdx? fun s => s.number = row.number with
  | some i => rows.set i row
  | none => (rows ++ [row]).mergeSort fun s t => s.number ≤ t.number

variable {rows : List (Snapshot W)}

lemma exists_split {i : ℕ} (h : rows.findIdx? (fun s => s.number = row.number) = some i) :
    ∃ before old behind, rows = before ++ old :: behind ∧ old.number = row.number ∧
      upsertRows row rows = before ++ row :: behind := by
  obtain ⟨hi, hnumber, -⟩ := findIdx?_eq_some_iff_getElem.1 h
  refine ⟨rows.take i, rows[i], rows.drop (i + 1), ?_, by simpa using hnumber, ?_⟩
  · rw [← drop_eq_getElem_cons hi, take_append_drop]
  · rw [upsertRows, h]
    exact set_eq_take_append_cons_drop.trans (if_pos hi)

lemma mem_upsertRows (hrows : rows.Pairwise fun s t => s.number < t.number) :
    s ∈ upsertRows row rows ↔ s = row ∨ s ∈ rows ∧ s.number ≠ row.number := by
  cases h : rows.findIdx? fun s => s.number = row.number with
  | none =>
    have hnew := findIdx?_eq_none_iff.1 h
    rw [upsertRows, h, mem_mergeSort, mem_append, mem_singleton, or_comm]
    refine or_congr_right ⟨fun hs => ⟨hs, ?_⟩, fun hs => hs.1⟩
    simpa using hnew s hs
  | some i =>
    obtain ⟨before, old, behind, rfl, hold, hupsert⟩ := exists_split h
    obtain ⟨-, hbehind, hbefore⟩ := pairwise_append.1 hrows
    rw [hupsert]
    constructor
    · intro hs
      rcases mem_append.1 hs with hs | hs
      · have := hbefore s hs old mem_cons_self
        exact .inr ⟨mem_append_left _ hs, by omega⟩
      · rcases mem_cons.1 hs with rfl | hs
        · exact .inl rfl
        · have := (pairwise_cons.1 hbehind).1 s hs
          exact .inr ⟨mem_append_right _ (mem_cons_of_mem _ hs), by omega⟩
    · rintro (rfl | ⟨hs, hne⟩)
      · exact mem_append_right _ mem_cons_self
      · rcases mem_append.1 hs with hs | hs
        · exact mem_append_left _ hs
        · rcases mem_cons.1 hs with rfl | hs
          · exact absurd hold hne
          · exact mem_append_right _ (mem_cons_of_mem _ hs)

lemma sorted_upsertRows (hrows : rows.Pairwise fun s t => s.number < t.number)
    (row : Snapshot W) : (upsertRows row rows).Pairwise fun s t => s.number < t.number := by
  cases h : rows.findIdx? fun s => s.number = row.number with
  | none =>
    have hnew : ∀ s ∈ rows, s.number ≠ row.number := by
      simpa using findIdx?_eq_none_iff.1 h
    rw [upsertRows, h]
    have hle := @pairwise_mergeSort _ (fun s t : Snapshot W => s.number ≤ t.number)
      (by simp only [decide_eq_true_eq]; exact fun _ _ _ => le_trans)
      (by simp only [Bool.or_eq_true, decide_eq_true_eq]; exact fun _ _ => le_total _ _)
      (rows ++ [row])
    have hne : (rows ++ [row]).Pairwise fun s t => s.number ≠ t.number := by
      refine pairwise_append.2 ⟨hrows.imp ne_of_lt, pairwise_singleton _ _, ?_⟩
      intro s hs t ht
      rw [mem_singleton.1 ht]
      exact hnew s hs
    have hne' := hne.perm (mergeSort_perm _ fun s t => s.number ≤ t.number).symm fun h => h.symm
    exact hle.imp₂ (fun s t hle hne => lt_of_le_of_ne (of_decide_eq_true hle) hne) hne'
  | some i =>
    obtain ⟨before, old, behind, rfl, hold, hupsert⟩ := exists_split h
    obtain ⟨hfirst, hbehind, hbefore⟩ := pairwise_append.1 hrows
    obtain ⟨hold', hbehind⟩ := pairwise_cons.1 hbehind
    rw [hupsert]
    refine pairwise_append.2 ⟨hfirst, pairwise_cons.2 ⟨?_, hbehind⟩, ?_⟩
    · intro t ht
      rw [← hold]
      exact hold' t ht
    · intro s hs t ht
      rcases mem_cons.1 ht with rfl | ht
      · rw [← hold]
        exact hbefore s hs old mem_cons_self
      · exact hbefore s hs t (mem_cons_of_mem _ ht)

/-- The newest `keepN` rows, or all where `keepN` is zero. -/
def prune (keepN : ℕ) (rows : List (Snapshot W)) : List (Snapshot W) :=
  if 0 < keepN ∧ keepN < rows.length then rows.drop (rows.length - keepN) else rows

variable (keepN : ℕ)

lemma prune_sublist (rows : List (Snapshot W)) : (prune keepN rows).Sublist rows := by
  rw [prune]
  split
  · exact drop_sublist _ _
  · exact List.Sublist.refl _

lemma getLast?_prune (rows : List (Snapshot W)) :
    (prune keepN rows).getLast? = rows.getLast? := by
  rw [prune]
  split
  · rename_i h
    rw [getLast?_drop, if_neg (by omega)]
  · rfl

def save (keepN : ℕ) (list : SnapshotRows W) (row : Snapshot W) : SnapshotRows W :=
  ⟨prune keepN (upsertRows row list.rows),
    (sorted_upsertRows list.sorted row).sublist (prune_sublist _ _)⟩

def latest (list : SnapshotRows W) : Option (Snapshot W) := list.rows.getLast?

def before (list : SnapshotRows W) (seq : ℕ) : Option (Snapshot W) :=
  list.rows.reverse.find? fun s => s.number < seq

def delete (list : SnapshotRows W) (toSeq : ℕ) : SnapshotRows W :=
  ⟨list.rows.filter fun s => toSeq < s.number, list.sorted.filter _⟩

lemma mem_delete {toSeq : ℕ} : s ∈ list.delete toSeq ↔ s ∈ list ∧ toSeq < s.number := by
  rw [mem_def, delete, mem_filter, decide_eq_true_eq, mem_def]

lemma of_mem_save {keepN : ℕ} (h : s ∈ list.save keepN row) : s = row ∨ s ∈ list :=
  ((mem_upsertRows list.sorted).1 ((prune_sublist _ _).subset h)).imp_right And.left

lemma getLast?_eq_some_iff (hrows : rows.Pairwise fun s t => s.number < t.number) :
    rows.getLast? = some s ↔ s ∈ rows ∧ ∀ t ∈ rows, t.number ≤ s.number := by
  constructor
  · intro h
    obtain ⟨before, rfl⟩ := List.getLast?_eq_some_iff.1 h
    refine ⟨List.mem_append_right _ List.mem_cons_self, fun t ht => ?_⟩
    rcases List.mem_append.1 ht with ht | ht
    · exact ((List.pairwise_append.1 hrows).2.2 t ht s List.mem_cons_self).le
    · rw [List.mem_singleton.1 ht]
  · rintro ⟨hs, hmax⟩
    obtain ⟨before, behind, rfl⟩ := List.append_of_mem hs
    cases behind with
    | nil => exact List.getLast?_concat
    | cons t behind =>
      have hlt := (List.pairwise_cons.1 (List.pairwise_append.1 hrows).2.1).1 t List.mem_cons_self
      have hle := hmax t (List.mem_append_right _ (List.mem_cons_of_mem _ List.mem_cons_self))
      omega

lemma latest_eq_some_iff : list.latest = some s ↔ s ∈ list ∧ ∀ t ∈ list, t.number ≤ s.number :=
  getLast?_eq_some_iff list.sorted

lemma latest_eq_none_iff : list.latest = none ↔ ∀ s, s ∉ list := by
  rw [latest, getLast?_eq_none_iff, eq_nil_iff_forall_not_mem]
  rfl

lemma latest_save (h : ∀ t ∈ list, t.number ≤ row.number) :
    (list.save keepN row).latest = some row := by
  rw [latest, save, getLast?_prune, getLast?_eq_some_iff (sorted_upsertRows list.sorted row)]
  refine ⟨(mem_upsertRows list.sorted).2 (.inl rfl), fun t ht => ?_⟩
  rcases (mem_upsertRows list.sorted).1 ht with rfl | ⟨ht, -⟩
  · exact le_rfl
  · exact h t ht

lemma before_eq_some_iff {seq : ℕ} :
    list.before seq = some s ↔
      (s ∈ list ∧ s.number < seq) ∧ ∀ t ∈ list, t.number < seq → t.number ≤ s.number := by
  rw [before, ← head?_filter, filter_reverse, head?_reverse,
    getLast?_eq_some_iff (list.sorted.filter _)]
  simp only [mem_filter, decide_eq_true_eq, and_imp, mem_def]

lemma before_eq_none_iff {seq : ℕ} :
    list.before seq = none ↔ ∀ s ∈ list, seq ≤ s.number := by
  simp [before, find?_eq_none, mem_def]

end SnapshotRows

structure InMemorySnapshotStore (W : Type) where
  store : OrderedMap JsString (SnapshotRows W) := .empty
  keepN : ℕ := 0

namespace InMemorySnapshotStore

def rows (snapshots : InMemorySnapshotStore W) (persistenceId : JsString) : SnapshotRows W :=
  (snapshots.store.get? persistenceId).getD {}

/-- The row that is stored carries what the state is read back as, the answer the caller's
own state. -/
def save (roundTrip : W → Except PersistenceError W) (now : ℚ) (snapshots : InMemorySnapshotStore W)
    (persistenceId : JsString) (seq : ℕ) (state : W) :
    Except PersistenceError (InMemorySnapshotStore W × Snapshot W) := do
  let stored ← roundTrip state
  let row : Snapshot W :=
    { persistenceId, sequenceNr := .natural seq, state := stored, timestamp := now }
  return ({ snapshots with
    store := snapshots.store.set persistenceId
      ((snapshots.rows persistenceId).save snapshots.keepN row) }, { row with state := state })

def loadLatest (snapshots : InMemorySnapshotStore W) (persistenceId : JsString) :
    Option (Snapshot W) :=
  (snapshots.rows persistenceId).latest

def loadBefore (snapshots : InMemorySnapshotStore W) (persistenceId : JsString) (seq : ℕ) :
    Option (Snapshot W) :=
  (snapshots.rows persistenceId).before seq

def delete (snapshots : InMemorySnapshotStore W) (persistenceId : JsString) (toSeq : ℕ) :
    InMemorySnapshotStore W :=
  match snapshots.store.get? persistenceId with
  | none => snapshots
  | some list =>
    { snapshots with store := snapshots.store.set persistenceId (list.delete toSeq) }

variable (snapshots : InMemorySnapshotStore W)

lemma rows_delete (persistenceId : JsString) (toSeq : ℕ) :
    (snapshots.delete persistenceId toSeq).rows persistenceId =
      (snapshots.rows persistenceId).delete toSeq := by
  rw [delete]
  cases h : snapshots.store.get? persistenceId with
  | none => simp only [rows, h, getD_none, SnapshotRows.delete, filter_nil]
  | some list => simp only [rows, get?_set_self, h, getD_some]

variable {persistenceId : JsString} {roundTrip : W → Except PersistenceError W}
  {answer : Snapshot W} {other : JsString} {state : W} {now : ℚ} {seq : ℕ}

lemma rows_delete_of_ne (toSeq : ℕ) (h : persistenceId ≠ other) :
    (snapshots.delete persistenceId toSeq).rows other = snapshots.rows other := by
  rw [delete]
  cases snapshots.store.get? persistenceId with
  | none => rfl
  | some list => simp only [rows, get?_set, if_neg h]

lemma save_eq_ok {snapshots snapshots' : InMemorySnapshotStore W}
    (h : snapshots.save roundTrip now persistenceId seq state = .ok (snapshots', answer)) :
    ∃ stored, roundTrip state = .ok stored ∧
      snapshots'.rows persistenceId = (snapshots.rows persistenceId).save snapshots.keepN
        { persistenceId, sequenceNr := .natural seq, state := stored, timestamp := now } := by
  rw [save] at h
  cases hstored : roundTrip state with
  | error e =>
    rw [hstored] at h
    cases h
  | ok stored =>
    rw [hstored] at h
    cases h
    refine ⟨stored, rfl, ?_⟩
    simp only [rows, get?_set_self, getD_some]

lemma rows_save_of_ne {snapshots snapshots' : InMemorySnapshotStore W}
    (h : snapshots.save roundTrip now persistenceId seq state = .ok (snapshots', answer))
    (hne : persistenceId ≠ other) : snapshots'.rows other = snapshots.rows other := by
  rw [save] at h
  cases hstored : roundTrip state with
  | error e =>
    rw [hstored] at h
    cases h
  | ok stored =>
    rw [hstored] at h
    cases h
    simp only [rows, get?_set, if_neg hne]

end InMemorySnapshotStore

end ActorTs.Persistence
