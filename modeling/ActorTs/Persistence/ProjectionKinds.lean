import ActorTs.Persistence.ProjectionRuns

/-!
# Projections of one persistence id and of a tag

The numbers of one persistence id go up in the order in which its events are appended, so a cursor
that is a number steps over nothing. A cursor of a tag is an offset: an event of another id can come
to lie before it, and a query that reads one id after the other can miss an event and answer one
behind it.
-/

open List Option

namespace ActorTs.Persistence

open Machine

variable {W : Type}

def byPersistenceIdProjection (persistenceId : JsString) :
    ProjectionKind W ℕ (ℕ × Option (List (PersistentEvent W))) where
  start := 0
  concerns ev := decide (ev.persistenceId = persistenceId)
  position := PersistentEvent.number
  query cursor := (cursor, none)
  read log query :=
    match query.2 with
    | none => (query.1, some (log.filter fun ev =>
      ev.persistenceId = persistenceId ∧ query.1 + 1 ≤ ev.number))
    | some _ => query
  envelopes query := query.2.map fun events => events.map fun event => ⟨event, event.number⟩
  isCursor _ _ := false
  comparePositions a b := a - b

def byTagProjection (spec : TagFilterSpec) : ProjectionKind W Offset (Offset × TagScan W) where
  start := offsetStart
  concerns ev := eventMatchesTagFilter ev.tags spec
  position := offsetOfEvent
  query cursor := (cursor, {})
  read log query := (query.1, query.2.step log)
  envelopes query :=
    if query.2.finished then
      some ((currentEventsByTag spec query.1 query.2.read).map fun te => ⟨te.event, te.offset⟩)
    else none
  isCursor offset cursor :=
    offset.timestamp == cursor.timestamp && offset.name == cursor.name &&
      offset.number == cursor.number
  comparePositions := offsetCompare

section ByPersistenceId

variable {persistenceId : JsString} {options : ProjectionOptions}
  {log : List (PersistentEvent W)} {cursor : ℕ}

/-- What a read has answered misses nothing but what is appended behind it. -/
structure ReadBehind (persistenceId : JsString) (log : List (PersistentEvent W)) (cursor : ℕ)
    (events : List (PersistentEvent W)) : Prop where
  sorted : events.Pairwise fun e e' => e.number < e'.number
  mem : ∀ e ∈ events, e ∈ log ∧ e.persistenceId = persistenceId ∧ cursor < e.number
  covers : ∀ e ∈ log, e.persistenceId = persistenceId → cursor < e.number →
    e ∈ events ∨ ∀ e' ∈ events, e'.number < e.number

def AskedByPersistenceId (persistenceId : JsString) (log : List (PersistentEvent W)) (cursor : ℕ)
    (query : ℕ × Option (List (PersistentEvent W))) : Prop :=
  query.1 = cursor ∧ ∀ events ∈ query.2, ReadBehind persistenceId log cursor events

lemma readBehind_filter (hkept : Kept log) :
    ReadBehind persistenceId log cursor
      (log.filter fun ev => ev.persistenceId = persistenceId ∧ cursor + 1 ≤ ev.number) := by
  have hmem : ∀ e, e ∈ log.filter (fun ev => ev.persistenceId = persistenceId ∧
      cursor + 1 ≤ ev.number) ↔ e ∈ log ∧ e.persistenceId = persistenceId ∧ cursor < e.number := by
    intro e
    rw [mem_filter, decide_eq_true_eq, Nat.succ_le_iff]
  refine ⟨?_, fun e he => (hmem e).1 he, fun e he hid hlt => .inl ((hmem e).2 ⟨he, hid, hlt⟩)⟩
  refine List.Pairwise.imp_of_mem (fun {e e'} he he' hlt => hlt ?_)
    (hkept.numbers.sublist filter_sublist)
  exact ((hmem e).1 he).2.1.trans ((hmem e').1 he').2.1.symm

lemma ReadBehind.append {events : List (PersistentEvent W)} {ev : PersistentEvent W}
    (h : ReadBehind persistenceId log cursor events) (hev : Appendable log ev) :
    ReadBehind persistenceId (log ++ [ev]) cursor events where
  sorted := h.sorted
  mem e he := ⟨mem_append_left _ (h.mem e he).1, (h.mem e he).2⟩
  covers e he hid hlt := by
    rcases mem_append.1 he with he | he
    · exact h.covers e he hid hlt
    · obtain rfl := mem_singleton.1 he
      refine .inr fun e' he' => hev.1 e' (h.mem e' he').1 ?_
      exact (h.mem e' he').2.1.trans hid.symm

lemma lawful_byPersistenceId (persistenceId : JsString) :
    (byPersistenceIdProjection (W := W) persistenceId).Lawful
      (AskedByPersistenceId persistenceId) where
  query _ _ := ⟨rfl, nofun⟩
  read log cursor query hkept hasked := by
    obtain ⟨rfl, hread⟩ := hasked
    rw [byPersistenceIdProjection]
    dsimp only
    split
    · refine ⟨rfl, ?_⟩
      rintro _ ⟨⟩
      exact readBehind_filter hkept
    · exact ⟨rfl, hread⟩
  append log cursor query ev hev hasked :=
    ⟨hasked.1, fun events hevents => (hasked.2 events hevents).append hev⟩
  answered log cursor query envelopes _ hasked henvelopes := by
    obtain ⟨events, hevents, rfl⟩ := map_eq_some_iff.1 henvelopes
    have hread := hasked.2 events hevents
    refine ⟨pairwise_map.2 hread.sorted, fun envelope henvelope => ?_,
      fun envelope henvelope _ => ?_⟩
    · obtain ⟨e, he, rfl⟩ := mem_map.1 henvelope
      exact ⟨(hread.mem e he).1, decide_eq_true (hread.mem e he).2.1, rfl⟩
    · obtain ⟨e, he, rfl⟩ := mem_map.1 henvelope
      exact (hread.mem e he).2.2
  isCursor _ _ := nofun

lemma Reached.lt_of_appendable {position : ℕ} {ev : PersistentEvent W}
    (h : Reached (byPersistenceIdProjection persistenceId) log position)
    (hev : Appendable log ev) (hid : ev.persistenceId = persistenceId) :
    position < ev.number := by
  rcases h with rfl | ⟨e, he, hconcerns, rfl⟩
  · exact hev.2.1
  · exact hev.1 e he ((of_decide_eq_true hconcerns).trans hid.symm)

lemma inOrder_byPersistenceId {w : ProjectionWorld W ℕ (ℕ × Option (List (PersistentEvent W)))}
    (h : w.Ordered (byPersistenceIdProjection persistenceId) (AskedByPersistenceId persistenceId))
    (move : ProjectionMove W) :
    ProjectionWorld.InOrder (byPersistenceIdProjection persistenceId) w move := by
  cases move with
  | append ev =>
    intro hev hconcerns
    have hid : ev.persistenceId = persistenceId := of_decide_eq_true hconcerns
    refine ⟨h.reached.lt_of_appendable hev hid, fun inst hinst => ?_⟩
    obtain ⟨hordered, -⟩ := h.running inst hinst
    exact ⟨hordered.reached.lt_of_appendable hev hid, fun envelope henvelope =>
      (hordered.pending.reached henvelope).lt_of_appendable hev hid⟩
  | answer =>
    intro inst hinst query envelopes hphase henvelopes e he hconcerns hlt
    obtain ⟨-, hread⟩ := (h.running inst hinst).1.asked query hphase
    obtain ⟨events, hevents, rfl⟩ := map_eq_some_iff.1 henvelopes
    have hcovers := (hread events hevents).covers e he (of_decide_eq_true hconcerns) hlt
    refine hcovers.imp (fun hmem => mem_map.2 ⟨e, hmem, rfl⟩) fun hbehind => ?_
    exact forall_mem_map.2 hbehind
  | start | tick | read | queryFailed | handled | failed | saved | unsaved | stop | crash =>
    trivial

end ByPersistenceId

section ByTag

variable {spec : TagFilterSpec} {log : List (PersistentEvent W)}

def AskedByTag (log : List (PersistentEvent W)) (cursor : Offset) (query : Offset × TagScan W) :
    Prop :=
  query.1 = cursor ∧ ∃ since, query.2.Sound log since

lemma lawful_byTag (spec : TagFilterSpec) :
    (byTagProjection (W := W) spec).Lawful AskedByTag where
  query log _ := ⟨rfl, log.length, .start log⟩
  read _ _ _ hkept hasked := ⟨hasked.1, hasked.2.imp fun _ hscan => hscan.step hkept⟩
  append _ _ _ ev _ hasked := ⟨hasked.1, hasked.2.imp fun _ hscan => hscan.concat ev⟩
  answered log cursor query envelopes _ hasked henvelopes := by
    obtain ⟨rfl, since, hscan⟩ := hasked
    obtain ⟨-, henvelopes⟩ := ite_none_right_eq_some.1 henvelopes
    obtain rfl := some.inj henvelopes
    refine ⟨pairwise_map.2 (sorted_currentEventsByTag hscan.distinct),
      fun envelope henvelope => ?_, fun envelope henvelope hfresh => ?_⟩
    · obtain ⟨te, hte, rfl⟩ := mem_map.1 henvelope
      obtain ⟨e, he, hwanted, rfl⟩ := mem_currentEventsByTag.1 hte
      exact ⟨hscan.mem e he, hwanted.1, rfl⟩
    · obtain ⟨te, hte, rfl⟩ := mem_map.1 henvelope
      obtain ⟨e, -, hwanted, rfl⟩ := mem_currentEventsByTag.1 hte
      refine lt_of_le_of_ne hwanted.2 fun heq => ?_
      rw [heq] at hfresh
      simp [byTagProjection, tagged] at hfresh
  isCursor position cursor h := by
    simp only [byTagProjection, Bool.and_eq_true, beq_iff_eq] at h
    cases position
    cases cursor
    simp_all

end ByTag

open ProjectionWorld

/-- A projection of one persistence id steps over nothing. A projection of a tag does not where no
event comes to lie before a position that was reached and no query misses one before an event that
it answers. No saved cursor falls. -/
theorem projection_stepsOverNothing (persistenceId : JsString) (spec : TagFilterSpec)
    (options : ProjectionOptions) (moves moves' : List (ProjectionMove W))
    (hmoves : Machine.Along (step (byTagProjection spec) options)
      (InOrder (byTagProjection spec)) (opened (byTagProjection spec)) moves') :
    ((run (step (byPersistenceIdProjection persistenceId) options)
        (opened (byPersistenceIdProjection persistenceId)) moves).StepsOverNothing
          (byPersistenceIdProjection persistenceId) ∧
      Machine.Along (step (byPersistenceIdProjection persistenceId) options) (fun w move =>
          w.store ≤ (step (byPersistenceIdProjection persistenceId) options w move).store)
        (opened (byPersistenceIdProjection persistenceId)) moves) ∧
    ((run (step (byTagProjection spec) options) (opened (byTagProjection spec))
        moves').StepsOverNothing (byTagProjection spec) ∧
      Machine.Along (step (byTagProjection spec) options)
        (fun w move => w.store ≤ (step (byTagProjection spec) options w move).store)
        (opened (byTagProjection spec)) moves') := by
  have hlawful := lawful_byPersistenceId (W := W) persistenceId
  refine ⟨⟨stepsOverNothing_run hlawful ?_, forward_run hlawful moves⟩,
    stepsOverNothing_run (lawful_byTag spec) hmoves, forward_run (lawful_byTag spec) moves'⟩
  exact along_of_invariant (fun _ move h => h.step hlawful move)
    (fun _ move h => inOrder_byPersistenceId h move) ordered_opened

/-- The options of a projection that hands over single events. -/
def retryAndFail : ProjectionOptions := ⟨.retryAndFail, 3, none⟩

/-- One event is appended, read, handled and saved. -/
theorem projection_stepsOverNothing_one :
    ((run (step (byPersistenceIdProjection "a") retryAndFail)
        (opened (byPersistenceIdProjection "a"))
        [.append (firstEvent "a" 1), .start, .tick, .read, .answer, .failed, .stop]
          ).StepsOverNothing (byPersistenceIdProjection "a") ∧
      Machine.Along (step (byPersistenceIdProjection "a") retryAndFail) (fun w move =>
          w.store ≤ (step (byPersistenceIdProjection "a") retryAndFail w move).store)
        (opened (byPersistenceIdProjection "a"))
        [.append (firstEvent "a" 1), .start, .tick, .read, .answer, .failed, .stop]) ∧
    ((run (step (byTagProjection {}) retryAndFail) (opened (byTagProjection {}))
        [.append (firstEvent "a" 1), .start, .tick, .read, .read, .answer, .handled,
          .saved]).StepsOverNothing (byTagProjection {}) ∧
      Machine.Along (step (byTagProjection {}) retryAndFail)
        (fun w move => w.store ≤ (step (byTagProjection {}) retryAndFail w move).store)
        (opened (byTagProjection {}))
        [.append (firstEvent "a" 1), .start, .tick, .read, .read, .answer, .handled, .saved]) := by
  refine projection_stepsOverNothing "a" {} retryAndFail
    [.append (firstEvent "a" 1), .start, .tick, .read, .answer, .failed, .stop]
    [.append (firstEvent "a" 1), .start, .tick, .read, .read, .answer, .handled, .saved]
    ⟨fun _ _ => ⟨by decide +kernel, fun _ hinst => (nomatch hinst)⟩, trivial, trivial, trivial,
      trivial, ?_, trivial, trivial, trivial⟩
  rintro _ ⟨⟩ _ _ ⟨⟩ henvelopes e he _ _
  obtain rfl := some.inj henvelopes
  obtain rfl : e = firstEvent "a" 1 := mem_singleton.1 he
  exact .inl (mem_map.2 ⟨tagged (firstEvent "a" 1), by decide +kernel, rfl⟩)

/-- An event of another id is appended in the millisecond of the cursor and lies before
it. -/
theorem not_stepsOverNothing_sameMillisecond :
    ¬ (run (step (byTagProjection {}) retryAndFail) (opened (byTagProjection {}))
      [.append (firstEvent "b" 1), .start, .tick, .read, .read, .answer, .handled, .saved,
        .append (firstEvent "a" 1)]).StepsOverNothing (byTagProjection {}) := by
  intro h
  refine absurd (h (firstEvent "a" 1) ?_ rfl ?_) ?_ <;> decide +kernel

end ActorTs.Persistence
