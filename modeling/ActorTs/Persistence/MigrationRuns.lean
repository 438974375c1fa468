import ActorTs.Persistence.JournalMigration

/-!
# Migrations that are cut short and run again

The target holds each stream up to some event, or nothing of it yet. Whatever a run is cut short at,
the next one goes on from there; with `skipExistingPersistenceIds` it does so only where no stream
was left half copied.
-/

open List Option OrderedMap Nat Outcome

namespace ActorTs.Persistence

open InMemoryJournal

variable {W : Type} {plan : MigrationPlan W} {clock : JsString → ℕ → ℚ}
  {persistenceId other : JsString}

/-! ## What is there to copy and what has been copied -/

namespace SourceJournal

variable (source : SourceJournal W)

def survivors (persistenceId : JsString) : List (PersistentEvent W) := source.read persistenceId 1

/-- The number that the surviving events of a stream start behind. -/
def start (persistenceId : JsString) : ℕ :=
  source.highestSeq persistenceId - (source.survivors persistenceId).length

/-- Every stream is contiguous behind its compaction, and reads answer what survives. -/
structure Contiguous : Prop where
  holding : ∀ persistenceId, Holding (source.start persistenceId)
    ((source.survivors persistenceId).map PersistentEvent.event) (source.survivors persistenceId)
  length_le : ∀ persistenceId,
    (source.survivors persistenceId).length ≤ source.highestSeq persistenceId
  read : ∀ persistenceId fromSeq, source.read persistenceId (fromSeq + 1) =
    (source.survivors persistenceId).filter fun e => fromSeq < e.sequenceNr.value

variable {source}

lemma Contiguous.highestSeq (h : source.Contiguous) (persistenceId : JsString) :
    source.highestSeq persistenceId =
      source.start persistenceId + (source.survivors persistenceId).length :=
  (Nat.sub_add_cancel (h.length_le persistenceId)).symm

lemma Contiguous.read_eq_drop (h : source.Contiguous) (persistenceId : JsString) (fromSeq : ℕ) :
    source.read persistenceId (fromSeq + 1) =
      (source.survivors persistenceId).drop (fromSeq - source.start persistenceId) := by
  rw [h.read, (h.holding persistenceId).filter_eq_drop]

end SourceJournal

/-- `copied` is the source's event as the target is to hold it. -/
def IsCopy (plan : MigrationPlan W) (e copied : PersistentEvent W) : Prop :=
  copied.sequenceNr = e.sequenceNr ∧
    plan.roundTrip (plan.options.eventTransform e).event = .ok copied.event ∧
      copied.tags = (applyTagPolicy (plan.options.eventTransform e).tags
        plan.options.invalidTags).tags

/-- The target holds the first `k` surviving events of a stream and no more. -/
def CopiedTo (plan : MigrationPlan W) (target : InMemoryJournal W) (persistenceId : JsString)
    (k : ℕ) : Prop :=
  target.highestSeq persistenceId = plan.source.start persistenceId + k ∧
    List.Forall₂ (IsCopy plan) ((plan.source.survivors persistenceId).take k)
      (target.stream persistenceId)

def Untouched (target : InMemoryJournal W) (persistenceId : JsString) : Prop :=
  target.highestSeq persistenceId = 0 ∧ target.stream persistenceId = []

/-- The target holds a stream as far as the source has it. -/
def Complete (plan : MigrationPlan W) (target : InMemoryJournal W) (persistenceId : JsString) :
    Prop :=
  CopiedTo plan target persistenceId (plan.source.survivors persistenceId).length

/-- What a run finds and leaves. -/
structure Resumable (plan : MigrationPlan W) (s : MigrationState W) : Prop where
  streams : ∀ persistenceId, Untouched s.target persistenceId ∨
    ∃ k ≤ (plan.source.survivors persistenceId).length, CopiedTo plan s.target persistenceId k
  saved : ∀ persistenceId ∈ s.saved, Complete plan s.target persistenceId
  unsaved : plan.options.progress = false → s.saved = []

/-- No stream is half copied. -/
def Whole (plan : MigrationPlan W) (s : MigrationState W) : Prop :=
  ∀ persistenceId, Untouched s.target persistenceId ∨ Complete plan s.target persistenceId

/-! ## The other streams -/

/-- The target holds every stream but one as before. -/
def SameOthers (persistenceId : JsString) (s t : MigrationState W) : Prop :=
  ∀ other ≠ persistenceId, t.target.stream other = s.target.stream other ∧
    t.target.highestSeq other = s.target.highestSeq other

namespace SameOthers

variable {s t u : MigrationState W}

lemma refl (s : MigrationState W) : SameOthers persistenceId s s := fun _ _ => ⟨rfl, rfl⟩

section

variable (h : SameOthers persistenceId s t)
include h

lemma trans (h' : SameOthers persistenceId t u) : SameOthers persistenceId s u := fun other hne =>
  ⟨((h' other hne).1).trans (h other hne).1, ((h' other hne).2).trans (h other hne).2⟩

lemma untouched (hne : other ≠ persistenceId) :
    Untouched t.target other ↔ Untouched s.target other := by
  rw [Untouched, Untouched, (h other hne).1, (h other hne).2]

lemma copiedTo (hne : other ≠ persistenceId) (k : ℕ) :
    CopiedTo plan t.target other k ↔ CopiedTo plan s.target other k := by
  rw [CopiedTo, CopiedTo, (h other hne).1, (h other hne).2]

lemma prepareStream (hne : other ≠ persistenceId) :
    prepareStream plan other t.target = prepareStream plan other s.target := by
  rw [ActorTs.Persistence.prepareStream, (h other hne).2, ActorTs.Persistence.prepareStream]

end

end SameOthers

lemma Resumable.of_sameOthers {s t : MigrationState W} (h : Resumable plan s)
    (hsame : SameOthers persistenceId s t) (hsaved : t.saved = s.saved)
    (hnew : persistenceId ∉ s.saved) {k : ℕ}
    (hk : k ≤ (plan.source.survivors persistenceId).length)
    (hcopied : CopiedTo plan t.target persistenceId k) : Resumable plan t where
  streams other := by
    by_cases hne : other = persistenceId
    · rw [hne]
      exact .inr ⟨k, hk, hcopied⟩
    · exact (h.streams other).imp (hsame.untouched hne).2
        fun ⟨k', hk', hcopied'⟩ => ⟨k', hk', (hsame.copiedTo hne k').2 hcopied'⟩
  saved other hother := by
    rw [hsaved] at hother
    have hne : other ≠ persistenceId := fun heq => hnew (heq ▸ hother)
    exact (hsame.copiedTo hne _).2 (h.saved other hother)
  unsaved hprogress := hsaved.trans (h.unsaved hprogress)

/-! ## Nothing is refused once the copy has begun -/

variable {s t : MigrationState W} {entry : PreparedEntry W} {expected : ℕ}

lemma appendEntry_eq_ok (h : appendEntry plan clock persistenceId entry expected s = .ok t) :
    t.saved = s.saved ∧ ∃ appended, s.target.append plan.roundTrip
      (clock persistenceId (expected + 1)) persistenceId [⟨entry.event, entry.tags⟩] expected =
        .ok (t.target, appended) := by
  unfold appendEntry at h
  split at h
  · next target appended happend =>
    cases h
    exact ⟨rfl, appended, happend⟩
  · cases h

lemma appendEntry_eq_error {e : MigrationError}
    (h : appendEntry plan clock persistenceId entry expected s = .error e) : ¬ e.IsRefusal := by
  unfold appendEntry at h
  split at h
  · cases h
  · cases h
    exact id

lemma appendEntry_sameOthers (h : appendEntry plan clock persistenceId entry expected s = .ok t) :
    SameOthers persistenceId s t := by
  obtain ⟨-, appended, happend⟩ := appendEntry_eq_ok h
  exact fun other hne => append_others hne happend

lemma appendEntries_quiet (entries : List (PreparedEntry W)) (result : MigrateJournalsResult) :
    (appendEntries plan clock persistenceId expected entries result).Meets s (fun _ => True)
      (fun e => ¬ e.IsRefusal) fun _ t => SameOthers persistenceId s t := by
  induction entries generalizing s expected result with
  | nil => exact .pure (.refl s)
  | cons entry entries ih =>
    refine .bind_write (fun e he => appendEntry_eq_error he) fun t ht => ⟨trivial, ?_⟩
    exact (ih _).mono (fun _ _ => trivial) (fun _ he => he)
      fun _ u htu => (appendEntry_sameOthers ht).trans htu

lemma raiseCompactionMark_sameOthers (throughSeq : ℕ) :
    SameOthers persistenceId s
      { s with target := s.target.raiseCompactionMark persistenceId throughSeq } :=
  fun _ hne => ⟨stream_raiseCompactionMark_of_ne hne throughSeq,
    highestSeq_raiseCompactionMark_of_ne hne throughSeq⟩

variable {target : InMemoryJournal W} {stream : PreparedStream W}

lemma prepareStream_eq_some (h : prepareStream plan persistenceId target = .ok (some stream)) :
    stream.targetHighestSeq = target.highestSeq persistenceId ∧
      stream.firstSourceSeq = firstSourceSeq plan persistenceId
        (plan.source.read persistenceId (target.highestSeq persistenceId + 1)) ∧
      prepareEntries plan persistenceId (stream.firstSourceSeq - 1)
        (plan.source.read persistenceId (target.highestSeq persistenceId + 1)) =
          .ok stream.entries ∧
      ¬ (stream.targetHighestSeq + 1 < stream.firstSourceSeq ∧
        plan.recordsCompactionMarks = false) := by
  unfold prepareStream at h
  dsimp only at h
  split at h
  · cases h
  · split at h
    · cases h
    · next hmark =>
      obtain ⟨entries, hentries, h⟩ := bind_eq_ok h
      cases h
      exact ⟨rfl, rfl, hentries, hmark⟩

lemma prepareStream_eq_none (h : prepareStream plan persistenceId target = .ok none) :
    plan.options.skipExistingPersistenceIds = true ∧ 0 < target.highestSeq persistenceId := by
  unfold prepareStream at h
  dsimp only at h
  split at h
  · next hskip => exact hskip
  · split at h
    · cases h
    · obtain ⟨entries, _, h⟩ := bind_eq_ok h
      cases h

lemma adoptMark_quiet (result : MigrateJournalsResult)
    (hmark : ¬ (stream.targetHighestSeq + 1 < stream.firstSourceSeq ∧
      plan.recordsCompactionMarks = false)) :
    (adoptMark plan persistenceId stream result).Meets s (fun _ => True)
      (fun e => ¬ e.IsRefusal) fun _ t => SameOthers persistenceId s t := by
  unfold adoptMark
  split
  · next hfirst =>
    rw [if_neg fun hnone => hmark ⟨hfirst, hnone⟩]
    refine .bind_write (fun _ he => nomatch he) fun t ht => ⟨trivial, .pure ?_⟩
    cases ht
    exact raiseCompactionMark_sameOthers _
  · exact .pure (.refl s)

lemma saveProgress_quiet (completed : List JsString) :
    (saveProgress plan completed).Meets s (fun _ => True) (fun e => ¬ e.IsRefusal)
      fun _ t => SameOthers persistenceId s t := by
  unfold saveProgress
  split
  · refine .write (fun _ he => nomatch he) fun t ht => ⟨trivial, ?_⟩
    cases ht
    exact .refl s
  · exact .pure (.refl s)

lemma copyStream_quiet (completed : List JsString) (result : MigrateJournalsResult)
    (hprepared : persistenceId ∉ completed →
      ∃ prepared, prepareStream plan persistenceId s.target = .ok prepared) :
    (copyStream plan clock persistenceId completed result).Meets s (fun _ => True)
      (fun e => ¬ e.IsRefusal) fun next t => SameOthers persistenceId s t ∧
        persistenceId ∈ next.1 ∧ completed ⊆ next.1 := by
  unfold copyStream
  split
  · next hmem => exact .pure ⟨.refl s, hmem, fun _ h => h⟩
  · next hmem =>
    obtain ⟨prepared, hprepared⟩ := hprepared hmem
    refine .bind_get (.bind_lift (fun e he => by rw [hprepared] at he; cases he)
      fun prepared' hprepared' => ?_)
    cases prepared' with
    | none =>
      refine (saveProgress_quiet _).bind fun _ t hst => .pure ⟨hst, ?_, ?_⟩
      · exact mem_append_right _ (mem_singleton_self _)
      · exact subset_append_left _ _
    | some stream =>
      obtain ⟨-, -, -, hmark⟩ := prepareStream_eq_some hprepared'
      refine (adoptMark_quiet _ hmark).bind fun marked t hst => ?_
      refine (appendEntries_quiet _ _).bind fun copied u htu => ?_
      refine (saveProgress_quiet _).bind fun _ v huv => .pure ⟨(hst.trans htu).trans huv, ?_, ?_⟩
      · exact mem_append_right _ (mem_singleton_self _)
      · exact subset_append_left _ _

lemma preflight_eq_ok {completed persistenceIds : List JsString}
    (h : preflight plan target completed persistenceIds = .ok ()) :
    ∀ persistenceId ∈ persistenceIds, persistenceId ∉ completed →
      ∃ prepared, prepareStream plan persistenceId target = .ok prepared := by
  induction persistenceIds with
  | nil => exact fun _ hmem => nomatch hmem
  | cons first persistenceIds ih =>
    unfold preflight at h
    intro persistenceId hmem hnew
    split at h
    · next hdone =>
      rcases mem_cons.1 hmem with rfl | hmem
      · exact absurd hdone hnew
      · exact ih h persistenceId hmem hnew
    · obtain ⟨prepared, hprepared, h⟩ := bind_eq_ok h
      rcases mem_cons.1 hmem with rfl | hmem
      · exact ⟨prepared, hprepared⟩
      · exact ih h persistenceId hmem hnew

lemma copyStreams_quiet (persistenceIds completed : List JsString)
    (result : MigrateJournalsResult)
    (hprepared : ∀ persistenceId ∈ persistenceIds, persistenceId ∉ completed →
      ∃ prepared, prepareStream plan persistenceId s.target = .ok prepared) :
    (copyStreams plan clock completed result persistenceIds).Meets s (fun _ => True)
      (fun e => ¬ e.IsRefusal) fun _ _ => True := by
  induction persistenceIds generalizing s completed result with
  | nil => exact .pure trivial
  | cons first persistenceIds ih =>
    refine (copyStream_quiet completed result (hprepared first mem_cons_self)).bind
      fun next t hnext => ?_
    obtain ⟨hsame, hfirst, hcompleted⟩ := hnext
    refine ih _ _ fun persistenceId hmem hnew => ?_
    have hne : persistenceId ≠ first := fun heq => hnew (heq ▸ hfirst)
    rw [hsame.prepareStream hne]
    exact hprepared persistenceId (mem_cons_of_mem _ hmem) fun hdone =>
      hnew (hcompleted hdone)

lemma migrateBetweenJournals_apply :
    migrateBetweenJournals plan clock s =
      match preflight plan s.target (if plan.options.progress then s.saved else [])
        plan.allPersistenceIds with
      | .error e => ⟨[], s, .error e⟩
      | .ok () => copyStreams plan clock (if plan.options.progress then s.saved else []) {}
          plan.allPersistenceIds s := by
  have hget : migrateBetweenJournals plan clock s = (Interruptible.lift (preflight plan s.target
        (if plan.options.progress then s.saved else []) plan.allPersistenceIds) >>= fun _ =>
          copyStreams plan clock (if plan.options.progress then s.saved else []) {}
            plan.allPersistenceIds) s := rfl
  rw [hget]
  cases preflight plan s.target (if plan.options.progress then s.saved else [])
    plan.allPersistenceIds <;> rfl

lemma not_written_of_isRefusal {e : MigrationError}
    (h : (migrateBetweenJournals plan clock s).outcome = .error e) (hrefusal : e.IsRefusal) :
    (migrateBetweenJournals plan clock s).written = [] ∧
      (migrateBetweenJournals plan clock s).final = s := by
  rw [migrateBetweenJournals_apply] at h ⊢
  split at h
  · exact ⟨rfl, rfl⟩
  · next hpreflight =>
    exact absurd hrefusal
      ((copyStreams_quiet plan.allPersistenceIds _ {} (preflight_eq_ok hpreflight)).fault e h)

/-! ## Each stream gets as far as the source has it -/

/-- The entry that is made of a source event. -/
def IsPrepared (plan : MigrationPlan W) (e : PersistentEvent W) (entry : PreparedEntry W) : Prop :=
  entry.event = (plan.options.eventTransform e).event ∧
    entry.tags = (applyTagPolicy (plan.options.eventTransform e).tags
      plan.options.invalidTags).tags

lemma prepareEntries_eq_ok {events : List (PersistentEvent W)}
    {entries : List (PreparedEntry W)}
    (h : prepareEntries plan persistenceId expected events = .ok entries) :
    List.Forall₂ (IsPrepared plan) events entries := by
  induction events generalizing expected entries with
  | nil =>
    cases h
    exact .nil
  | cons e events ih =>
    unfold prepareEntries at h
    split at h
    · cases h
    · dsimp only at h
      split at h
      · cases h
      · obtain ⟨later, hlater, h⟩ := bind_eq_ok h
        cases h
        exact .cons ⟨rfl, rfl⟩ (ih hlater)

section Contiguous

variable {k : ℕ} (hcontiguous : plan.source.Contiguous) {rest : List (PersistentEvent W)}
  {e : PersistentEvent W}
include hcontiguous

lemma sequenceNr_of_drop (h : (plan.source.survivors persistenceId).drop k = e :: rest) :
    e.sequenceNr = .natural (plan.source.start persistenceId + k + 1) := by
  have hholding := (hcontiguous.holding persistenceId).drop (plan.source.start persistenceId + k)
  rw [(hcontiguous.holding persistenceId).filter_eq_drop, Nat.add_sub_cancel_left, h,
    max_eq_right (le_add_right _ _)] at hholding
  exact hholding.of_cons.1

lemma firstSourceSeq_drop (hk : k ≤ (plan.source.survivors persistenceId).length) :
    firstSourceSeq plan persistenceId ((plan.source.survivors persistenceId).drop k) =
      plan.source.start persistenceId + k + 1 := by
  cases hdrop : (plan.source.survivors persistenceId).drop k with
  | nil =>
    have hlength : k = (plan.source.survivors persistenceId).length :=
      hk.antisymm (drop_eq_nil_iff.1 hdrop)
    rw [firstSourceSeq, hcontiguous.highestSeq, hlength]
  | cons e rest =>
    rw [firstSourceSeq, sequenceNr_of_drop hcontiguous hdrop, SequenceNr.value_natural]

lemma CopiedTo.append (hcopied : CopiedTo plan s.target persistenceId k)
    (hdrop : (plan.source.survivors persistenceId).drop k = e :: rest)
    (hprepared : IsPrepared plan e entry)
    (h : appendEntry plan clock persistenceId entry (plan.source.start persistenceId + k) s =
      .ok t) : CopiedTo plan t.target persistenceId (k + 1) := by
  obtain ⟨-, appended, happend⟩ := appendEntry_eq_ok h
  obtain ⟨-, payload, hpayload, hstream, hhead⟩ := append_one_eq_ok happend
  refine ⟨hhead, ?_⟩
  rw [hstream, take_add, hdrop]
  refine rel_append hcopied.2 (.cons ⟨?_, ?_, hprepared.2⟩ .nil)
  · exact (sequenceNr_of_drop hcontiguous hdrop).symm
  · rwa [← hprepared.1]

lemma appendEntries_resumable (entries : List (PreparedEntry W))
    (result : MigrateJournalsResult) (hresumable : Resumable plan s)
    (hnew : persistenceId ∉ s.saved) (hk : k ≤ (plan.source.survivors persistenceId).length)
    (hcopied : CopiedTo plan s.target persistenceId k)
    (hprepared : List.Forall₂ (IsPrepared plan)
      ((plan.source.survivors persistenceId).drop k) entries) :
    (appendEntries plan clock persistenceId (plan.source.start persistenceId + k) entries
      result).Meets s (Resumable plan) (fun _ => True) fun _ t =>
        Resumable plan t ∧ t.saved = s.saved ∧ SameOthers persistenceId s t ∧
          Complete plan t.target persistenceId := by
  induction entries generalizing s k result with
  | nil =>
    have hlength : k = (plan.source.survivors persistenceId).length :=
      hk.antisymm (drop_eq_nil_iff.1 (forall₂_nil_right_iff.1 hprepared))
    refine .pure ⟨hresumable, rfl, .refl s, ?_⟩
    rwa [Complete, ← hlength]
  | cons entry entries ih =>
    obtain ⟨e, rest, he, hrest, hdrop⟩ := forall₂_cons_right_iff.1 hprepared
    have hlt : k < (plan.source.survivors persistenceId).length := by
      have hlength := congrArg length hdrop
      rw [length_drop, length_cons] at hlength
      omega
    have hlater : (plan.source.survivors persistenceId).drop (k + 1) = rest := by
      rw [← drop_drop, hdrop, drop_one, tail_cons]
    refine .bind_write (fun _ _ => trivial) fun t ht => ?_
    have hcopied' := hcopied.append hcontiguous hdrop he ht
    have hsame := appendEntry_sameOthers ht
    have hsaved := (appendEntry_eq_ok ht).1
    have hresumable' := hresumable.of_sameOthers hsame hsaved hnew hlt hcopied'
    refine ⟨hresumable', ?_⟩
    refine (ih (k := k + 1) _ hresumable' (hsaved ▸ hnew) hlt hcopied' (hlater ▸ hrest)).mono
      (fun _ h => h) (fun _ h => h) fun _ u hu => ?_
    exact ⟨hu.1, hu.2.1.trans hsaved, hsame.trans hu.2.2.1, hu.2.2.2⟩

lemma prepareStream_position {stream : PreparedStream W} (hresumable : Resumable plan s)
    (h : prepareStream plan persistenceId s.target = .ok (some stream)) :
    ∃ k ≤ (plan.source.survivors persistenceId).length,
      stream.firstSourceSeq = plan.source.start persistenceId + k + 1 ∧
      List.Forall₂ (IsPrepared plan) ((plan.source.survivors persistenceId).drop k) stream.entries ∧
      (CopiedTo plan s.target persistenceId k ∧
          stream.targetHighestSeq + 1 = stream.firstSourceSeq ∨
        k = 0 ∧ Untouched s.target persistenceId ∧ stream.targetHighestSeq = 0) := by
  obtain ⟨hhead, hfirst, hentries, -⟩ := prepareStream_eq_some h
  rw [hcontiguous.read_eq_drop] at hfirst hentries
  rcases hresumable.streams persistenceId with huntouched | ⟨k, hk, hcopied⟩
  · rw [huntouched.1, Nat.zero_sub] at hfirst hentries
    refine ⟨0, zero_le _, ?_, prepareEntries_eq_ok hentries, .inr ⟨rfl, huntouched, ?_⟩⟩
    · rw [hfirst, firstSourceSeq_drop hcontiguous (zero_le _)]
    · rw [hhead, huntouched.1]
  · rw [hcopied.1, Nat.add_sub_cancel_left] at hfirst hentries
    rw [firstSourceSeq_drop hcontiguous hk] at hfirst
    refine ⟨k, hk, hfirst, prepareEntries_eq_ok hentries, .inl ⟨hcopied, ?_⟩⟩
    rw [hhead, hcopied.1, hfirst]

end Contiguous

lemma adoptMark_resumable {k : ℕ} (result : MigrateJournalsResult) (hresumable : Resumable plan s)
    (hnew : persistenceId ∉ s.saved) (hk : k ≤ (plan.source.survivors persistenceId).length)
    (hfirst : stream.firstSourceSeq = plan.source.start persistenceId + k + 1)
    (hposition : CopiedTo plan s.target persistenceId k ∧
        stream.targetHighestSeq + 1 = stream.firstSourceSeq ∨
      k = 0 ∧ Untouched s.target persistenceId ∧ stream.targetHighestSeq = 0) :
    (adoptMark plan persistenceId stream result).Meets s (Resumable plan) (fun _ => True)
      fun _ t => Resumable plan t ∧ t.saved = s.saved ∧ SameOthers persistenceId s t ∧
        CopiedTo plan t.target persistenceId k := by
  unfold adoptMark
  split
  · next hgap =>
    split
    · exact .lift (fun _ _ => trivial) fun _ ha => nomatch ha
    · obtain ⟨rfl, huntouched, -⟩ : k = 0 ∧ Untouched s.target persistenceId ∧
          stream.targetHighestSeq = 0 :=
        hposition.resolve_left fun hhead => absurd hhead.2 (Nat.ne_of_lt hgap)
      refine .bind_write (fun _ _ => trivial) fun t ht => ?_
      have hsame : SameOthers persistenceId s t := by
        cases ht
        exact raiseCompactionMark_sameOthers _
      have hcopied : CopiedTo plan t.target persistenceId 0 := by
        cases ht
        refine ⟨?_, ?_⟩
        · rw [highestSeq_raiseCompactionMark, huntouched.1, hfirst,
            Nat.add_sub_cancel, Nat.zero_max]
        · rw [stream_raiseCompactionMark, huntouched.2]
          exact .nil
      have hsaved : t.saved = s.saved := by
        cases ht
        rfl
      have hresumable' := hresumable.of_sameOthers hsame hsaved hnew hk hcopied
      exact ⟨hresumable', .pure ⟨hresumable', hsaved, hsame, hcopied⟩⟩
  · next hgap =>
    refine .pure ⟨hresumable, rfl, .refl s, ?_⟩
    rcases hposition with ⟨hcopied, -⟩ | ⟨rfl, huntouched, hhead⟩
    · exact hcopied
    · have hstart : plan.source.start persistenceId = 0 := by omega
      refine ⟨?_, ?_⟩
      · rw [huntouched.1, hstart]
      · rw [huntouched.2]
        exact .nil

/-- Between two streams: what is done is complete, and where existing streams are skipped none
is half copied. -/
structure Underway (plan : MigrationPlan W) (completed : List JsString) (s : MigrationState W) :
    Prop where
  resumable : Resumable plan s
  done : ∀ persistenceId ∈ completed, Complete plan s.target persistenceId
  saved : s.saved ⊆ completed
  whole : plan.options.skipExistingPersistenceIds = true → Whole plan s

variable {completed : List JsString}

lemma Underway.saveProgress (h : Underway plan completed s) :
    (saveProgress plan completed).Meets s (Resumable plan) (fun _ => True)
      fun _ t => Underway plan completed t := by
  unfold ActorTs.Persistence.saveProgress
  split
  · next hprogress =>
    refine .write (fun _ _ => trivial) fun t ht => ?_
    cases ht
    have hresumable : Resumable plan { s with saved := completed } :=
      ⟨h.resumable.streams, h.done, fun hnone => by rw [hprogress] at hnone; cases hnone⟩
    exact ⟨hresumable, hresumable, h.done, List.Subset.refl _, h.whole⟩
  · exact .pure h

lemma Underway.concat (h : Underway plan completed s) (hresumable : Resumable plan t)
    (hsaved : t.saved = s.saved) (hsame : SameOthers persistenceId s t)
    (hcomplete : Complete plan t.target persistenceId) :
    Underway plan (completed ++ [persistenceId]) t where
  resumable := hresumable
  done other hother := by
    by_cases hne : other = persistenceId
    · rwa [hne]
    · have hdone : other ∈ completed := (mem_append.1 hother).resolve_right
        fun hlast => hne (mem_singleton.1 hlast)
      exact (hsame.copiedTo hne _).2 (h.done other hdone)
  saved := hsaved ▸ List.Subset.trans h.saved (subset_append_left _ _)
  whole hskip other := by
    by_cases hne : other = persistenceId
    · rw [hne]
      exact .inr hcomplete
    · exact (h.whole hskip other).imp (hsame.untouched hne).2 (hsame.copiedTo hne _).2

lemma copyStream_underway (hcontiguous : plan.source.Contiguous) (result : MigrateJournalsResult)
    (h : Underway plan completed s) :
    (copyStream plan clock persistenceId completed result).Meets s (Resumable plan)
      (fun _ => True) fun next t => Underway plan next.1 t ∧ persistenceId ∈ next.1 ∧
        completed ⊆ next.1 := by
  unfold copyStream
  split
  · next hdone => exact .pure ⟨h, hdone, List.Subset.refl _⟩
  · next hnew =>
    have hlast : persistenceId ∈ completed ++ [persistenceId] :=
      mem_append_right _ (mem_singleton_self _)
    refine .bind_get (.bind_lift (fun _ _ => trivial) fun prepared hprepared => ?_)
    cases prepared with
    | none =>
      -- What is skipped has data, and what has data is all there.
      obtain ⟨hskip, hdata⟩ := prepareStream_eq_none hprepared
      have hcomplete : Complete plan s.target persistenceId :=
        (h.whole hskip persistenceId).resolve_left fun huntouched =>
          absurd huntouched.1 (ne_of_gt hdata)
      refine (h.concat h.resumable rfl (.refl s) hcomplete).saveProgress.bind fun _ t ht => ?_
      exact .pure ⟨ht, hlast, subset_append_left _ _⟩
    | some stream =>
      have hunsaved : persistenceId ∉ s.saved := fun hsaved => hnew (h.saved hsaved)
      obtain ⟨k, hk, hfirst, hentries, hposition⟩ :=
        prepareStream_position hcontiguous h.resumable hprepared
      refine (adoptMark_resumable _ h.resumable hunsaved hk hfirst
        hposition).bind fun marked t ht => ?_
      obtain ⟨hresumable, hsaved, hsame, hcopied⟩ := ht
      rw [hfirst, Nat.add_sub_cancel]
      refine (appendEntries_resumable hcontiguous _ _ hresumable (hsaved ▸ hunsaved) hk hcopied
        hentries).bind fun copied u hu => ?_
      obtain ⟨hresumable', hsaved', hsame', hcomplete⟩ := hu
      refine (h.concat hresumable' (hsaved'.trans hsaved) (hsame.trans hsame')
        hcomplete).saveProgress.bind fun _ v hv => ?_
      exact .pure ⟨hv, hlast, subset_append_left _ _⟩

lemma copyStreams_underway (hcontiguous : plan.source.Contiguous) (persistenceIds : List JsString)
    (result : MigrateJournalsResult) (h : Underway plan completed s) :
    (copyStreams plan clock completed result persistenceIds).Meets s (Resumable plan)
      (fun _ => True) fun _ t => ∀ persistenceId, persistenceId ∈ completed ∨
        persistenceId ∈ persistenceIds → Complete plan t.target persistenceId := by
  induction persistenceIds generalizing s completed result with
  | nil =>
    exact .pure fun persistenceId hmem =>
      h.done persistenceId (hmem.resolve_right not_mem_nil)
  | cons first persistenceIds ih =>
    refine (copyStream_underway hcontiguous result h).bind fun next t ht => ?_
    obtain ⟨hunderway, hfirst, hcompleted⟩ := ht
    refine (ih next.2 hunderway).mono (fun _ h => h) (fun _ h => h)
      fun _ u hu persistenceId hmem => hu persistenceId ?_
    rcases hmem with hmem | hmem
    · exact .inl (hcompleted hmem)
    · rcases mem_cons.1 hmem with rfl | hmem
      · exact .inl hfirst
      · exact .inr hmem

/-! ## A journal in memory as the source -/

/-- A journal each of whose streams holds payloads in a row behind a deletion. -/
def InMemoryJournal.asSource (journal : InMemoryJournal W)
    (h : ∀ persistenceId, ∃ start payloads, journal.Holds persistenceId start payloads) :
    SourceJournal W where
  persistenceIds := journal.streams.keys
  read persistenceId fromSeq := journal.read persistenceId fromSeq none
  highestSeq := journal.highestSeq
  numbered_read persistenceId fromSeq e he := by
    obtain ⟨start, payloads, hholds⟩ := h persistenceId
    obtain ⟨n, hn⟩ := hholds.1.numbered (mem_filter.1 he).1
    exact ⟨n, hn⟩

lemma InMemoryJournal.asSource_survivors {journal : InMemoryJournal W}
    (h : ∀ persistenceId, ∃ start payloads, journal.Holds persistenceId start payloads)
    (persistenceId : JsString) :
    (journal.asSource h).survivors persistenceId = journal.stream persistenceId := by
  obtain ⟨start, payloads, hholds⟩ := h persistenceId
  refine filter_eq_self.2 fun e he => decide_eq_true ?_
  have hbounds := hholds.1.bounds he
  rw [getD_none, hholds.2]
  omega

lemma InMemoryJournal.contiguous_asSource {journal : InMemoryJournal W}
    (h : ∀ persistenceId, ∃ start payloads, journal.Holds persistenceId start payloads) :
    (journal.asSource h).Contiguous where
  holding persistenceId := by
    obtain ⟨start, payloads, hholds⟩ := h persistenceId
    have hstart : (journal.asSource h).start persistenceId = start := by
      have hhead : (journal.asSource h).highestSeq persistenceId = start + payloads.length :=
        hholds.2
      rw [SourceJournal.start, asSource_survivors, hholds.1.length_eq, hhead, Nat.add_sub_cancel]
    rw [hstart, asSource_survivors, hholds.1.map_event]
    exact hholds.1
  length_le persistenceId := by
    obtain ⟨start, payloads, hholds⟩ := h persistenceId
    have hhead : (journal.asSource h).highestSeq persistenceId = start + payloads.length :=
      hholds.2
    rw [asSource_survivors, hholds.1.length_eq, hhead]
    exact le_add_left _ _
  read persistenceId fromSeq := by
    obtain ⟨start, payloads, hholds⟩ := h persistenceId
    rw [asSource_survivors]
    refine filter_congr fun e he => ?_
    have hbounds := hholds.1.bounds he
    rw [getD_none, hholds.2, decide_eq_decide]
    omega

/-! ## Runs, one after the other -/

/-- A run that ends, or is cut short, between two of its writes. -/
def CutShort (plan : MigrationPlan W) (s t : MigrationState W) : Prop :=
  ∃ clock, t = s ∨ t ∈ (migrateBetweenJournals plan clock s).written

lemma untouched_empty (persistenceId : JsString) :
    Untouched (W := W) {} persistenceId :=
  ⟨rfl, rfl⟩

lemma migrateBetweenJournals_meets (hcontiguous : plan.source.Contiguous)
    (hresumable : Resumable plan s)
    (hwhole : plan.options.skipExistingPersistenceIds = true → Whole plan s) :
    (∀ t ∈ (migrateBetweenJournals plan clock s).written, Resumable plan t) ∧
      ∀ result, (migrateBetweenJournals plan clock s).outcome = .ok result →
        ∀ persistenceId ∈ plan.allPersistenceIds,
          Complete plan (migrateBetweenJournals plan clock s).final.target persistenceId := by
  have hunderway : Underway plan (if plan.options.progress then s.saved else []) s := by
    refine ⟨hresumable, fun persistenceId hmem => ?_, fun persistenceId hmem => ?_, hwhole⟩
    · cases hprogress : plan.options.progress with
      | false =>
        rw [hprogress, if_neg Bool.false_ne_true] at hmem
        cases hmem
      | true =>
        rw [hprogress, if_pos rfl] at hmem
        exact hresumable.saved persistenceId hmem
    · cases hprogress : plan.options.progress with
      | false =>
        rw [hresumable.unsaved hprogress] at hmem
        cases hmem
      | true => rwa [if_pos rfl]
  rw [migrateBetweenJournals_apply]
  split
  · exact ⟨fun _ ht => (nomatch ht), fun _ hresult => nomatch hresult⟩
  · exact ⟨(copyStreams_underway hcontiguous _ {} hunderway).written,
      fun result hresult persistenceId hmem =>
        (copyStreams_underway hcontiguous _ {} hunderway).post result hresult persistenceId
          (.inr hmem)⟩

/-- Whatever the runs before were cut short at, a run that returns leaves every migrated stream
as the source has it, and a run that refuses the source has written nothing. Where existing
streams are skipped, the runs before were cut short between two streams. -/
theorem migrateBetweenJournals_faithful (hcontiguous : plan.source.Contiguous)
    (htags : ∀ e, (plan.options.eventTransform e).tags = e.tags)
    (hruns : Relation.ReflTransGen (fun s t => CutShort plan s t ∧
      (plan.options.skipExistingPersistenceIds = true → Whole plan t)) {} s)
    (clock : JsString → ℕ → ℚ) :
    (∀ result, (migrateBetweenJournals plan clock s).outcome = .ok result →
      ∀ persistenceId ∈ plan.allPersistenceIds,
        (migrateBetweenJournals plan clock s).final.target.highestSeq persistenceId =
          plan.source.highestSeq persistenceId ∧
        List.Forall₂ (fun e copied => copied.sequenceNr = e.sequenceNr ∧
            plan.roundTrip (plan.options.eventTransform e).event = .ok copied.event ∧
            copied.tags = (applyTagPolicy e.tags plan.options.invalidTags).tags ∧
            (plan.options.invalidTags = .refuse → copied.tags = e.tags))
          (plan.source.survivors persistenceId)
          ((migrateBetweenJournals plan clock s).final.target.stream persistenceId)) ∧
    ∀ e, (migrateBetweenJournals plan clock s).outcome = .error e → e.IsRefusal →
      (migrateBetweenJournals plan clock s).written = [] ∧
        (migrateBetweenJournals plan clock s).final = s := by
  have hreached : Resumable plan s ∧
      (plan.options.skipExistingPersistenceIds = true → Whole plan s) := by
    induction hruns with
    | refl =>
      exact ⟨⟨fun p => .inl (untouched_empty p), fun _ hmem => (nomatch hmem), fun _ => rfl⟩,
        fun _ p => .inl (untouched_empty p)⟩
    | tail _ hrun ih =>
      obtain ⟨⟨clock, hcut⟩, hwhole⟩ := hrun
      refine ⟨?_, hwhole⟩
      rcases hcut with rfl | hcut
      · exact ih.1
      · exact (migrateBetweenJournals_meets hcontiguous ih.1 ih.2).1 _ hcut
  refine ⟨fun result hresult persistenceId hmem => ?_, fun e he => not_written_of_isRefusal he⟩
  obtain ⟨hhead, hcopied⟩ := (migrateBetweenJournals_meets hcontiguous hreached.1
    hreached.2).2 result hresult persistenceId hmem
  rw [take_length] at hcopied
  refine ⟨hhead.trans (hcontiguous.highestSeq persistenceId).symm, hcopied.imp ?_⟩
  rintro e copied ⟨hseq, hpayload, hcopiedTags⟩
  rw [htags] at hcopiedTags
  refine ⟨hseq, hpayload, hcopiedTags, fun hrefuse => ?_⟩
  rw [hcopiedTags, hrefuse]
  cases e.tags <;> rfl

/-! ## A compacted stream -/

/-- The journal of one entity, `a`, whose first event is deleted. -/
def compactedJournal : InMemoryJournal ℕ where
  streams := .set .empty [0x61]
    [⟨[0x61], .natural 2, 20, 0, some [[0x74]]⟩, ⟨[0x61], .natural 3, 30, 0, none⟩]
  highWater := .set .empty [0x61] 3

lemma compactedJournal_holds (persistenceId : JsString) :
    ∃ start payloads, compactedJournal.Holds persistenceId start payloads := by
  by_cases hid : persistenceId = [0x61]
  · have hholding : Holding 1 [20, 30] (compactedJournal.stream [0x61]) :=
      .cons (e := ⟨[0x61], .natural 2, 20, 0, some [[0x74]]⟩) rfl
        (.cons (e := ⟨[0x61], .natural 3, 30, 0, none⟩) rfl (.nil 3))
    rw [hid]
    exact ⟨1, [20, 30], hholding, rfl⟩
  · have hstream : compactedJournal.stream persistenceId = [] := by
      rw [stream, compactedJournal, get?_set, if_neg (Ne.symm hid), get?_empty, getD_none]
    have hhead : compactedJournal.highestSeq persistenceId = 0 := by
      rw [highestSeq, compactedJournal, get?_set, if_neg (Ne.symm hid), get?_empty, getD_none]
    refine ⟨0, [], ?_, hhead⟩
    rw [hstream]
    exact .nil 0

def compactedPlan (skipExistingPersistenceIds : Bool) : MigrationPlan ℕ where
  source := compactedJournal.asSource compactedJournal_holds
  options := { skipExistingPersistenceIds }
  roundTrip := .ok
  recordsCompactionMarks := true

/-- What the target is when the mark is raised and the first event appended. -/
def halfCopied : MigrationState ℕ where
  target :=
    { streams := .set .empty [0x61] [⟨[0x61], .natural 2, 20, 0, some [[0x74]]⟩]
      highWater := .set .empty [0x61] 2 }

lemma cutShort_halfCopied (skip : Bool) : CutShort (compactedPlan skip) {} halfCopied :=
  ⟨fun _ _ => 0, .inr (mem_of_getElem? (i := 1) (by cases skip <;> rfl))⟩

/-- A run that was cut short inside the stream is finished by the next. -/
theorem migrateBetweenJournals_faithful_halfCopied :
    ((migrateBetweenJournals (compactedPlan false) (fun _ _ => 1)) halfCopied).final.target.stream
      [0x61] = [⟨[0x61], .natural 2, 20, 0, some [[0x74]]⟩, ⟨[0x61], .natural 3, 30, 1, none⟩] ∧
    ∀ persistenceId ∈ [[0x61]], ((migrateBetweenJournals (compactedPlan false)
        (fun _ _ => 1)) halfCopied).final.target.highestSeq persistenceId =
          compactedJournal.highestSeq persistenceId :=
  ⟨rfl, fun persistenceId hmem =>
    ((migrateBetweenJournals_faithful (contiguous_asSource compactedJournal_holds) (fun _ => rfl)
      (.single ⟨cutShort_halfCopied false, fun hskip => nomatch hskip⟩) (fun _ _ => 1)).1 _ rfl
        persistenceId hmem).1⟩

/-- Where existing streams are skipped, the rest of a half copied stream is never copied. -/
theorem not_faithful_skipping :
    ¬ ∀ (plan : MigrationPlan ℕ) (s : MigrationState ℕ) (clock : JsString → ℕ → ℚ)
      (result : MigrateJournalsResult), plan.source.Contiguous →
        plan.recordsCompactionMarks = true →
          (∀ e, (plan.options.eventTransform e).tags = e.tags) →
            Relation.ReflTransGen (CutShort plan) {} s →
              (migrateBetweenJournals plan clock s).outcome = .ok result →
                ∀ persistenceId ∈ plan.allPersistenceIds,
                  (migrateBetweenJournals plan clock s).final.target.highestSeq persistenceId =
                    plan.source.highestSeq persistenceId := by
  intro h
  have hhead := h (compactedPlan true) halfCopied (fun _ _ => 1) _
    (contiguous_asSource compactedJournal_holds) rfl (fun _ => rfl)
    (.single (cutShort_halfCopied true)) rfl [0x61] (mem_singleton_self _)
  exact absurd hhead (by decide)

end ActorTs.Persistence
