import ActorTs.Persistence.ObjectStorage.DurableStateStore
import Mathlib

/-!
# What concurrent upserts leave of a record

A put whose etag stands for the expected revision replaces a record of that revision, and the floor
of a store is a revision that was stored. Two things are read at another moment than they are used:
the etag, by an upsert that refreshed the store's memory, and the floor, by a load. A run in which
neither was changed in between loses no update and reports no rollback that did not happen.
-/

open List Option Nat

namespace ActorTs.DurableState

/-- The revision of the record that a put replaces. -/
def expectedRecord (expected : ℕ) : Option ℕ := if expected = 0 then none else some expected

/-- The revision of the record after some events. -/
def revisionAfter (log : List Event) : Option ℕ := log.getLast?.bind Event.revision

/-- The record had one revision and later the other. -/
def Dropped (log : List Event) (high low : ℕ) : Prop :=
  ∃ a e b e' c, log = a ++ e :: b ++ e' :: c ∧ e.revision = some high ∧ e'.revision = some low

/-- The record had a revision. -/
def Stored (log : List Event) (revision : ℕ) : Prop := ∃ e ∈ log, e.revision = some revision

lemma revisionAfter_append (log : List Event) (e : Event) :
    revisionAfter (log ++ [e]) = e.revision := by
  rw [revisionAfter, getLast?_concat, bind_some]

variable {log : List Event} {high low : ℕ}

lemma Stored.append {revision : ℕ} (h : Stored log revision) (later : List Event) :
    Stored (log ++ later) revision :=
  let ⟨e, he, hrevision⟩ := h
  ⟨e, mem_append_left later he, hrevision⟩

lemma Dropped.append (h : Dropped log high low) (later : List Event) :
    Dropped (log ++ later) high low := by
  obtain ⟨a, e, b, e', c, rfl, hhigh, hlow⟩ := h
  exact ⟨a, e, b, e', c ++ later, by simp, hhigh, hlow⟩

lemma dropped_of_revisionAfter (h : Stored log high) (hnow : revisionAfter log = some low)
    (hne : high ≠ low) : Dropped log high low := by
  obtain ⟨e, he, hhigh⟩ := h
  rcases eq_nil_or_concat log with rfl | ⟨log, last, rfl⟩
  · exact absurd he not_mem_nil
  · rw [concat_eq_append] at he hnow ⊢
    rw [revisionAfter_append] at hnow
    rcases mem_append.1 he with he | he
    · obtain ⟨a, b, rfl⟩ := append_of_mem he
      exact ⟨a, e, b, last, [], rfl, hhigh, hnow⟩
    · obtain rfl := mem_singleton.1 he
      exact absurd (some.inj (hhigh.symm.trans hnow)) hne

/-- Every put replaced a record of the revision that it expected. -/
def Chained (log : List Event) : Prop :=
  ∀ a expected replaced c, log = a ++ .committed expected replaced :: c →
    replaced = expectedRecord expected ∧ replaced = revisionAfter a

lemma Chained.append (h : Chained log) {e : Event}
    (he : ∀ expected replaced, e = .committed expected replaced →
      replaced = expectedRecord expected ∧ replaced = revisionAfter log) :
    Chained (log ++ [e]) := by
  intro a expected replaced c hsplit
  rcases eq_nil_or_concat c with rfl | ⟨c, last, rfl⟩
  · obtain ⟨rfl, heq⟩ := append_inj' hsplit rfl
    exact he expected replaced (List.cons.inj heq).1
  · rw [concat_eq_append, ← cons_append, ← append_assoc] at hsplit
    exact h a expected replaced c (append_inj' hsplit rfl).1

lemma Chained.lt (h : Chained log) {a b c : List Event} {r r' : ℕ} {p p' : Option ℕ}
    (hsplit : log = a ++ .committed r p :: b ++ .committed r' p' :: c)
    (hb : ∀ e ∈ b, e ≠ .deleted) : r < r' := by
  have hgrow : ∀ b' : List Event, (∀ e ∈ b', e ≠ .deleted) → (∃ c', log =
      a ++ .committed r p :: b' ++ c') →
      ∃ n, revisionAfter (a ++ .committed r p :: b') = some n ∧ r < n := by
    intro b'
    induction b' using List.reverseRecOn with
    | nil =>
      intro _ _
      exact ⟨r + 1, revisionAfter_append a _, lt_succ_self r⟩
    | append_singleton b' e ih =>
      rintro hno ⟨c', hlog⟩
      rw [← cons_append, ← append_assoc] at hlog ⊢
      obtain ⟨n, hn, hlt⟩ := ih (fun e' he' => hno e' (mem_append_left _ he'))
        ⟨e :: c', by rw [hlog]; simp⟩
      rw [revisionAfter_append]
      cases e with
      | deleted => exact absurd rfl (hno .deleted (mem_append_right _ mem_cons_self))
      | committed expected replaced =>
        have hput := h (a ++ .committed r p :: b') expected replaced c' (by rw [hlog]; simp)
        obtain ⟨hexpected, hreplaced⟩ := hput
        rw [hreplaced, hn, expectedRecord] at hexpected
        split at hexpected
        · exact nomatch hexpected
        · exact ⟨expected + 1, rfl, by
            rw [← some.inj hexpected]
            exact lt_succ_of_lt hlt⟩
  obtain ⟨n, hn, hlt⟩ := hgrow b hb ⟨_, hsplit⟩
  obtain ⟨hexpected, hreplaced⟩ := h (a ++ .committed r p :: b) r' p' c hsplit
  rw [hreplaced, hn, expectedRecord] at hexpected
  split at hexpected
  · exact nomatch hexpected
  · rwa [← some.inj hexpected]

namespace World

variable {ι ε σ : Type*} {bodyOf : ε → Body σ} {rejectRevisionRollback : ι → Bool}
  {w : World ι ε σ}

/-- What a store remembers is true: of an etag its revision, and of the floor that it was stored
and seen. -/
def StoreOk (bodyOf : ε → Body σ) (log : List Event) (seen : List ℕ) (s : Store ε) : Prop :=
  (∀ etag revision, s.etagCache = some (etag, revision) → (bodyOf etag).revision = revision) ∧
  ∀ floor, s.revisionFloor = some floor → floor ∈ seen ∧ Stored log floor

/-- What a call carries along is true. -/
def PhaseOk (bodyOf : ε → Body σ) (log : List Event) (seen : List ℕ) : Phase ε σ → Prop
  | .got _ (some etag) floor => Stored log (bodyOf etag).revision ∧
      ∀ f, floor = some f → (bodyOf etag).revision < f →
        f ∈ seen ∧ Dropped log f (bodyOf etag).revision
  | .putting upsert ifMatch => (upsert.expectedRevision = 0 → ifMatch = none) ∧
      (upsert.expectedRevision ≠ 0 →
        ∃ etag, ifMatch = some etag ∧ (bodyOf etag).revision = upsert.expectedRevision)
  | .put upsert (some etag) => bodyOf etag = upsert.body ∧ Stored log upsert.body.revision
  | _ => True

structure Consistent (bodyOf : ε → Body σ) (w : World ι ε σ) : Prop where
  stores : ∀ i, StoreOk bodyOf w.log (w.seen i) (w.stores i)
  calls : ∀ id i phase, w.calls id = some ⟨i, phase⟩ → PhaseOk bodyOf w.log (w.seen i) phase
  stored : (w.stored.map fun etag => (bodyOf etag).revision) = revisionAfter w.log
  chained : Chained w.log
  rollbacks : ∀ q ∈ w.rollbacks, ∃ s ∈ w.seen q.1, q.2 < s ∧ Dropped w.log s q.2

lemma consistent_init : (init : World ι ε σ).Consistent bodyOf where
  stores _ := ⟨nofun, nofun⟩
  calls _ _ _ h := nomatch h
  stored := rfl
  chained a _ _ _ h := by simp [init] at h
  rollbacks _ h := nomatch h

lemma StoreOk.mono {log : List Event} {seen seen' : List ℕ} {s : Store ε}
    (h : StoreOk bodyOf log seen s) (later : List Event) (hseen : seen ⊆ seen') :
    StoreOk bodyOf (log ++ later) seen' s :=
  ⟨h.1, fun floor hfloor => ⟨hseen (h.2 floor hfloor).1, (h.2 floor hfloor).2.append later⟩⟩

variable {phase : Phase ε σ}

lemma PhaseOk.mono {log : List Event} {seen seen' : List ℕ} (h : PhaseOk bodyOf log seen phase)
    (later : List Event) (hseen : seen ⊆ seen') : PhaseOk bodyOf (log ++ later) seen' phase := by
  cases phase with
  | got refresh found floor =>
    cases found with
    | none => trivial
    | some etag =>
      refine ⟨h.1.append later, fun f hf hlt => ?_⟩
      exact ⟨hseen (h.2 f hf hlt).1, (h.2 f hf hlt).2.append later⟩
  | putting upsert ifMatch => exact h
  | put upsert etag =>
    cases etag with
    | none => trivial
    | some etag => exact ⟨h.1, h.2.append later⟩
  | getting refresh => trivial
  | encoding upsert => trivial
  | refreshed upsert revision => trivial
  | deleting => trivial
  | deleted => trivial
  | loaded record => trivial
  | upserted record => trivial
  | threw failure => trivial
  | done => trivial

section

variable (h : w.Consistent bodyOf)
include h

lemma Consistent.moveTo {id : ℕ} {i : ι} (hphase : PhaseOk bodyOf w.log (w.seen i) phase) :
    (w.moveTo id i phase).Consistent bodyOf where
  stores := h.stores
  calls := by
    intro id' i' phase' hcall
    rw [calls_moveTo] at hcall
    split at hcall
    · obtain ⟨rfl, rfl⟩ := Call.mk.inj (some.inj hcall)
      exact hphase
    · exact h.calls id' i' phase' hcall
  stored := h.stored
  chained := h.chained
  rollbacks := h.rollbacks

lemma Consistent.happens (stored : Option ε) (e : Event)
    (hstored : (stored.map fun etag => (bodyOf etag).revision) = e.revision)
    (he : ∀ expected replaced, e = .committed expected replaced →
      replaced = expectedRecord expected ∧ replaced = revisionAfter w.log) :
    ({ w with stored := stored, log := w.log ++ [e] } : World ι ε σ).Consistent bodyOf where
  stores i := (h.stores i).mono [e] (List.Subset.refl _)
  calls id i phase hcall := (h.calls id i phase hcall).mono [e] (List.Subset.refl _)
  stored := hstored.trans (revisionAfter_append w.log e).symm
  chained := h.chained.append he
  rollbacks q hq := by
    obtain ⟨s, hs, hlt, hdropped⟩ := h.rollbacks q hq
    exact ⟨s, hs, hlt, hdropped.append [e]⟩

/-- An upsert that goes on behind a refresh finds in the store's memory the revision that it
refreshed, and a load that goes on behind its read finds the floor no higher than it was, or
not above what it read. -/
def Undisturbed (bodyOf : ε → Body σ) (w : World ι ε σ) : Input ι ε σ → Prop
  | .resume id => ∀ i upsert,
      w.calls id = some ⟨i, .refreshed upsert (some upsert.expectedRevision)⟩ →
        ∃ etag, (w.stores i).etagCache = some (etag, upsert.expectedRevision)
  | .finishLoad id => ∀ i refresh etag before,
      w.calls id = some ⟨i, .got refresh (some etag) before⟩ →
        ∀ floor, (w.stores i).revisionFloor = some floor → (bodyOf etag).revision < floor →
          ∃ floor', before = some floor' ∧ (bodyOf etag).revision < floor'
  | _ => True

lemma Consistent.startPut {id : ℕ} {i : ι} {upsert : Upsert σ}
    (hcache : upsert.expectedRevision ≠ 0 →
      ∃ etag, (w.stores i).etagCache = some (etag, upsert.expectedRevision)) :
    (w.startPut id i upsert).Consistent bodyOf := by
  refine h.moveTo ⟨fun hzero => if_pos hzero, fun hpos => ?_⟩
  obtain ⟨etag, hetag⟩ := hcache hpos
  refine ⟨etag, ?_, (h.stores i).1 etag _ hetag⟩
  rw [if_neg hpos, hetag]
  rfl

lemma Consistent.onLookUp (id : ℕ) (i : ι) (upsert : Upsert σ) :
    (w.onLookUp id i upsert).Consistent bodyOf := by
  unfold World.onLookUp
  split
  · next etag revision hcache =>
    split
    · exact h.moveTo trivial
    · next heq =>
      rw [not_not] at heq
      exact h.startPut fun _ => ⟨etag, heq ▸ hcache⟩
  · split
    · exact h.moveTo trivial
    · next hzero => exact h.startPut fun hpos => absurd (Nat.pos_of_ne_zero hpos) hzero

lemma Consistent.onResume {id : ℕ} {i : ι} {upsert : Upsert σ} {revision : Option ℕ}
    (hcall : w.calls id = some ⟨i, .refreshed upsert revision⟩)
    (hundisturbed : Undisturbed bodyOf w (.resume id)) :
    (w.onResume id i upsert revision).Consistent bodyOf := by
  unfold World.onResume
  split
  · exact h.moveTo trivial
  · split
    · exact h.moveTo trivial
    · next heq =>
      rw [not_not] at heq
      exact h.startPut fun _ => hundisturbed i upsert (heq ▸ hcall)

end

lemma phaseOk_loaded (log : List Event) (seen : List ℕ) (record : Option (Body σ))
    (refresh : Option (Upsert σ)) : PhaseOk bodyOf log seen (loaded record refresh) := by
  cases refresh with
  | none => trivial
  | some upsert => trivial

lemma lt_of_assertNoRollback {i : ι} {floor : Option ℕ} {revision : ℕ} {failure : Failure}
    (h : assertNoRollback rejectRevisionRollback i floor revision = some failure) :
    ∃ f, floor = some f ∧ revision < f := by
  unfold assertNoRollback at h
  split at h
  · exact nomatch h
  · split at h
    · exact nomatch h
    · next f =>
      split at h
      · exact nomatch h
      · next hlt => exact ⟨f, rfl, Nat.lt_of_not_le hlt⟩

/-- What a call reads is what the record is, and a floor above it is of a revision that the
record had before. -/
lemma Consistent.backendGet (h : w.Consistent bodyOf) {id : ℕ} {i : ι}
    {refresh : Option (Upsert σ)} :
    (w.moveTo id i (.got refresh w.stored (w.stores i).revisionFloor)).Consistent bodyOf := by
  refine h.moveTo ?_
  cases hstored : w.stored with
  | none => trivial
  | some etag =>
    have hnow : revisionAfter w.log = some (bodyOf etag).revision := by
      rw [← h.stored, hstored]
      rfl
    constructor
    · obtain ⟨e, he, hrevision⟩ := bind_eq_some_iff.1 hnow
      exact ⟨e, mem_of_getLast? he, hrevision⟩
    · intro floor hfloor hlt
      obtain ⟨hseen, hwas⟩ := (h.stores i).2 floor hfloor
      exact ⟨hseen, dropped_of_revisionAfter hwas hnow (Nat.ne_of_gt hlt)⟩

lemma Consistent.start (h : w.Consistent bodyOf) (id : ℕ) (i : ι)
    (hphase : PhaseOk bodyOf w.log (w.seen i) phase) : (w.start id i phase).Consistent bodyOf := by
  unfold World.start
  split
  · exact h.moveTo hphase
  · exact h

section Stores

variable [DecidableEq ι] {i : ι}

lemma Consistent.withStore (h : w.Consistent bodyOf) {s : Store ε}
    (hs : StoreOk bodyOf w.log (w.seen i) s) : (w.withStore i s).Consistent bodyOf where
  stores := by
    intro j
    rw [stores_withStore]
    split
    · next heq => exact heq ▸ hs
    · exact h.stores j
  calls := h.calls
  stored := h.stored
  chained := h.chained
  rollbacks := h.rollbacks

lemma seen_subset_withSeen (w : World ι ε σ) (i j : ι) (revision : ℕ) :
    w.seen j ⊆ (w.withSeen i revision).seen j := by
  rw [seen_withSeen]
  split
  · next heq => exact heq ▸ subset_append_left _ _
  · exact List.Subset.refl _

lemma Consistent.withSeen (h : w.Consistent bodyOf) (i : ι) (revision : ℕ) :
    (w.withSeen i revision).Consistent bodyOf where
  stores j := by
    have hmono := (h.stores j).mono [] (w.seen_subset_withSeen i j revision)
    rwa [append_nil] at hmono
  calls id j phase hcall := by
    have hmono := (h.calls id j phase hcall).mono [] (w.seen_subset_withSeen i j revision)
    rwa [append_nil] at hmono
  stored := h.stored
  chained := h.chained
  rollbacks q hq := by
    obtain ⟨s, hs, hlt, hdropped⟩ := h.rollbacks q hq
    exact ⟨s, w.seen_subset_withSeen i q.1 revision hs, hlt, hdropped⟩

lemma mem_seen_withSeen (w : World ι ε σ) (i : ι) (revision : ℕ) :
    revision ∈ (w.withSeen i revision).seen i := by
  rw [seen_withSeen, if_pos rfl]
  exact mem_append_right _ mem_cons_self

lemma Consistent.remember (h : w.Consistent bodyOf) (i : ι) {etag : ε} {revision : ℕ}
    (hetag : (bodyOf etag).revision = revision) (hstored : Stored w.log revision) :
    (w.remember rejectRevisionRollback i etag revision).Consistent bodyOf := by
  have hseen := h.withSeen i revision
  refine hseen.withStore (i := i) ⟨?_, ?_⟩
  · rintro etag' revision' heq
    obtain ⟨rfl, rfl⟩ := Prod.mk.inj (some.inj heq)
    exact hetag
  · intro floor hfloor
    have hold : (w.stores i).revisionFloor = some floor →
        floor ∈ (w.withSeen i revision).seen i ∧ Stored w.log floor := (hseen.stores i).2 floor
    have hnew : floor = revision →
        floor ∈ (w.withSeen i revision).seen i ∧ Stored w.log floor := by
      rintro rfl
      exact ⟨w.mem_seen_withSeen i floor, hstored⟩
    dsimp only [raiseRevisionFloor] at hfloor
    split at hfloor
    · exact hold hfloor
    · split at hfloor
      · exact hnew (some.inj hfloor).symm
      · next hcurrent =>
        split at hfloor
        · exact hnew (some.inj hfloor).symm
        · exact hold (hcurrent.trans hfloor)

lemma Consistent.onFinishLoad (h : w.Consistent bodyOf) {id : ℕ} {refresh : Option (Upsert σ)}
    {found : Option ε} {before : Option ℕ}
    (hcall : w.calls id = some ⟨i, .got refresh found before⟩)
    (hundisturbed : Undisturbed bodyOf w (.finishLoad id)) :
    (w.onFinishLoad bodyOf rejectRevisionRollback id i refresh found).Consistent bodyOf := by
  cases found with
  | none => exact h.moveTo (phaseOk_loaded w.log (w.seen i) none refresh)
  | some etag =>
    obtain ⟨hstored, hbefore⟩ := h.calls id i _ hcall
    unfold World.onFinishLoad
    dsimp only
    split
    · next failure hrollback =>
      -- The floor stood above the revision before it was read, so the record did fall below it.
      obtain ⟨floor, hfloor, hlt⟩ := lt_of_assertNoRollback hrollback
      obtain ⟨floor', hfloor', hlt'⟩ := hundisturbed i refresh etag before hcall floor hfloor hlt
      obtain ⟨hseen, hdropped⟩ := hbefore floor' hfloor' hlt'
      have hmoved : (w.moveTo id i (.threw failure)).Consistent bodyOf := h.moveTo trivial
      obtain ⟨hstores, hcalls, hnow, hchained, hrollbacks⟩ := hmoved
      refine ⟨hstores, hcalls, hnow, hchained, fun q hq => ?_⟩
      rcases mem_append.1 hq with hq | hq
      · exact hrollbacks q hq
      · obtain rfl := mem_singleton.1 hq
        exact ⟨floor', hseen, hlt', hdropped⟩
    · exact (h.remember i rfl hstored).moveTo (phaseOk_loaded _ _ _ refresh)

lemma Consistent.onFinishPut (h : w.Consistent bodyOf) {id : ℕ} {upsert : Upsert σ}
    {etag : Option ε} (hcall : w.calls id = some ⟨i, .put upsert etag⟩) :
    (w.onFinishPut rejectRevisionRollback id i upsert etag).Consistent bodyOf := by
  cases etag with
  | none =>
    have hforgot : StoreOk bodyOf w.log (w.seen i) { w.stores i with etagCache := none } :=
      ⟨fun _ _ hnone => (nomatch hnone), (h.stores i).2⟩
    exact (h.withStore hforgot).moveTo trivial
  | some etag =>
    obtain ⟨hbody, hstored⟩ := h.calls id i _ hcall
    exact (h.remember i (congrArg Body.revision hbody) hstored).moveTo trivial

end Stores

section Puts

variable [DecidableEq ε] {ifMatch : Option ε} {upsert : Upsert σ} {id : ℕ} {i : ι}

lemma Consistent.replaces (h : w.Consistent bodyOf)
    (hcall : w.calls id = some ⟨i, .putting upsert ifMatch⟩)
    (hallowed : putAllowed w.stored upsert.expectedRevision ifMatch = true) :
    (w.stored.map fun etag => (bodyOf etag).revision) = expectedRecord upsert.expectedRevision := by
  obtain ⟨hzero, hpos⟩ := h.calls id i _ hcall
  unfold expectedRecord
  split
  · next heq =>
    rw [hzero heq, putAllowed, decide_eq_true_iff] at hallowed
    rw [hallowed.resolve_left (not_not.2 heq)]
    rfl
  · next hne =>
    obtain ⟨etag, rfl, hrevision⟩ := hpos hne
    rw [putAllowed, decide_eq_true_iff] at hallowed
    rw [hallowed, map_some, hrevision]

variable [DecidableEq σ]

lemma Consistent.onBackendPut (h : w.Consistent bodyOf)
    (hcall : w.calls id = some ⟨i, .putting upsert ifMatch⟩) (etag : ε) :
    (w.onBackendPut bodyOf id i upsert ifMatch etag).Consistent bodyOf := by
  unfold World.onBackendPut
  split
  · exact h.moveTo trivial
  · next hallowed =>
    rw [Bool.not_eq_true', Bool.not_eq_false] at hallowed
    split
    · next hbody =>
      have hput := h.happens (some etag) (.committed upsert.expectedRevision
        (w.stored.map fun etag => (bodyOf etag).revision)) (by rw [map_some, hbody]; rfl) ?_
      · refine hput.moveTo ⟨hbody, _, mem_append_right _ mem_cons_self, rfl⟩
      · intro expected replaced heq
        obtain ⟨rfl, rfl⟩ := Event.committed.inj heq
        exact ⟨h.replaces hcall hallowed, h.stored⟩
    · exact h

end Puts

/-- No update is lost, and a reported rollback is one: every put replaced a record of the
revision that it expected, between two deletes no two puts are of one revision, and a load was
refused only where the record fell below a revision that its store saw. -/
structure LosesNothing (w : World ι ε σ) : Prop where
  replaced : ∀ expected replaced, Event.committed expected replaced ∈ w.log →
    replaced = expectedRecord expected
  distinct : ∀ a b c r p r' p', w.log = a ++ .committed r p :: b ++ .committed r' p' :: c →
    (∀ e ∈ b, e ≠ .deleted) → r < r'
  rollbacks : ∀ q ∈ w.rollbacks, ∃ s ∈ w.seen q.1, q.2 < s ∧ Dropped w.log s q.2

lemma Consistent.losesNothing (h : w.Consistent bodyOf) : w.LosesNothing where
  replaced expected replaced hmem := by
    obtain ⟨a, c, hsplit⟩ := append_of_mem hmem
    exact (h.chained a expected replaced c hsplit).1
  distinct _ _ _ _ _ _ _ hsplit hb := h.chained.lt hsplit hb
  rollbacks := h.rollbacks

variable [DecidableEq ι] [DecidableEq ε] [DecidableEq σ]

lemma Consistent.step (h : w.Consistent bodyOf) (input : Input ι ε σ)
    (hundisturbed : Undisturbed bodyOf w input) :
    (w.step bodyOf rejectRevisionRollback input).Consistent bodyOf := by
  cases input with
  | load id i => exact h.start id i trivial
  | upsert id i upsert => exact h.start id i trivial
  | delete id i => exact h.start id i trivial
  | backendGet id =>
    unfold World.step
    dsimp only
    split
    · exact h.backendGet
    · exact h
  | finishLoad id =>
    unfold World.step
    dsimp only
    split
    · next hcall => exact h.onFinishLoad hcall hundisturbed
    · exact h
  | lookUp id =>
    unfold World.step
    dsimp only
    split
    · next i upsert _ => exact h.onLookUp id i upsert
    · exact h
  | resume id =>
    unfold World.step
    dsimp only
    split
    · next hcall => exact h.onResume hcall hundisturbed
    · exact h
  | backendPut id etag =>
    unfold World.step
    dsimp only
    split
    · next hcall => exact h.onBackendPut hcall etag
    · exact h
  | finishPut id =>
    unfold World.step
    dsimp only
    split
    · next hcall => exact h.onFinishPut hcall
    · exact h
  | backendDelete id =>
    unfold World.step
    dsimp only
    split
    · exact (h.happens none .deleted rfl nofun).moveTo trivial
    · exact h
  | finishDelete id =>
    unfold World.step
    dsimp only
    split
    · have hnothing : ∀ i, StoreOk bodyOf w.log (w.seen i) (⟨none, none⟩ : Store ε) :=
        fun _ => ⟨fun _ _ hnone => (nomatch hnone), fun _ hnone => (nomatch hnone)⟩
      exact (h.withStore (hnothing _)).moveTo trivial
    · exact h
  | fail id =>
    unfold World.step
    dsimp only
    split
    · split
      · exact h.moveTo trivial
      · exact h
    · exact h

/-- In a run whose steps are undisturbed, every state reached has lost nothing. -/
theorem losesNothing_run (bodyOf : ε → Body σ) (rejectRevisionRollback : ι → Bool)
    (inputs : List (Input ι ε σ))
    (h : Machine.Along (step bodyOf rejectRevisionRollback) (Undisturbed bodyOf) init inputs) :
    (run bodyOf rejectRevisionRollback inputs).LosesNothing := by
  have hconsistent : (run bodyOf rejectRevisionRollback inputs).Consistent bodyOf :=
    Machine.invariant (fun _ input hundisturbed hw => hw.step input hundisturbed) h consistent_init
  exact hconsistent.losesNothing

/-- A store without a memory of the record refreshes it and replaces the record. -/
def refreshedInputs : List (Input ℕ (Body ℕ) ℕ) :=
  [.upsert 0 0 ⟨0, 10, 0⟩, .lookUp 0, .backendPut 0 ⟨1, 10, 0⟩, .finishPut 0,
    .upsert 1 1 ⟨1, 20, 0⟩, .lookUp 1, .backendGet 1, .finishLoad 1, .resume 1,
    .backendPut 1 ⟨2, 20, 0⟩, .finishPut 1]

theorem losesNothing_run_refreshed :
    (run id (fun _ => true) refreshedInputs).LosesNothing ∧
      (run id (fun _ => true) refreshedInputs).log =
        [.committed 0 none, .committed 1 (some 1)] := by
  refine ⟨losesNothing_run id (fun _ => true) refreshedInputs ?_, by decide⟩
  refine ⟨trivial, trivial, trivial, trivial, trivial, trivial, trivial, ?_, ?_, trivial, trivial,
    trivial⟩
  · intro i refresh etag before hcall floor hfloor
    obtain ⟨rfl, -⟩ := Call.mk.inj (some.inj hcall)
    exact nomatch hfloor
  · intro i upsert hcall
    obtain ⟨rfl, hphase⟩ := Call.mk.inj (some.inj hcall)
    obtain ⟨rfl, -⟩ := Phase.refreshed.inj hphase
    exact ⟨⟨1, 10, 0⟩, rfl⟩

/-- Between the refresh of an upsert and its put, another call of the same store is refused by
the backend and drops the etag, and another store replaces the record. -/
def droppedInputs : List (Input ℕ (Body ℕ) ℕ) :=
  [.upsert 0 0 ⟨0, 10, 0⟩, .lookUp 0, .backendPut 0 ⟨1, 10, 0⟩, .finishPut 0,
    .upsert 2 1 ⟨0, 30, 0⟩, .lookUp 2, .backendPut 2 ⟨1, 30, 0⟩,
    .upsert 1 1 ⟨1, 20, 0⟩, .lookUp 1, .backendGet 1, .finishLoad 1, .finishPut 2, .resume 1,
    .upsert 3 0 ⟨1, 40, 0⟩, .lookUp 3, .backendPut 3 ⟨2, 40, 0⟩, .backendPut 1 ⟨2, 20, 0⟩]

/-- The put goes out without a condition and overwrites a record of another revision. -/
theorem not_losesNothing_dropped :
    ¬∀ (rejectRevisionRollback : ℕ → Bool) (inputs : List (Input ℕ (Body ℕ) ℕ)),
      (run id rejectRevisionRollback inputs).LosesNothing := by
  intro h
  have hreplaced := (h (fun _ => true) droppedInputs).replaced 1 (some 2) (by decide)
  exact nomatch hreplaced

end World

end ActorTs.DurableState
