import ActorTs.Persistence.ReplicatedEnvelope

/-!
# The history of a replicated entity

An envelope is put in its place among those seen before, by its stamp, and the state is the
fold of the events in that order. What a replica holds then depends on which envelopes it
has seen and on nothing else, as long as no two of them carry the same stamp; two that do
stand in the order in which they arrived.
-/

open List OrderedSet Nat

namespace ActorTs.Persistence

variable {E S : Type}

/-- The hooks of an entity that decide its state. -/
structure ReplicatedHooks (E S : Type) where
  initialState : S
  onEvent : S → E → S

structure ReplicatedHistory (E S : Type) where
  state : S
  vc : VectorClock
  events : List (ReplicatedEventEnvelope E)
  seenIds : OrderedSet JsString
  observedCount : ℕ

namespace ReplicatedHistory

open ReplicatedEventEnvelope

variable (hooks : ReplicatedHooks E S)

def empty : ReplicatedHistory E S := ⟨hooks.initialState, .empty, [], .empty, 0⟩

/-- The state that a list of events leaves. -/
def fold (state : S) (events : List (ReplicatedEventEnvelope E)) : S :=
  events.foldl (fun state envelope => hooks.onEvent state envelope.event) state

def findInsertIndex (events : List (ReplicatedEventEnvelope E))
    (envelope : ReplicatedEventEnvelope E) : ℕ :=
  events.findIdx fun e => ReplicatedEventEnvelope.compare envelope e < 0

/-- The place of an envelope: the end, when it is behind the last one, or what a scan finds. -/
def insertIndex (events : List (ReplicatedEventEnvelope E))
    (envelope : ReplicatedEventEnvelope E) : ℕ :=
  match events.getLast? with
  | some last =>
    if 0 < ReplicatedEventEnvelope.compare envelope last then events.length
    else findInsertIndex events envelope
  | none => findInsertIndex events envelope

def absorb (history : ReplicatedHistory E S) (envelope : ReplicatedEventEnvelope E) :
    ReplicatedHistory E S :=
  let deduplicationKey := envelope.deduplicationKeyFor
  if history.seenIds.has deduplicationKey then history
  else
    let index := insertIndex history.events envelope
    let events := history.events.insertIdx index envelope
    { state :=
        if index = events.length - 1 then hooks.onEvent history.state envelope.event
        else fold hooks hooks.initialState events
      vc := history.vc.merge (.fromData envelope.vc)
      events
      seenIds := history.seenIds.add deduplicationKey
      observedCount := history.observedCount + 1 }

def absorbAll (history : ReplicatedHistory E S) (envelopes : List (ReplicatedEventEnvelope E)) :
    ReplicatedHistory E S := envelopes.foldl (absorb hooks) history

/-- In the order of the stamps, two of one stamp in the order they came. -/
def Ordered (events : List (ReplicatedEventEnvelope E)) : Prop :=
  events.Pairwise fun a b => a.stamp ≤ b.stamp

variable {hooks} {events : List (ReplicatedEventEnvelope E)} {envelope : ReplicatedEventEnvelope E}

lemma findInsertIndex_le (events : List (ReplicatedEventEnvelope E))
    (envelope : ReplicatedEventEnvelope E) : findInsertIndex events envelope ≤ events.length :=
  findIdx_le_length

lemma insertIndex_eq (h : Ordered events) :
    insertIndex events envelope = findInsertIndex events envelope := by
  rw [insertIndex]
  split
  · next last hlast =>
    split_ifs with hpos
    · refine (findIdx_eq_length.2 fun e he => decide_eq_false ?_).symm
      obtain ⟨before, rfl⟩ := getLast?_eq_some_iff.1 hlast
      rw [ReplicatedEventEnvelope.compare, Stamp.compare_pos_iff] at hpos
      rw [ReplicatedEventEnvelope.compare, Stamp.compare_neg_iff, not_lt]
      rcases mem_append.1 he with he | he
      · exact ((pairwise_append.1 h).2.2 e he last (mem_singleton.2 rfl)).trans hpos.le
      · rw [mem_singleton.1 he]
        exact hpos.le
    · rfl
  · rfl

lemma insertIdx_eq_append (events : List (ReplicatedEventEnvelope E)) (i : ℕ)
    (hi : i ≤ events.length) (envelope : ReplicatedEventEnvelope E) :
    events.insertIdx i envelope = events.take i ++ envelope :: events.drop i := by
  induction events generalizing i with
  | nil =>
    rw [length_nil, le_zero] at hi
    rw [hi]
    rfl
  | cons e events ih =>
    cases i with
    | zero => rfl
    | succ i =>
      rw [insertIdx_succ_cons, ih i (le_of_succ_le_succ hi)]
      rfl

lemma Ordered.insert (h : Ordered events) :
    Ordered (events.insertIdx (findInsertIndex events envelope) envelope) := by
  rw [insertIdx_eq_append _ _ (findInsertIndex_le events envelope)]
  have hparts := h
  rw [← take_append_drop (findInsertIndex events envelope) events, Ordered,
    pairwise_append] at hparts
  obtain ⟨hbefore, hbehind, hbetween⟩ := hparts
  have hle : ∀ e ∈ events.take (findInsertIndex events envelope), e.stamp ≤ envelope.stamp := by
    intro e he
    obtain ⟨i, hi⟩ := mem_iff_getElem?.1 he
    rw [List.getElem?_take] at hi
    split_ifs at hi with hlt
    obtain ⟨hi, rfl⟩ := List.getElem?_eq_some_iff.1 hi
    have hscan := List.not_of_lt_findIdx hlt
    rw [decide_eq_false_iff_not, ReplicatedEventEnvelope.compare, Stamp.compare_neg_iff, not_lt] at hscan
    exact hscan
  have hlt : ∀ e ∈ events.drop (findInsertIndex events envelope), envelope.stamp < e.stamp := by
    cases hdrop : events.drop (findInsertIndex events envelope) with
    | nil => nofun
    | cons first rest =>
      have hlength : findInsertIndex events envelope < events.length := by
        by_contra hge
        rw [List.drop_eq_nil_of_le (not_lt.1 hge)] at hdrop
        cases hdrop
      have hfirst : envelope.stamp < first.stamp := by
        have hfound := List.findIdx_getElem (w := hlength)
        rw [List.drop_eq_getElem_cons hlength] at hdrop
        obtain ⟨rfl, -⟩ := List.cons.inj hdrop
        rwa [decide_eq_true_eq, ReplicatedEventEnvelope.compare, Stamp.compare_neg_iff] at hfound
      rw [hdrop, pairwise_cons] at hbehind
      intro e he
      rcases mem_cons.1 he with rfl | he
      · exact hfirst
      · exact hfirst.trans_le (hbehind.1 e he)
  refine pairwise_append.2 ⟨hbefore, pairwise_cons.2 ⟨fun e he => (hlt e he).le, hbehind⟩,
    fun e he e' he' => ?_⟩
  rcases mem_cons.1 he' with rfl | he'
  · exact hle e he
  · exact hbetween e he e' he'

lemma fold_concat (state : S) (events : List (ReplicatedEventEnvelope E))
    (envelope : ReplicatedEventEnvelope E) :
    fold hooks state (events ++ [envelope]) = hooks.onEvent (fold hooks state events) envelope.event := by
  rw [fold, foldl_append]
  rfl

/-- The state is the fold of the events, which stand in order, each under its own key, and the
clock is the least one above theirs. -/
structure Settled (hooks : ReplicatedHooks E S) (history : ReplicatedHistory E S) : Prop where
  ordered : Ordered history.events
  state : history.state = fold hooks hooks.initialState history.events
  seen : ∀ key, key ∈ history.seenIds ↔ ∃ e ∈ history.events, e.deduplicationKeyFor = key
  nodup : (history.events.map deduplicationKeyFor).Nodup
  count : history.observedCount = history.events.length
  positive : history.vc.Positive
  clock : ∀ r v, history.vc.get r ≤ v ↔ 0 ≤ v ∧ ∀ e ∈ history.events, (VectorClock.fromData e.vc).get r ≤ v

variable {history : ReplicatedHistory E S}

lemma settled_empty (hooks : ReplicatedHooks E S) : Settled hooks (empty hooks) where
  ordered := List.Pairwise.nil
  state := rfl
  seen _ := ⟨nofun, nofun⟩
  nodup := nodup_nil
  count := rfl
  positive := VectorClock.positive_empty
  clock _ _ := ⟨fun h => ⟨h, nofun⟩, fun h => h.1⟩

lemma absorb_of_seen (h : envelope.deduplicationKeyFor ∈ history.seenIds) :
    absorb hooks history envelope = history := if_pos ((has_iff _ _).2 h)

lemma events_absorb (h : Settled hooks history)
    (hnew : envelope.deduplicationKeyFor ∉ history.seenIds) :
    (absorb hooks history envelope).events =
      history.events.insertIdx (findInsertIndex history.events envelope) envelope := by
  rw [absorb, if_neg (fun hhas => hnew ((has_iff _ _).1 hhas)), insertIndex_eq h.ordered]

lemma state_absorb (h : Settled hooks history)
    (hnew : envelope.deduplicationKeyFor ∉ history.seenIds) :
    (absorb hooks history envelope).state =
      fold hooks hooks.initialState (absorb hooks history envelope).events := by
  rw [events_absorb h hnew, absorb, if_neg (fun hhas => hnew ((has_iff _ _).1 hhas)),
    insertIndex_eq h.ordered]
  dsimp only
  have hle := findInsertIndex_le history.events envelope
  rw [length_insertIdx_of_le_length hle, Nat.add_sub_cancel]
  split_ifs with hend
  · rw [hend, insertIdx_length_self, fold_concat, h.state]
  · rfl

variable {e : ReplicatedEventEnvelope E}

lemma mem_insert :
    e ∈ events.insertIdx (findInsertIndex events envelope) envelope ↔ e = envelope ∨ e ∈ events :=
  mem_insertIdx (findInsertIndex_le events envelope)

section

variable (h : Settled hooks history)
include h

lemma Settled.absorb (envelope : ReplicatedEventEnvelope E) :
    Settled hooks (absorb hooks history envelope) := by
  by_cases hseen : envelope.deduplicationKeyFor ∈ history.seenIds
  · rw [absorb_of_seen hseen]
    exact h
  have hevents := events_absorb h hseen
  have hstate := state_absorb h hseen
  have hnew : ¬ history.seenIds.has envelope.deduplicationKeyFor = true :=
    fun hhas => hseen ((has_iff _ _).1 hhas)
  have hperm := perm_insertIdx envelope history.events (findInsertIndex_le history.events envelope)
  refine ⟨?_, hstate, fun key => ?_, ?_, ?_, ?_, fun r v => ?_⟩
  · rw [hevents]
    exact h.ordered.insert
  · rw [hevents, ReplicatedHistory.absorb, if_neg hnew]
    rw [mem_add, h.seen]
    simp only [mem_insert, or_and_right, exists_or, exists_eq_left, eq_comm (a := key)]
  · rw [hevents, (hperm.map _).nodup_iff, map_cons, nodup_cons]
    refine ⟨fun hmem => hseen ((h.seen _).2 ?_), h.nodup⟩
    obtain ⟨e, he, hkey⟩ := mem_map.1 hmem
    exact ⟨e, he, hkey⟩
  · rw [hevents, hperm.length_eq, ReplicatedHistory.absorb, if_neg hnew, length_cons, h.count]
  · rw [ReplicatedHistory.absorb, if_neg hnew]
    exact VectorClock.positive_merge h.positive _
  · rw [hevents, ReplicatedHistory.absorb, if_neg hnew]
    rw [VectorClock.get_merge h.positive, max_le_iff, h.clock]
    simp only [mem_insert, forall_eq_or_imp]
    exact ⟨fun ⟨⟨hv, hold⟩, hthis⟩ => ⟨hv, hthis, hold⟩, fun ⟨hv, hthis, hold⟩ => ⟨⟨hv, hold⟩, hthis⟩⟩

lemma Settled.absorbAll (envelopes : List (ReplicatedEventEnvelope E)) :
    Settled hooks (absorbAll hooks history envelopes) := by
  induction envelopes generalizing history with
  | nil => exact h
  | cons envelope envelopes ih => exact ih (h.absorb envelope)

/-- Two replicas hold the same: the list of events, the state, and the clock. -/
structure SameView (history history' : ReplicatedHistory E S) : Prop where
  events : history.events = history'.events
  state : history.state = history'.state
  vc : ∀ r, history.vc.entries.get? r = history'.vc.entries.get? r

lemma Settled.sameView {history' : ReplicatedHistory E S} (h' : Settled hooks history')
    (hevents : history.events = history'.events) : SameView history history' := by
  refine ⟨hevents, ?_, fun r => ?_⟩
  · rw [h.state, h'.state, hevents]
  · have hget : history.vc.get r = history'.vc.get r := by
      refine le_antisymm ?_ ?_
      · rw [h.clock, hevents, ← h'.clock]
      · rw [h'.clock, ← hevents, ← h.clock]
    rw [h.positive.get?_eq, h'.positive.get?_eq, hget]

/-- One envelope under each key. -/
def KeyInjective (envelopes : List (ReplicatedEventEnvelope E)) : Prop :=
  ∀ a ∈ envelopes, ∀ b ∈ envelopes, a.deduplicationKeyFor = b.deduplicationKeyFor → a = b

lemma mem_events_absorb
    (hkeys : ∀ a ∈ history.events, a.deduplicationKeyFor = envelope.deduplicationKeyFor →
      a = envelope) :
    e ∈ (absorb hooks history envelope).events ↔ e = envelope ∨ e ∈ history.events := by
  by_cases hseen : envelope.deduplicationKeyFor ∈ history.seenIds
  · rw [absorb_of_seen hseen]
    obtain ⟨a, ha, hkey⟩ := (h.seen _).1 hseen
    refine ⟨.inr, ?_⟩
    rintro (rfl | he)
    · exact hkeys a ha hkey ▸ ha
    · exact he
  · rw [events_absorb h hseen, mem_insert]

variable {envelopes : List (ReplicatedEventEnvelope E)}

lemma mem_events_absorbAll (hkeys : KeyInjective (history.events ++ envelopes)) :
    e ∈ (absorbAll hooks history envelopes).events ↔ e ∈ history.events ∨ e ∈ envelopes := by
  induction envelopes generalizing history with
  | nil => simp [absorbAll]
  | cons envelope envelopes ih =>
    have hevents : ∀ {e}, e ∈ (absorb hooks history envelope).events ↔
        e = envelope ∨ e ∈ history.events :=
      mem_events_absorb h fun a ha hkey =>
        hkeys a (mem_append_left _ ha) envelope (mem_append_right _ mem_cons_self) hkey
    have hsubset : ∀ a ∈ (absorb hooks history envelope).events ++ envelopes,
        a ∈ history.events ++ envelope :: envelopes := by
      intro a ha
      simp only [mem_append, mem_cons, hevents] at ha ⊢
      tauto
    have hnext := ih (h.absorb envelope) fun a ha b hb => hkeys a (hsubset a ha) b (hsubset b hb)
    rw [absorbAll, foldl_cons]
    rw [absorbAll] at hnext
    rw [hnext, hevents, mem_cons]
    tauto

end

variable (hooks)

lemma sameView_of_mem_iff
    {envelopes' : List (ReplicatedEventEnvelope E)} (hmem : ∀ e, e ∈ envelopes ↔ e ∈ envelopes')
    (hkeys : KeyInjective envelopes)
    (hstamps : ∀ a ∈ envelopes, ∀ b ∈ envelopes, a.stamp = b.stamp → a = b) :
    SameView (absorbAll hooks (empty hooks) envelopes) (absorbAll hooks (empty hooks) envelopes') := by
  have hkeys' : KeyInjective envelopes' := fun a ha b hb =>
    hkeys a ((hmem a).2 ha) b ((hmem b).2 hb)
  have h := (settled_empty hooks).absorbAll envelopes
  have h' := (settled_empty hooks).absorbAll envelopes'
  have hevents : ∀ {e}, e ∈ (absorbAll hooks (empty hooks) envelopes).events ↔ e ∈ envelopes := by
    intro e
    rw [mem_events_absorbAll (settled_empty hooks) hkeys]
    exact or_iff_right not_mem_nil
  have hevents' : ∀ {e}, e ∈ (absorbAll hooks (empty hooks) envelopes').events ↔ e ∈ envelopes := by
    intro e
    rw [mem_events_absorbAll (settled_empty hooks) hkeys', hmem]
    exact or_iff_right not_mem_nil
  have hstrict : ∀ {history : ReplicatedHistory E S}, Settled hooks history →
      (∀ {e}, e ∈ history.events ↔ e ∈ envelopes) →
        history.events.Pairwise fun a b => a.stamp < b.stamp := by
    intro history h hevents
    have hne : history.events.Pairwise (· ≠ ·) := List.Nodup.of_map _ h.nodup
    refine (h.ordered.and hne).imp_of_mem fun ha hb ⟨hle, hne⟩ => lt_of_le_of_ne hle fun heq => ?_
    exact hne (hstamps _ (hevents.1 ha) _ (hevents.1 hb) heq)
  refine h.sameView h' ((hstrict h hevents).eq_of_mem_iff (hstrict h' hevents') fun e => ?_)
  rw [hevents, hevents']

variable (history)

lemma events_sublist_absorb (envelope : ReplicatedEventEnvelope E) :
    history.events.Sublist (absorb hooks history envelope).events := by
  rw [absorb]
  split_ifs
  · exact List.Sublist.refl _
  · exact sublist_insertIdx _ _ _

lemma events_sublist_absorbAll (envelopes : List (ReplicatedEventEnvelope E)) :
    history.events.Sublist (absorbAll hooks history envelopes).events := by
  induction envelopes generalizing history with
  | nil => exact List.Sublist.refl _
  | cons envelope envelopes ih =>
    exact (events_sublist_absorb hooks history envelope).trans (ih _)

lemma events_two {a b : ReplicatedEventEnvelope E}
    (hkeys : a.deduplicationKeyFor ≠ b.deduplicationKeyFor) (hstamp : a.stamp = b.stamp) :
    (absorbAll hooks (empty hooks) [a, b]).events = [a, b] := by
  have ha : (absorb hooks (empty hooks) a).events = [a] :=
    events_absorb (settled_empty hooks) (not_mem_empty _)
  have hsettled := (settled_empty hooks).absorb a
  have hb : b.deduplicationKeyFor ∉ (absorb hooks (empty hooks) a).seenIds := by
    rw [hsettled.seen, ha]
    rintro ⟨e, he, hkey⟩
    rw [mem_singleton.1 he] at hkey
    exact hkeys hkey
  have hplace : findInsertIndex [a] b = 1 := by
    refine findIdx_eq_length.2 fun e he => decide_eq_false ?_
    rw [mem_singleton.1 he, ReplicatedEventEnvelope.compare, hstamp, Stamp.compare_neg_iff]
    exact lt_irrefl _
  change (absorb hooks (absorb hooks (empty hooks) a) b).events = [a, b]
  rw [events_absorb hsettled hb, ha, hplace]
  rfl

variable {hooks}

lemma not_sublist_swap {α : Type} {l : List α} (hl : l.Nodup) {a b : α}
    (hab : [a, b].Sublist l) : ¬ [b, a].Sublist l := by
  intro hba
  induction l with
  | nil => cases hab
  | cons c l ih =>
    obtain ⟨hc, hl⟩ := nodup_cons.1 hl
    cases hab with
    | cons _ hab =>
      cases hba with
      | cons _ hba => exact ih hl hab hba
      | cons_cons _ hba => exact hc (hab.subset (mem_cons_of_mem _ mem_cons_self))
    | cons_cons _ hb =>
      cases hba with
      | cons _ hba => exact hc (hba.subset (mem_cons_of_mem _ mem_cons_self))
      | cons_cons _ hba => exact hc (hb.subset mem_cons_self)

/-- Any two orders of the same envelopes, each as often as one likes, end alike for every
entity. -/
def Converges (envelopes : List (ReplicatedEventEnvelope E)) : Prop :=
  ∀ order order' : List (ReplicatedEventEnvelope E), (∀ e, e ∈ order ↔ e ∈ envelopes) →
    (∀ e, e ∈ order' ↔ e ∈ envelopes) → ∀ (S : Type) (hooks : ReplicatedHooks E S),
      SameView (absorbAll hooks (empty hooks) order) (absorbAll hooks (empty hooks) order')

lemma deduplicationKeyFor_of_accepted {claim : EnvelopeClaim E}
    (h : claim.envelopeRejection = none) :
    claim.eventId = some (.str claim.envelope.deduplicationKeyFor) := by
  obtain ⟨-, ⟨eventId, heventId, hlength, henvelope⟩, -⟩ := EnvelopeClaim.envelope_of_accepted h
  rw [deduplicationKeyFor, henvelope]
  dsimp only
  rw [if_pos hlength, heventId]

lemma not_converges_of_stamp_eq {a b : ReplicatedEventEnvelope E} (ha : a ∈ envelopes)
    (hb : b ∈ envelopes) (hkeys : a.deduplicationKeyFor ≠ b.deduplicationKeyFor)
    (hstamp : a.stamp = b.stamp) : ¬ Converges envelopes := by
  intro h
  have hmem : ∀ e, e ∈ a :: b :: envelopes ↔ e ∈ envelopes := by
    intro e
    rw [mem_cons, mem_cons]
    exact ⟨fun he => he.elim (· ▸ ha) fun he => he.elim (· ▸ hb) id, fun he => .inr (.inr he)⟩
  have hmem' : ∀ e, e ∈ b :: a :: envelopes ↔ e ∈ envelopes := by
    intro e
    rw [mem_cons, mem_cons]
    exact ⟨fun he => he.elim (· ▸ hb) fun he => he.elim (· ▸ ha) id, fun he => .inr (.inr he)⟩
  have hooks : ReplicatedHooks E Unit := ⟨(), fun _ _ => ()⟩
  have hview := h _ _ hmem hmem' Unit hooks
  have hfirst : [a, b].Sublist (absorbAll hooks (empty hooks) (a :: b :: envelopes)).events := by
    rw [← events_two hooks hkeys hstamp]
    exact events_sublist_absorbAll hooks _ envelopes
  have hsecond : [b, a].Sublist (absorbAll hooks (empty hooks) (b :: a :: envelopes)).events := by
    rw [← events_two hooks hkeys.symm hstamp.symm]
    exact events_sublist_absorbAll hooks _ envelopes
  have hsettled := (settled_empty hooks).absorbAll (a :: b :: envelopes)
  exact not_sublist_swap (List.Nodup.of_map _ hsettled.nodup) hfirst (hview.events ▸ hsecond)

/-- Accepted envelopes with different event ids converge just when no two of them carry the
same stamp. -/
theorem converges_iff (claims : List (EnvelopeClaim E))
    (haccepted : ∀ claim ∈ claims, claim.envelopeRejection = none)
    (hids : (claims.map EnvelopeClaim.eventId).Nodup) :
    Converges (claims.map EnvelopeClaim.envelope) ↔
      (claims.map fun claim => claim.envelope.stamp).Nodup := by
  have hkeys : (claims.map fun claim => claim.envelope.deduplicationKeyFor).Nodup := by
    refine List.Nodup.of_map (fun key => some (Json.str key)) ?_
    rw [map_map]
    refine (map_congr_left fun claim hclaim => ?_) ▸ hids
    exact deduplicationKeyFor_of_accepted (haccepted claim hclaim)
  constructor
  · intro hconverges
    refine List.Pairwise.map _ (fun _ _ h => h) ?_
    refine (pairwise_map.1 hkeys).imp_of_mem fun {a b} ha hb hne hstamp => ?_
    exact not_converges_of_stamp_eq (mem_map_of_mem ha) (mem_map_of_mem hb) hne hstamp hconverges
  · intro hstamps order order' hmem hmem' S hooks
    have hinjective : ∀ {κ : Type} (f : EnvelopeClaim E → κ), (claims.map f).Nodup →
        ∀ a ∈ claims, ∀ b ∈ claims, f a = f b → a = b :=
      fun f hf a ha b hb => inj_on_of_nodup_map hf ha hb
    have horder : ∀ e ∈ order, ∃ claim ∈ claims, claim.envelope = e := fun e he =>
      mem_map.1 ((hmem e).1 he)
    refine sameView_of_mem_iff hooks (fun e => (hmem e).trans (hmem' e).symm)
      (fun a ha b hb hkey => ?_) fun a ha b hb hstamp => ?_
    · obtain ⟨claim, hclaim, rfl⟩ := horder a ha
      obtain ⟨claim', hclaim', rfl⟩ := horder b hb
      rw [hinjective _ hkeys claim hclaim claim' hclaim' hkey]
    · obtain ⟨claim, hclaim, rfl⟩ := horder a ha
      obtain ⟨claim', hclaim', rfl⟩ := horder b hb
      rw [hinjective _ hstamps claim hclaim claim' hclaim' hstamp]

def one : JsNumber := .finite ⟨false, 2 ^ 52, -52, by decide⟩

/-- The first claim of a replica, at a time. -/
def claimAt (eventId : JsString) (timestamp : JsNumber) : EnvelopeClaim ℕ where
  persistenceId := some (.str "a")
  replica := some (.str "r")
  seqAtReplica := some (.num one)
  eventId := some (.str eventId)
  vc := some (.obj [])
  timestamp := some (.num timestamp)
  event := 1

theorem converges_iff_two :
    Converges [(claimAt "x".toJs (.finite (.zero false))).envelope, (claimAt "y".toJs one).envelope] ↔
      [(claimAt "x".toJs (.finite (.zero false))).envelope.stamp,
        (claimAt "y".toJs one).envelope.stamp].Nodup :=
  converges_iff [claimAt "x".toJs (.finite (.zero false)), claimAt "y".toJs one] (by
      intro claim hclaim
      rcases mem_cons.1 hclaim with rfl | hclaim
      · decide +kernel
      · rw [mem_singleton.1 hclaim]
        decide +kernel)
    (by
      have hne : "x".toJs ≠ "y".toJs := by decide
      simpa [claimAt] using hne)

/-- One replica gives two events the same number at the same time. -/
theorem not_converges_one_stamp :
    (∀ claim ∈ [claimAt "x".toJs one, claimAt "y".toJs one], claim.envelopeRejection = none) ∧
      ([claimAt "x".toJs one, claimAt "y".toJs one].map EnvelopeClaim.eventId).Nodup ∧
      ¬ Converges ([claimAt "x".toJs one, claimAt "y".toJs one].map EnvelopeClaim.envelope) := by
  have hne : "x".toJs ≠ "y".toJs := by decide
  refine ⟨fun claim hclaim => ?_, by simpa [claimAt] using hne, ?_⟩
  · rcases mem_cons.1 hclaim with rfl | hclaim
    · decide +kernel
    · rw [mem_singleton.1 hclaim]
      decide +kernel
  · have hkeys : (claimAt "x".toJs one).envelope.deduplicationKeyFor ≠
        (claimAt "y".toJs one).envelope.deduplicationKeyFor := hne
    exact not_converges_of_stamp_eq mem_cons_self (mem_cons_of_mem _ mem_cons_self) hkeys rfl

end ReplicatedHistory

end ActorTs.Persistence
