import ActorTs.Crdt.SubscriberTurns

/-!
# Every run tells its subscribers the latest value

The remaining steps are the callers' and the subscribers': a message is sent, a notification
is handed over, an actor stops. A hand-over moves the notification from what is on its way to
what was handed over, so that what the subscriber was told stays as it is.
-/

open List Option Nat

namespace ActorTs.Subscribers

open System State

variable {V E : Type*} {encode : V → E} {s t : State V} {l : Ledger}

/-- The message may be sent. -/
def Fits (s : State V) : Message → Prop
  | .subscribe key actor ticket => s.calls[ticket]? = some (key, actor) ∧ s.tickets ticket = none ∧
      ticket ∉ s.inbox.filterMap Message.ticket?
  | .unsubscribe key ticket => ∃ actor, s.calls[ticket]? = some (key, actor)
  | .handedOver _ _ => True
  | .terminated actor => actor ∈ s.stopped

lemma Tables.tell (h : Tables s) {message : Message} (hfits : Fits s message) :
    Tables (s.tellReplicator message) := by
  refine ⟨h.slot_call, h.registration_of, h.ticket_of, fun hof => ?_, ?_, fun hof => ?_, h.entry_of,
    fun hof => ?_⟩
  · rcases mem_append.1 hof with hof | hof
    · exact h.waiting hof
    · rw [← mem_singleton.1 hof] at hfits
      exact ⟨hfits.1, hfits.2.1⟩
  · unfold tellReplicator
    rw [filterMap_append]
    cases message with
    | subscribe key actor ticket =>
      refine nodup_append.2 ⟨h.nodup_waiting, nodup_singleton _, ?_⟩
      intro a ha b hb hab
      rw [hab, mem_singleton.1 hb] at ha
      exact hfits.2.2 ha
    | unsubscribe key ticket =>
      rw [filterMap_cons_none rfl, filterMap_nil, append_nil]
      exact h.nodup_waiting
    | handedOver key i =>
      rw [filterMap_cons_none rfl, filterMap_nil, append_nil]
      exact h.nodup_waiting
    | terminated actor =>
      rw [filterMap_cons_none rfl, filterMap_nil, append_nil]
      exact h.nodup_waiting
  · rcases mem_append.1 hof with hof | hof
    · exact h.asked hof
    · rw [← mem_singleton.1 hof] at hfits
      exact hfits
  · rcases mem_append.1 hof with hof | hof
    · exact h.stopped_of hof
    · rw [← mem_singleton.1 hof] at hfits
      exact hfits

lemma Inv.tell (h : Inv encode ⟨s, l⟩) {message : Message} (hfits : Fits s message) :
    Inv encode ⟨s.tellReplicator message, l⟩ where
  tables := h.tables.tell hfits
  queues := { h.queues with }
  linked := { h.linked with }
  latest := h.latest

lemma Inv.subscribeActor (h : Inv encode ⟨s, l⟩) (key : JsString) (subscriber : ActorRef) :
    Inv encode ⟨s.subscribeActor key subscriber, l⟩ := by
  have hcalls : ∀ {n : ℕ} {call : JsString × ActorRef}, s.calls[n]? = some call →
      (s.calls ++ [(key, subscriber)])[n]? = some call := by
    intro n call hn
    rw [List.getElem?_append_left (List.getElem?_eq_some_iff.1 hn).1, hn]
  have hlast : s.calls[s.calls.length]? = none := getElem?_eq_none le_rfl
  have htables : Tables { s with calls := s.calls ++ [(key, subscriber)] } := by
    refine ⟨fun hi => ?_, h.tables.registration_of, fun hof => ?_, fun hof => ?_,
        h.tables.nodup_waiting, fun hof => ?_, h.tables.entry_of, h.tables.stopped_of⟩
    · obtain ⟨hcall, hrest⟩ := h.tables.slot_call hi
      exact ⟨hcalls hcall, hrest⟩
    · obtain ⟨hmade, hsome, k, actor, actor', hcall, hcall'⟩ := h.tables.ticket_of hof
      exact ⟨hmade, hsome, k, actor, actor', hcalls hcall, hcalls hcall'⟩
    · obtain ⟨hcall, hnone⟩ := h.tables.waiting hof
      exact ⟨hcalls hcall, hnone⟩
    · obtain ⟨actor, hcall⟩ := h.tables.asked hof
      exact ⟨actor, hcalls hcall⟩
  have hfits : Fits { s with calls := s.calls ++ [(key, subscriber)] }
      (.subscribe key subscriber s.calls.length) := by
    refine ⟨getElem?_concat_length, ?_, ?_⟩
    · cases hof : s.tickets s.calls.length with
      | none => rfl
      | some registration =>
        obtain ⟨-, -, k, actor, actor', hcall, -⟩ := h.tables.ticket_of hof
        rw [show s.calls[s.calls.length]? = some (k, actor) from hcall] at hlast
        cases hlast
    · intro hof
      obtain ⟨message, hmem, hticket⟩ := mem_filterMap.1 hof
      cases message with
      | subscribe k actor ticket =>
        simp only [Message.ticket?, some.injEq] at hticket
        have hcall := (h.tables.waiting hmem).1
        rw [hticket, show s.calls[s.calls.length]? = none from hlast] at hcall
        cases hcall
      | unsubscribe k ticket => cases hticket
      | handedOver k i => cases hticket
      | terminated actor => cases hticket
  exact Inv.tell ⟨htables, { h.queues with }, { h.linked with }, h.latest⟩ hfits

lemma length_le_one_of_unique {α : Type*} {xs : List α} (hnodup : xs.Nodup)
    (h : ∀ x ∈ xs, ∀ y ∈ xs, x = y) : xs.length ≤ 1 := by
  rcases xs with - | ⟨x, - | ⟨y, xs⟩⟩
  · exact zero_le 1
  · exact le_rfl
  · have hxy := h x mem_cons_self y (mem_cons_of_mem _ mem_cons_self)
    rw [hxy] at hnodup
    exact absurd mem_cons_self (nodup_cons.1 hnodup).1

lemma Queues.length_posted_le (h : Queues s) (path key : JsString) :
    (s.posted.filter fun m => m.subscriber.path = path ∧ m.key = key).length ≤ 1 := by
  refine length_le_one_of_unique (h.nodup_posted.of_map _ |>.filter _) fun m hm m' hm' => ?_
  obtain ⟨hm, hof⟩ := mem_filter.1 hm
  obtain ⟨hm', hof'⟩ := mem_filter.1 hm'
  simp only [decide_eq_true_eq] at hof hof'
  exact h.posted_unique hm hm' (hof.1.trans hof'.1.symm) (hof.2.trans hof'.2.symm)

variable {m : Posted V}

/-- What is on its way to a subscriber about a key is one notification, if it is anything. -/
lemma Queues.queuedFor_eq (h : Queues s) (hm : m ∈ s.posted) :
    s.queuedFor m.subscriber m.key = [m.value] := by
  have hmem : m ∈ s.posted.filter fun m' => m'.subscriber = m.subscriber ∧ m'.key = m.key := by
    refine mem_filter.2 ⟨hm, ?_⟩
    simp only [and_self, decide_true]
  have hlen : (s.posted.filter fun m' =>
      m'.subscriber = m.subscriber ∧ m'.key = m.key).length ≤ 1 := by
    refine length_le_one_of_unique (h.nodup_posted.of_map _ |>.filter _) fun m₁ hm₁ m₂ hm₂ => ?_
    obtain ⟨hm₁, hof₁⟩ := mem_filter.1 hm₁
    obtain ⟨hm₂, hof₂⟩ := mem_filter.1 hm₂
    simp only [decide_eq_true_eq] at hof₁ hof₂
    exact h.posted_unique hm₁ hm₂ (by rw [hof₁.1, hof₂.1]) (hof₁.2.trans hof₂.2.symm)
  obtain ⟨m', hm'⟩ := length_eq_one_iff.1 (le_antisymm hlen (length_pos_of_mem hmem))
  rw [hm', mem_singleton] at hmem
  rw [queuedFor, hm', hmem, map_singleton]

/-- The mailbox and the log after a hand-over, and the mark of the slot. -/
def State.released (s : State V) (m : Posted V) : State V :=
  { s.setSlot m.slot { s.slot m.slot with queued := none } with
    posted := s.posted.filter fun m' => m'.id ≠ m.id
    handed := s.handed ++ [⟨m.subscriber, m.key, m.value⟩] }

lemma handOver_eq (h : Queues s) (hm : m ∈ s.posted) :
    s.handOver m = if (s.slot m.slot).registration = none
      then (s.released m).tellReplicator (.handedOver m.key m.slot) else s.released m := by
  obtain ⟨-, -, -, -, -, hqueued⟩ := h.posted_of hm
  have hregistration : ((s.released m).slot m.slot).registration = (s.slot m.slot).registration :=
    (s.sameTables_setQueued m.slot none).registration m.slot
  have heq : s.handOver m = if (s.slot m.slot).queued ≠ some m.id then
      { s with
        posted := s.posted.filter fun m' => m'.id ≠ m.id
        handed := s.handed ++ [⟨m.subscriber, m.key, m.value⟩] }
      else if ((s.released m).slot m.slot).registration = none
        then (s.released m).tellReplicator (.handedOver m.key m.slot) else s.released m := rfl
  rw [heq, if_neg (not_not.2 hqueued), hregistration]

lemma told_released (h : Queues s) (hm : m ∈ s.posted) (actor : ActorRef) (key : JsString)
    {since : ℕ} (hsince : since ≤ s.handed.length) :
    (s.released m).told actor key since = s.told actor key since := by
  unfold told
  by_cases hof : m.subscriber = actor ∧ m.key = key
  · obtain ⟨rfl, rfl⟩ := hof
    have hqueued : (s.released m).queuedFor m.subscriber m.key = [] := by
      rw [queuedFor, map_eq_nil_iff, filter_eq_nil_iff]
      intro m' hm' hof
      obtain ⟨hm', hid⟩ := mem_filter.1 hm'
      simp only [decide_eq_true_eq] at hof hid
      exact hid (congrArg Posted.id (h.posted_unique hm' hm (by rw [hof.1]) hof.2))
    have hhanded : (s.released m).handedSince m.subscriber m.key since =
        s.handedSince m.subscriber m.key since ++ [m.value] := by
      unfold handedSince released
      rw [drop_append_of_le_length hsince, filter_append, map_append,
        filter_cons_of_pos, filter_nil, map_singleton]
      simp only [and_self, decide_true]
    rw [hqueued, hhanded, h.queuedFor_eq hm, append_nil]
  · have hqueued : (s.released m).queuedFor actor key = s.queuedFor actor key := by
      unfold queuedFor released
      rw [List.filter_filter]
      refine congrArg _ (filter_congr fun m' hm' => ?_)
      by_cases hid : m'.id = m.id
      · rw [inj_on_of_nodup_map h.nodup_posted hm' hm hid]
        simp [hof]
      · simp [hid]
    have hhanded : (s.released m).handedSince actor key since = s.handedSince actor key since := by
      unfold handedSince released
      rw [drop_append_of_le_length hsince, filter_append, filter_cons_of_neg,
        filter_nil, append_nil]
      simpa only [decide_eq_true_eq] using hof
    rw [hqueued, hhanded]

lemma Queues.released (h : Queues s) (hm : m ∈ s.posted) : Queues (s.released m) := by
  have hself : ((s.released m).slot m.slot).queued = none :=
    congrArg Slot.queued (s.slot_setSlot_self m.slot _)
  have hother : ∀ {j}, j ≠ m.slot → (s.released m).slot j = s.slot j :=
    fun hj => s.slot_setSlot_of_ne hj _
  have hne : ∀ {j n}, ((s.released m).slot j).queued = some n → j ≠ m.slot := by
    rintro j n hn rfl
    rw [hself] at hn
    cases hn
  have hsubscriber : ∀ j, ((s.released m).slot j).subscriber = (s.slot j).subscriber :=
    (s.sameTables_setQueued m.slot none).subscriber
  refine ⟨fun {m'} hm' => ?_, ?_, fun hj halive hn => ?_, fun hj hn => ?_, fun hj hj' hn hn' => ?_⟩
  · obtain ⟨hm', hid⟩ := mem_filter.1 hm'
    simp only [decide_eq_true_eq] at hid
    obtain ⟨halive, hlocal, hlt, hget, hsub, hqueued⟩ := h.posted_of hm'
    have hslot : m'.slot ≠ m.slot := by
      intro hslot
      obtain ⟨-, -, -, -, -, hqueued'⟩ := h.posted_of hm
      rw [hslot, hqueued', some.injEq] at hqueued
      exact hid hqueued.symm
    rw [hother hslot]
    exact ⟨halive, hlocal, hlt, hget, hsub, hqueued⟩
  · exact h.nodup_posted.sublist (filter_sublist.map _)
  · have hj_ne := hne hn
    rw [hsubscriber] at halive
    rw [hother hj_ne] at hn
    obtain ⟨m', hm', hid, hslot⟩ := h.queued_of hj halive hn
    refine ⟨m', mem_filter.2 ⟨hm', ?_⟩, hid, hslot⟩
    simp only [decide_eq_true_eq]
    intro hsame
    rw [inj_on_of_nodup_map h.nodup_posted hm' hm hsame] at hslot
    exact hj_ne hslot.symm
  · rw [hother (hne hn)] at hn
    exact h.queued_lt hj hn
  · rw [hother (hne hn)] at hn
    rw [hother (hne hn')] at hn'
    exact h.queued_inj hj hj' hn hn'

lemma Inv.handOver (h : Inv encode ⟨s, l⟩) (hm : m ∈ s.posted) :
    Inv encode ⟨s.handOver m, l⟩ := by
  have hsame : SameTables s (s.released m) := by
    refine { s.sameTables_setQueued m.slot none with handed := ?_ }
    unfold released
    rw [length_append]
    exact le_add_right _ _
  have hreleased : Inv encode ⟨s.released m, l⟩ := by
    refine ⟨hsame.tables h.tables, h.queues.released hm, hsame.linked h.linked, ?_⟩
    intro actor k subscription value hlive hvalue
    rw [told_released h.queues hm actor k (h.linked.live_of hlive).2.1]
    exact h.latest actor k subscription value hlive hvalue
  rw [handOver_eq h.queues hm]
  split
  · exact hreleased.tell trivial
  · exact hreleased

/-- The mailboxes after an actor stopped. -/
def State.withStopped (s : State V) (actor : ActorRef) : State V :=
  { s with
    stopped := actor :: s.stopped
    posted := s.posted.filter fun m => m.subscriber ≠ actor }

lemma live_stop_iff {actor actor' : ActorRef} {k : JsString} {subscription : Subscription} :
    (l.stop actor).live actor' k = some subscription ↔
      actor' ≠ actor ∧ l.live actor' k = some subscription := by
  unfold Ledger.stop
  simp only
  split
  · rename_i heq
    simp [heq]
  · rename_i hne
    simp [hne]

lemma Inv.withStopped (h : Inv encode ⟨s, l⟩) (actor : ActorRef) :
    Inv encode ⟨s.withStopped actor, l.stop actor⟩ := by
  have hof : ∀ {m}, m ∈ (s.withStopped actor).posted → m ∈ s.posted ∧ m.subscriber ≠ actor := by
    intro m hm
    obtain ⟨hm, hne⟩ := mem_filter.1 hm
    exact ⟨hm, of_decide_eq_true hne⟩
  have halive_iff : ∀ {actor'}, actor' ∉ (s.withStopped actor).stopped ↔
      actor' ≠ actor ∧ actor' ∉ s.stopped := by
    intro actor'
    unfold State.withStopped
    rw [mem_cons, not_or]
  refine ⟨?_, ?_, ?_, ?_⟩
  · exact { h.tables with
      stopped_of := fun hmem => mem_cons_of_mem _ (h.tables.stopped_of hmem) }
  · refine ⟨fun hm => ?_, ?_, fun hj halive hn => ?_, h.queues.queued_lt, h.queues.queued_inj⟩
    · obtain ⟨hm, hne⟩ := hof hm
      obtain ⟨halive, hrest⟩ := h.queues.posted_of hm
      exact ⟨halive_iff.2 ⟨hne, halive⟩, hrest⟩
    · exact h.queues.nodup_posted.sublist (filter_sublist.map _)
    · obtain ⟨hne, halive⟩ := halive_iff.1 halive
      obtain ⟨m, hm, hid, hslot⟩ := h.queues.queued_of hj halive hn
      refine ⟨m, mem_filter.2 ⟨hm, decide_eq_true ?_⟩, hid, hslot⟩
      rw [(h.queues.posted_slot h.tables hj hm hslot).2]
      exact hne
  · refine ⟨fun hlive => ?_, fun hj halive hr => ?_, h.linked.bound_of, fun hticket halive => ?_⟩
    · obtain ⟨hne, hlive⟩ := live_stop_iff.1 hlive
      obtain ⟨halive, hrest⟩ := h.linked.live_of hlive
      exact ⟨halive_iff.2 ⟨hne, halive⟩, hrest⟩
    · obtain ⟨hne, halive⟩ := halive_iff.1 halive
      obtain ⟨subscription, hlive⟩ := h.linked.registered_of hj halive hr
      exact ⟨subscription, live_stop_iff.2 ⟨hne, hlive⟩⟩
    · exact h.linked.ticket_bound hticket (halive_iff.1 halive).2
  · intro actor' k subscription value hlive hvalue
    obtain ⟨hne, hlive⟩ := live_stop_iff.1 hlive
    have htold : (s.withStopped actor).told actor' k subscription.since =
        s.told actor' k subscription.since := by
      refine congrArg (s.handedSince actor' k subscription.since ++ ·) ?_
      unfold State.queuedFor State.withStopped
      rw [List.filter_filter]
      refine congrArg _ (filter_congr fun m _ => ?_)
      by_cases hm : m.subscriber = actor'
      · simp [hm, hne]
      · simp [hm]
    rw [htold]
    exact h.latest actor' k subscription value hlive hvalue

lemma Inv.stop (h : Inv encode ⟨s, l⟩) (actor : ActorRef) :
    Inv encode ⟨s.stop actor, l.stop actor⟩ := by
  have hstopped := h.withStopped actor
  have hunwatched : Inv encode
      ⟨{ s.withStopped actor with watchers := s.watchers.delete actor }, l.stop actor⟩ :=
    ⟨{ hstopped.tables with }, { hstopped.queues with }, { hstopped.linked with }, hstopped.latest⟩
  have hfits : Fits { s.withStopped actor with watchers := s.watchers.delete actor }
      (.terminated actor) := mem_cons_self
  unfold State.stop
  simp only
  split
  · exact hunwatched.tell hfits
  · exact hstopped

lemma inv_initial : Inv encode (System.initial : System V) where
  tables := by
    refine ⟨?_, ?_, ?_, ?_, nodup_nil, ?_, ?_, ?_⟩
    all_goals intros; simp_all [System.initial, State.initial]
  queues := by
    refine ⟨?_, nodup_nil, ?_, ?_, ?_⟩
    all_goals intros; simp_all [System.initial, State.initial]
  linked := by
    refine ⟨?_, ?_, ?_, ?_⟩
    all_goals intros; simp_all [System.initial, State.initial, Ledger.initial]
  latest := by
    intro actor key subscription value hlive
    cases hlive

lemma Inv.receive {x : System V} (h : Inv encode x) (hsafe : Safe encode x .receive) :
    Inv encode x.receive := by
  obtain ⟨s, l⟩ := x
  unfold System.receive
  cases hinbox : s.inbox with
  | nil => exact h
  | cons message rest =>
    simp only [Safe, hinbox, head?_cons] at hsafe
    have hsub : rest.Sublist s.inbox := by
      rw [hinbox]
      exact sublist_cons_self _ _
    have hmem : message ∈ s.inbox := by
      rw [hinbox]
      exact mem_cons_self
    have hpopped := h.sublist hsub
    cases message with
    | subscribe key subscriber ticket =>
      obtain ⟨hcall, hnew⟩ := h.tables.waiting hmem
      have hnodup : (ticket :: rest.filterMap Message.ticket?).Nodup := by
        have hwaiting := h.tables.nodup_waiting
        rw [hinbox] at hwaiting
        exact hwaiting
      exact hpopped.subscribe hsafe hnew hcall (nodup_cons.1 hnodup).1
    | unsubscribe key ticket =>
      obtain ⟨actor, hcall⟩ := h.tables.asked hmem
      exact hpopped.unsubscribe hcall
    | handedOver key i => exact hpopped.handedOver key i
    | terminated actor => exact hpopped.receiveTerminated hsafe (h.tables.stopped_of hmem)

lemma Inv.step [DecidableEq E] {x : System V} (h : Inv encode x) {a : Action V}
    (henabled : x.Enabled a) (hsafe : Safe encode x a) : Inv encode (x.step encode a) := by
  obtain ⟨s, l⟩ := x
  cases a with
  | subscribe key subscriber => exact h.subscribeActor key subscriber
  | unsubscribe key ticket => exact h.tell henabled
  | receive => exact h.receive hsafe
  | shed message => exact h.sublist erase_sublist
  | merge key next => exact h.applyMerged encode fun hsame => hsame
  | update key made mutator =>
    refine h.applyMerged encode fun hsame => ?_
    cases hvalue : s.values key with
    | none =>
      simp only [hvalue, getD_none, map_some, some.injEq] at hsame
      exact absurd hsame.symm (hsafe hvalue)
    | some value =>
      simp only [hvalue, getD_some] at hsame ⊢
      exact hsame
  | delete key => exact h.onDelete encode key
  | handOver notification => exact h.handOver henabled
  | stop actor => exact h.stop actor
  | restart => exact h

lemma Inv.tellsLatest {x : System V} (h : Inv encode x) : TellsLatest encode x where
  at_most_one := h.queues.length_posted_le
  latest := by
    intro actor key subscription value hlive hvalue
    have hlast := h.latest actor key subscription value hlive hvalue
    obtain ⟨last, hlast, hencode⟩ := map_eq_some_iff.1 hlast
    rw [told, getLast?_append] at hlast
    cases hqueued : (x.state.queuedFor actor key).getLast? with
    | some queued =>
      rw [hqueued, some_or, some.injEq] at hlast
      refine .inl ⟨queued, mem_of_getLast? hqueued, ?_⟩
      rw [hlast, hencode]
    | none =>
      rw [hqueued, none_or] at hlast
      exact .inr ⟨last, hlast, hencode⟩
  ends_no_other := by
    rintro key ticket ⟨subscriber, hcall⟩ hended actor k subscription hlive
    have hafter := h.unsubscribe hcall
    exact (hafter.linked.live_of
      (live_unsubscribe_iff.2 ⟨hlive, hended actor k subscription hlive⟩)).2.2

/-- In every run whose steps are safe, subscribers are told the latest value, at most one
notification is on its way, and no function that was returned for a subscription that has
ended ends another. -/
theorem tellsLatest_of_reachable [DecidableEq E] {x : System V}
    (h : Reachable encode (Safe encode) x) : TellsLatest encode x := by
  have hinv : Inv encode x := by
    induction h with
    | initial => exact inv_initial
    | step _ henabled hsafe ih => exact ih.step henabled hsafe
  exact hinv.tellsLatest

/-- A subscription is taken out, and the key gets a value. -/
theorem tellsLatest_of_reachable_subscribe :
    ∃ x : System ℕ, TellsLatest id x ∧ x.ledger.live ⟨[], 1, 1, true⟩ [] = some ⟨0, 0⟩ ∧
      x.state.queuedFor ⟨[], 1, 1, true⟩ [] = [5] := by
  have hinitial : Reachable (id : ℕ → ℕ) (Safe id) initial := .initial
  have hcalled := hinitial.step (a := .subscribe [] ⟨[], 1, 1, true⟩) trivial trivial
  have hown : Safe id ((initial : System ℕ).step id (.subscribe [] ⟨[], 1, 1, true⟩))
      .receive := fun entry hentry => by cases hentry
  have hreceived := hcalled.step (a := .receive) trivial hown
  have hmerged := hreceived.step (a := .merge [] 5) trivial trivial
  exact ⟨_, tellsLatest_of_reachable hmerged, rfl, rfl⟩

/-- An update that leaves what its factory made is told to nobody; and a late notice takes the next
subscription on its path. -/
theorem not_tellsLatest :
    (∃ x : System ℕ, Reachable id (fun _ _ => True) x ∧
      x.ledger.live ⟨[], 1, 1, true⟩ [] = some ⟨0, 0⟩ ∧ x.state.values [] = some 5 ∧
      ¬ TellsLatest id x) ∧
    ∃ x : System ℕ, Reachable id (fun _ _ => True) x ∧
      x.ledger.live ⟨[], 2, 2, true⟩ [] = some ⟨1, 0⟩ ∧ x.state.values [] = some 5 ∧
      ¬ TellsLatest id x := by
  have h₀ : Reachable (id : ℕ → ℕ) (fun _ _ => True) initial := .initial
  have h₁ := h₀.step (a := .subscribe [] ⟨[], 1, 1, true⟩) trivial trivial
  constructor
  · have h₂ := h₁.step (a := .receive) trivial trivial
    have h₃ := h₂.step (a := .update [] 5 id) trivial trivial
    refine ⟨_, h₃, rfl, rfl, fun htells => ?_⟩
    rcases htells.latest ⟨[], 1, 1, true⟩ [] ⟨0, 0⟩ 5 rfl rfl with
      ⟨queued, hmem, -⟩ | ⟨last, hlast, -⟩
    · cases hmem
    · cases hlast
  · have h₂ := h₁.step (a := .stop ⟨[], 1, 1, true⟩) rfl trivial
    have h₃ := h₂.step (a := .subscribe [] ⟨[], 2, 2, true⟩) trivial trivial
    have h₄ := h₃.step (a := .receive) trivial trivial
    have h₅ := h₄.step (a := .receive) trivial trivial
    have h₆ := h₅.step (a := .receive) trivial trivial
    have h₇ := h₆.step (a := .merge [] 5) trivial trivial
    refine ⟨_, h₇, rfl, rfl, fun htells => ?_⟩
    rcases htells.latest ⟨[], 2, 2, true⟩ [] ⟨1, 0⟩ 5 rfl rfl with
      ⟨queued, hmem, -⟩ | ⟨last, hlast, -⟩
    · cases hmem
    · cases hlast

end ActorTs.Subscribers
