import ActorTs.Crdt.SubscriberOffers

/-!
# The replicator's turns

A call finds the slot of its subscriber or makes one, and is bound to the registration that holds
it. A slot is dropped when it is neither held nor marked, or with all the others of its path. Each
of these keeps the invariant as long as the slots of a path are those of one actor.
-/

open List Option OrderedMap OrderedSet Function

namespace ActorTs.Subscribers

open State

variable {V E : Type*} {encode : V → E} {s t : State V} {l : Ledger}

/-! ### Taking a message out of the mailbox -/

lemma Tables.sublist (h : Tables s) {inbox : List Message} (hsub : inbox.Sublist s.inbox) :
    Tables { s with inbox } :=
  ⟨h.slot_call, h.registration_of, h.ticket_of, fun hmem => h.waiting (hsub.subset hmem),
    h.nodup_waiting.sublist (hsub.filterMap _), fun hmem => h.asked (hsub.subset hmem), h.entry_of,
    fun hmem => h.stopped_of (hsub.subset hmem)⟩

lemma Inv.sublist (h : Inv encode ⟨s, l⟩) {inbox : List Message}
    (hsub : inbox.Sublist s.inbox) : Inv encode ⟨{ s with inbox }, l⟩ where
  tables := h.tables.sublist hsub
  queues := ⟨h.queues.posted_of, h.queues.nodup_posted, h.queues.queued_of, h.queues.queued_lt,
    h.queues.queued_inj⟩
  linked := ⟨h.linked.live_of, h.linked.registered_of, h.linked.bound_of, h.linked.ticket_bound⟩
  latest := h.latest

/-! ### Taking out a subscription -/

/-- Nothing but the bookkeeping of the watches differs, and the notices that follow from it. -/
structure SameSlots (s t : State V) : Prop where
  values : t.values = s.values
  slots : t.slots = s.slots
  slot : t.slot = s.slot
  tickets : t.tickets = s.tickets
  calls : t.calls = s.calls
  stopped : t.stopped = s.stopped
  posted : t.posted = s.posted
  posts : t.posts = s.posts
  handed : t.handed = s.handed
  inbox : ∃ notices : List ActorRef, t.inbox = s.inbox ++ notices.map Message.terminated ∧
    ∀ actor ∈ notices, actor ∈ s.stopped

lemma SameSlots.refl (s : State V) : SameSlots s s :=
  ⟨rfl, rfl, rfl, rfl, rfl, rfl, rfl, rfl, rfl, [], (append_nil _).symm,
    fun _ hmem => absurd hmem not_mem_nil⟩

lemma sameSlots_watch (s : State V) (actor : ActorRef) : SameSlots s (s.watch actor) := by
  unfold watch
  split
  · exact SameSlots.refl s
  · simp only
    split
    · rename_i hstopped
      refine ⟨rfl, rfl, rfl, rfl, rfl, rfl, rfl, rfl, rfl, [actor], rfl, fun a ha => ?_⟩
      rw [mem_singleton.1 ha]
      exact hstopped
    · exact { SameSlots.refl s with }

lemma sameSlots_rememberSubscriber (s : State V) (path : JsString) (subscriber : ActorRef)
    (key : JsString) : SameSlots s (s.rememberSubscriber path subscriber key) := by
  unfold rememberSubscriber
  split
  · exact { SameSlots.refl s with }
  · simp only
    split
    · exact { sameSlots_watch _ subscriber with }
    · exact { SameSlots.refl s with }

@[simp] lemma subscribers_watch (s : State V) (actor : ActorRef) :
    (s.watch actor).subscribers = s.subscribers := by
  unfold watch
  split
  · rfl
  · simp only
    split
    · rfl
    · rfl

variable {subscriber : ActorRef}

lemma get?_rememberSubscriber (hown : OwnPath s subscriber) (key : JsString) : ∃ entry,
      (∀ path, (s.rememberSubscriber subscriber.path subscriber key).subscribers.get? path =
        if subscriber.path = path then some entry else s.subscribers.get? path) ∧
      entry.subscriber = subscriber ∧ key ∈ entry.keys ∧
      ∀ entry', s.subscribers.get? subscriber.path = some entry' →
        ∀ k ∈ entry'.keys, k ∈ entry.keys := by
  unfold rememberSubscriber
  cases hentry : s.subscribers.get? subscriber.path with
  | some entry =>
    refine ⟨{ entry with keys := entry.keys.add key }, fun path => ?_, hown entry hentry, ?_, ?_⟩
    · exact get?_set _ _ _ _
    · exact (mem_add _ _ _).2 (.inl rfl)
    · rintro entry' hsome k hk
      cases hsome
      exact (mem_add _ _ _).2 (.inr hk)
  | none =>
    refine ⟨⟨subscriber, OrderedSet.empty.add key, subscriber.isLocal⟩, fun path => ?_, rfl, ?_, ?_⟩
    · simp only
      split
      · rw [subscribers_watch]
        exact get?_set _ _ _ _
      · exact get?_set _ _ _ _
    · exact (mem_add _ _ _).2 (.inl rfl)
    · rintro entry' hsome
      cases hsome

/-- The state after a call was bound to the registration of its slot. -/
structure Bound (s t : State V) (key : JsString) (subscriber : ActorRef) (ticket : Ticket) (i : ℕ)
    (registration : Registration) : Prop where
  found : (i = ticket ∧ s.slots.get? (key, subscriber.path) = none ∧ (t.slot i).queued = none ∧
      registration = ⟨ticket, i⟩) ∨
    (s.slots.get? (key, subscriber.path) = some i ∧ (s.slot i).subscriber = subscriber ∧
      (t.slot i).queued = (s.slot i).queued ∧
      registration = (s.slot i).registration.getD ⟨ticket, i⟩)
  slots : ∀ k path, t.slots.get? (k, path) =
    if k = key ∧ path = subscriber.path then some i else s.slots.get? (k, path)
  subscriber_eq : (t.slot i).subscriber = subscriber
  registration_eq : (t.slot i).registration = some registration
  slot : ∀ {j}, j ≠ i → t.slot j = s.slot j
  tickets : t.tickets = Function.update s.tickets ticket (some registration)
  entries : ∀ {k path j}, t.slots.get? (k, path) = some j → ∃ entry,
    t.subscribers.get? path = some entry ∧ k ∈ entry.keys ∧
      entry.subscriber = (t.slot j).subscriber
  values : t.values = s.values
  calls : t.calls = s.calls
  stopped : t.stopped = s.stopped
  posted : t.posted = s.posted
  posts : t.posts = s.posts
  handed : t.handed = s.handed
  inbox : ∃ notices : List ActorRef, t.inbox = s.inbox ++ notices.map Message.terminated ∧
    ∀ actor ∈ notices, actor ∈ s.stopped

lemma slot_bindTicket_self (s : State V) (i : ℕ) (ticket : Ticket) :
    (s.bindTicket i ticket).slot i = ⟨(s.slot i).subscriber, (s.slot i).queued,
        some ((s.slot i).registration.getD ⟨ticket, i⟩)⟩ :=
  s.slot_setSlot_self i _

lemma slot_bindTicket_of_ne (s : State V) {i j : ℕ} (h : j ≠ i) (ticket : Ticket) :
    (s.bindTicket i ticket).slot j = s.slot j :=
  s.slot_setSlot_of_ne h _

lemma bound_of_found (h : Tables s) {key : JsString} (hown : OwnPath s subscriber)
    (ticket : Ticket) {i : ℕ} (hi : s.slots.get? (key, subscriber.path) = some i) :
    Bound s (s.bindTicket i ticket) key subscriber ticket i
      ((s.slot i).registration.getD ⟨ticket, i⟩) := by
  have hsubscriber : (s.slot i).subscriber = subscriber := by
    obtain ⟨entry, hentry, -, hof⟩ := h.entry_of hi
    rw [← hof, hown entry hentry]
  have hslot : ∀ j, ((s.bindTicket i ticket).slot j).subscriber = (s.slot j).subscriber := by
    intro j
    by_cases hj : j = i
    · rw [hj, slot_bindTicket_self]
    · rw [slot_bindTicket_of_ne s hj]
  refine ⟨.inr ⟨hi, hsubscriber, ?_, rfl⟩, fun k path => ?_, ?_, ?_, fun hj => ?_, rfl, ?_, rfl,
    rfl, rfl, rfl, rfl, rfl, [], (append_nil _).symm,
    fun _ hmem => absurd hmem not_mem_nil⟩
  · rw [slot_bindTicket_self]
  · change s.slots.get? (k, path) = _
    split
    · rename_i hsame
      rw [hsame.1, hsame.2, hi]
    · rfl
  · rw [hslot, hsubscriber]
  · rw [slot_bindTicket_self]
  · exact slot_bindTicket_of_ne s hj ticket
  · intro k path j hj
    rw [hslot]
    exact h.entry_of hj

lemma bound_of_made (h : Tables s) {key : JsString} (hown : OwnPath s subscriber)
    {ticket : Ticket} (hnew : s.tickets ticket = none)
    (hnone : s.slots.get? (key, subscriber.path) = none) :
    Bound s ((({ s with slots := s.slots.set (key, subscriber.path) ticket }.setSlot ticket
        { subscriber }).rememberSubscriber subscriber.path subscriber key).bindTicket ticket ticket)
      key subscriber ticket ticket ⟨ticket, ticket⟩ := by
  set made := { s with slots := s.slots.set (key, subscriber.path) ticket }.setSlot ticket
    { subscriber } with hmade
  have hsame := sameSlots_rememberSubscriber made subscriber.path subscriber key
  obtain ⟨entry, hentries, hentry, hkey, hkeys⟩ := get?_rememberSubscriber (s := made) hown key
  set t := made.rememberSubscriber subscriber.path subscriber key with ht
  have hself : t.slot ticket = { subscriber } := by
    rw [hsame.slot]
    exact slot_setSlot_self _ _ _
  have hother : ∀ {j}, j ≠ ticket → t.slot j = s.slot j := by
    intro j hj
    rw [hsame.slot]
    exact slot_setSlot_of_ne _ hj _
  have hbind : ∀ {j}, j ≠ ticket → (t.bindTicket ticket ticket).slot j = s.slot j := by
    intro j hj
    rw [slot_bindTicket_of_ne t hj, hother hj]
  have hfresh : ∀ {k path j}, s.slots.get? (k, path) = some j → j ≠ ticket := by
    intro k path j hj heq
    obtain ⟨-, -, hsome⟩ := h.slot_call hj
    rw [heq, hnew] at hsome
    cases hsome
  have hslots : ∀ k path, t.slots.get? (k, path) =
      if k = key ∧ path = subscriber.path then some ticket else s.slots.get? (k, path) := by
    intro k path
    rw [hsame.slots]
    refine (get?_set _ _ _ _).trans (if_congr ?_ rfl rfl)
    rw [Prod.mk.injEq]
    exact ⟨fun hof => ⟨hof.1.symm, hof.2.symm⟩, fun hof => ⟨hof.1.symm, hof.2.symm⟩⟩
  refine ⟨.inl ⟨rfl, hnone, ?_, rfl⟩, hslots, ?_, ?_, hbind, ?_, ?_, hsame.values, hsame.calls,
    hsame.stopped, hsame.posted, hsame.posts, hsame.handed, hsame.inbox⟩
  · rw [slot_bindTicket_self, hself]
  · rw [slot_bindTicket_self, hself]
  · rw [slot_bindTicket_self, hself, getD_none]
  · unfold bindTicket
    rw [hself, hsame.tickets]
    rfl
  · intro k path j hj
    change t.slots.get? (k, path) = some j at hj
    change ∃ e, t.subscribers.get? path = some e ∧ _
    rw [hslots] at hj
    rw [hentries]
    split at hj
    · rename_i hof
      cases hj
      refine ⟨entry, if_pos hof.2.symm, ?_, hentry.trans ?_⟩
      · rw [hof.1]
        exact hkey
      · rw [slot_bindTicket_self, hself]
    · obtain ⟨entry', hentry', hk, hof⟩ := h.entry_of hj
      rw [hbind (hfresh hj)]
      by_cases hpath : subscriber.path = path
      · subst hpath
        refine ⟨entry, if_pos rfl, hkeys entry' hentry' k hk, ?_⟩
        rw [hentry, ← hof, hown entry' hentry']
      · rw [if_neg hpath]
        exact ⟨entry', hentry', hk, hof⟩

namespace Bound

variable {key : JsString} {subscriber : ActorRef} {ticket : Ticket} {i : ℕ}
  {registration : Registration}

section

variable (h : Bound s t key subscriber ticket i registration)
include h

lemma self : t.slots.get? (key, subscriber.path) = some i := by
  rw [h.slots, if_pos ⟨rfl, rfl⟩]

variable {k path : JsString} {j : ℕ}

lemma cases (hs : Tables s) (hnew : s.tickets ticket = none)
    (hj : t.slots.get? (k, path) = some j) :
    (k = key ∧ path = subscriber.path ∧ j = i) ∨ (j ≠ i ∧ s.slots.get? (k, path) = some j) := by
  rw [h.slots] at hj
  split at hj
  · rename_i hof
    cases hj
    exact .inl ⟨hof.1, hof.2, rfl⟩
  · rename_i hof
    refine .inr ⟨fun heq => ?_, hj⟩
    rcases h.found with ⟨hticket, -⟩ | ⟨hi, -⟩
    · obtain ⟨-, -, hsome⟩ := hs.slot_call hj
      rw [heq, hticket, hnew] at hsome
      cases hsome
    · exact hof (hs.slot_inj hj (heq ▸ hi))

lemma keeps (hj : s.slots.get? (k, path) = some j) : t.slots.get? (k, path) = some j := by
  rw [h.slots]
  split
  · rename_i hof
    rw [hof.1, hof.2] at hj
    rcases h.found with ⟨-, hnone, -⟩ | ⟨hi, -⟩
    · rw [hnone] at hj
      cases hj
    · rw [← hi, hj]
  · exact hj

lemma registration_slot (hs : Tables s) :
    registration.slot = i ∧
      (registration.ticket = ticket ∨ s.tickets registration.ticket = some registration) := by
  rcases h.found with ⟨-, -, -, rfl⟩ | ⟨hi, -, -, rfl⟩
  · exact ⟨rfl, .inl rfl⟩
  · cases hr : (s.slot i).registration with
    | none => exact ⟨rfl, .inl rfl⟩
    | some registration =>
      obtain ⟨hslot, hticket⟩ := hs.registration_of hi hr
      exact ⟨hslot, .inr hticket⟩

lemma tickets_self : t.tickets ticket = some registration := by
  rw [h.tickets, update_self]

variable {ticket' : Ticket} {registration' : Registration}

lemma tickets_of_ne (hne : ticket' ≠ ticket) : t.tickets ticket' = s.tickets ticket' := by
  rw [h.tickets, update_of_ne hne]

lemma tickets_keep
    (hnew : s.tickets ticket = none) (hof : s.tickets ticket' = some registration') :
    t.tickets ticket' = some registration' := by
  have hne : ticket' ≠ ticket := by
    rintro rfl
    rw [hnew] at hof
    cases hof
  rw [h.tickets_of_ne hne, hof]

lemma tables (hs : Tables s) (hnew : s.tickets ticket = none)
    (hcall : s.calls[ticket]? = some (key, subscriber))
    (hwaiting : ticket ∉ s.inbox.filterMap Message.ticket?) : Tables t := by
  obtain ⟨hslot, hmade⟩ := h.registration_slot hs
  have hmade' : t.tickets registration.ticket = some registration := by
    rcases hmade with hmade | hmade
    · rw [hmade, h.tickets_self]
    · exact h.tickets_keep hnew hmade
  have hcall_i : s.calls[i]? = some (key, subscriber) := by
    rcases h.found with ⟨rfl, -⟩ | ⟨hi, hsubscriber, -⟩
    · exact hcall
    · rw [(hs.slot_call hi).1, hsubscriber]
  have hticket_i : (t.tickets i).isSome := by
    rcases h.found with ⟨rfl, -⟩ | ⟨hi, -⟩
    · rw [h.tickets_self]
      rfl
    · obtain ⟨registration', hof⟩ := isSome_iff_exists.1 (hs.slot_call hi).2.2
      rw [h.tickets_keep hnew hof]
      rfl
  obtain ⟨notices, hinbox, hnotices⟩ := h.inbox
  have hmem : ∀ {message : Message}, message ∈ t.inbox →
      message ∈ s.inbox ∨ ∃ actor ∈ s.stopped, message = .terminated actor := by
    intro message hof
    rw [hinbox, List.mem_append, List.mem_map] at hof
    rcases hof with hof | ⟨actor, hactor, rfl⟩
    · exact .inl hof
    · exact .inr ⟨actor, hnotices actor hactor, rfl⟩
  refine ⟨fun hj => ?_, fun hj hr => ?_, fun {ticket' registration'} hof => ?_, fun hof => ?_, ?_,
    fun hof => ?_, h.entries, fun hof => ?_⟩
  · rcases h.cases hs hnew hj with ⟨rfl, rfl, rfl⟩ | ⟨hne, hj⟩
    · rw [h.subscriber_eq, h.calls]
      exact ⟨hcall_i, rfl, hticket_i⟩
    · obtain ⟨hcall', hpath, hsome⟩ := hs.slot_call hj
      obtain ⟨registration', hof⟩ := isSome_iff_exists.1 hsome
      rw [h.slot hne, h.calls, h.tickets_keep hnew hof]
      exact ⟨hcall', hpath, rfl⟩
  · rcases h.cases hs hnew hj with ⟨rfl, rfl, rfl⟩ | ⟨hne, hj⟩
    · rw [h.registration_eq, some.injEq] at hr
      rw [← hr]
      exact ⟨hslot, hmade'⟩
    · rw [h.slot hne] at hr
      obtain ⟨hslot', hof⟩ := hs.registration_of hj hr
      exact ⟨hslot', h.tickets_keep hnew hof⟩
  · rw [h.calls]
    by_cases hne : ticket' = ticket
    · rw [hne, h.tickets_self, some.injEq] at hof
      rw [hne, ← hof, hslot]
      exact ⟨hmade', hticket_i, key, subscriber, subscriber, hcall, hcall_i⟩
    · rw [h.tickets_of_ne hne] at hof
      obtain ⟨hof', hsome, hcalls⟩ := hs.ticket_of hof
      obtain ⟨registration'', hof''⟩ := isSome_iff_exists.1 hsome
      refine ⟨h.tickets_keep hnew hof', ?_, hcalls⟩
      rw [h.tickets_keep hnew hof'']
      rfl
  · rcases hmem hof with hof | ⟨actor, -, hof⟩
    · obtain ⟨hcall', hnone⟩ := hs.waiting hof
      rw [h.calls, h.tickets_of_ne ?_]
      · exact ⟨hcall', hnone⟩
      · rintro rfl
        exact hwaiting (mem_filterMap.2 ⟨_, hof, rfl⟩)
    · cases hof
  · have hnone : (notices.map Message.terminated).filterMap Message.ticket? = [] := by
      rw [filterMap_eq_nil_iff]
      intro message hof
      obtain ⟨actor, -, rfl⟩ := mem_map.1 hof
      rfl
    rw [hinbox, filterMap_append, hnone, append_nil]
    exact hs.nodup_waiting
  · rcases hmem hof with hof | ⟨actor, -, hof⟩
    · rw [h.calls]
      exact hs.asked hof
    · cases hof
  · rw [h.stopped]
    rcases hmem hof with hof | ⟨actor, hactor, hof⟩
    · exact hs.stopped_of hof
    · cases hof
      exact hactor

lemma queued_eq {j n : ℕ} (hs : Tables s) (hnew : s.tickets ticket = none)
    (hj : t.slots.get? (k, path) = some j) (hn : (t.slot j).queued = some n) :
    s.slots.get? (k, path) = some j ∧ (s.slot j).queued = some n ∧
      (t.slot j).subscriber = (s.slot j).subscriber := by
  rcases h.cases hs hnew hj with ⟨rfl, rfl, rfl⟩ | ⟨hne, hj⟩
  · rcases h.found with ⟨-, -, hempty, -⟩ | ⟨hi, hsubscriber, hqueued, -⟩
    · rw [hempty] at hn
      cases hn
    · rw [hqueued] at hn
      exact ⟨hi, hn, by rw [h.subscriber_eq, hsubscriber]⟩
  · rw [h.slot hne] at hn ⊢
    exact ⟨hj, hn, rfl⟩

lemma queues (hs : Tables s) (hnew : s.tickets ticket = none) (hq : Queues s) : Queues t := by
  refine ⟨fun {m} hm => ?_, ?_, fun hj halive hn => ?_, fun hj hn => ?_, fun hj hj' hn hn' => ?_⟩
  · rw [h.posted] at hm
    obtain ⟨halive, hlocal, hlt, hget, hsub, hqueued⟩ := hq.posted_of hm
    have hget' := h.keeps hget
    rw [h.stopped, h.posts]
    refine ⟨halive, hlocal, hlt, hget', ?_⟩
    rcases h.cases hs hnew hget' with ⟨hkey, hpath, hslot⟩ | ⟨hne, -⟩
    · rw [hslot] at hget hsub hqueued ⊢
      rcases h.found with ⟨-, hnone, -⟩ | ⟨-, hsubscriber, hqueued', -⟩
      · rw [hkey, hpath, hnone] at hget
        cases hget
      · rw [h.subscriber_eq, ← hsub, hsubscriber, hqueued']
        exact ⟨rfl, hqueued⟩
    · rw [h.slot hne]
      exact ⟨hsub, hqueued⟩
  · rw [h.posted]
    exact hq.nodup_posted
  · obtain ⟨hj', hn', hsub⟩ := h.queued_eq hs hnew hj hn
    rw [h.stopped, hsub] at halive
    rw [h.posted]
    exact hq.queued_of hj' halive hn'
  · obtain ⟨hj', hn', -⟩ := h.queued_eq hs hnew hj hn
    rw [h.posts]
    exact hq.queued_lt hj' hn'
  · obtain ⟨hj₁, hn₁, -⟩ := h.queued_eq hs hnew hj hn
    obtain ⟨hj₂, hn₂, -⟩ := h.queued_eq hs hnew hj' hn'
    exact hq.queued_inj hj₁ hj₂ hn₁ hn₂

lemma holds (hs : Tables s) (hnew : s.tickets ticket = none) {actor : ActorRef} {id : Ticket}
    (hof : s.Holds actor k id) : t.Holds actor k id := by
  obtain ⟨j, hj, hsubscriber, hregistration⟩ := hof
  have hj' := h.keeps hj
  refine ⟨j, hj', ?_⟩
  rcases h.cases hs hnew hj' with ⟨rfl, hpath, rfl⟩ | ⟨hne, -⟩
  · rcases h.found with ⟨-, hnone, -⟩ | ⟨-, hsub, -, hr⟩
    · rw [← hpath, hj] at hnone
      cases hnone
    · rw [hregistration, getD_some] at hr
      rw [h.subscriber_eq, ← hsub, hsubscriber, h.registration_eq, hr]
      exact ⟨rfl, rfl⟩
  · rw [h.slot hne]
    exact ⟨hsubscriber, hregistration⟩

lemma subscriber_of_ticket (hs : Tables s) (hnew : s.tickets ticket = none)
    (hof : s.tickets ticket' = some registration') :
    (t.slot registration'.slot).subscriber = (s.slot registration'.slot).subscriber := by
  by_cases hne : registration'.slot = i
  · rcases h.found with ⟨hticket, -⟩ | ⟨-, hsubscriber, -⟩
    · obtain ⟨-, hsome, -⟩ := hs.ticket_of hof
      rw [hne, hticket, hnew] at hsome
      cases hsome
    · rw [hne, h.subscriber_eq, hsubscriber]
  · rw [h.slot hne]

/-- The registration of the call is that of the subscription that is live for its subscriber,
or it is new. -/
lemma registration_ticket (hlinked : Linked s l) (halive : subscriber ∉ s.stopped) :
    registration.ticket = ((l.live subscriber key).map Subscription.id).getD ticket := by
  cases hlive : l.live subscriber key with
  | some subscription =>
    obtain ⟨-, -, j, hj, -, hregistration⟩ := hlinked.live_of hlive
    rcases h.found with ⟨-, hnone, -⟩ | ⟨hi, -, -, hr⟩
    · rw [hj] at hnone
      cases hnone
    · rw [hi, some.injEq] at hj
      rw [hj, hregistration, getD_some] at hr
      rw [hr, map_some, getD_some]
  | none =>
    rw [map_none, getD_none]
    rcases h.found with ⟨-, -, -, hr⟩ | ⟨hi, hsubscriber, -, hr⟩
    · rw [hr]
    · cases hregistration : (s.slot i).registration with
      | none =>
        rw [hr, hregistration, getD_none]
      | some registration' =>
        obtain ⟨subscription, hof⟩ :=
          hlinked.registered_of hi (by rwa [hsubscriber]) hregistration
        rw [hsubscriber, hlive] at hof
        cases hof

lemma linked_of_stopped (hs : Tables s) (hnew : s.tickets ticket = none) (hlinked : Linked s l)
    (hstopped : subscriber ∈ s.stopped) : Linked t l := by
  refine ⟨fun hlive => ?_, fun hj halive hr => ?_, fun hof => ?_,
    fun {ticket' registration'} hof halive => ?_⟩
  · obtain ⟨halive, hsince, hholds⟩ := hlinked.live_of hlive
    rw [h.stopped, h.handed]
    exact ⟨halive, hsince, h.holds hs hnew hholds⟩
  · rw [h.stopped] at halive
    rcases h.cases hs hnew hj with ⟨rfl, rfl, rfl⟩ | ⟨hne, hj⟩
    · rw [h.subscriber_eq] at halive
      exact absurd hstopped halive
    · rw [h.slot hne] at halive hr ⊢
      exact hlinked.registered_of hj halive hr
  · obtain ⟨registration', hof', hid⟩ := hlinked.bound_of hof
    exact ⟨registration', h.tickets_keep hnew hof', hid⟩
  · rw [h.stopped] at halive
    by_cases hne : ticket' = ticket
    · rw [hne, h.tickets_self, some.injEq] at hof
      rw [← hof, (h.registration_slot hs).1, h.subscriber_eq] at halive
      exact absurd hstopped halive
    · rw [h.tickets_of_ne hne] at hof
      rw [h.subscriber_of_ticket hs hnew hof] at halive
      exact hlinked.ticket_bound hof halive

/-- After the call of an actor that is alive the subscription of the slot is live and bound to it.
-/
lemma linked_of_alive (hs : Tables s) (hnew : s.tickets ticket = none) (hlinked : Linked s l)
    {l' : Ledger} {subscription : Subscription} (hself : l'.live subscriber key = some subscription)
    (hsince : subscription.since ≤ s.handed.length) (hid : subscription.id = registration.ticket)
    (hother : ∀ {actor k}, ¬ (actor = subscriber ∧ k = key) → l'.live actor k = l.live actor k)
    (hbound : l'.bound = Function.update l.bound ticket (some registration.ticket))
    (halive : subscriber ∉ s.stopped) : Linked t l' := by
  have hslot := (h.registration_slot hs).1
  refine ⟨fun {actor k sub} hlive => ?_, fun {k path j registration'} hj halive' hr => ?_,
    fun {ticket' id} hof => ?_, fun {ticket' registration'} hof halive' => ?_⟩
  · rw [h.stopped, h.handed]
    by_cases hof : actor = subscriber ∧ k = key
    · obtain ⟨rfl, rfl⟩ := hof
      rw [hself, some.injEq] at hlive
      rw [← hlive]
      refine ⟨halive, hsince, i, h.self, h.subscriber_eq, ?_⟩
      rw [h.registration_eq, hid, ← hslot]
    · rw [hother hof] at hlive
      obtain ⟨halive', hsince', hholds⟩ := hlinked.live_of hlive
      exact ⟨halive', hsince', h.holds hs hnew hholds⟩
  · rw [h.stopped] at halive'
    rcases h.cases hs hnew hj with ⟨rfl, rfl, rfl⟩ | ⟨hne, hj'⟩
    · rw [h.subscriber_eq]
      exact ⟨subscription, hself⟩
    · rw [h.slot hne] at halive' hr ⊢
      obtain ⟨sub, hlive⟩ := hlinked.registered_of hj' halive' hr
      by_cases hof : (s.slot j).subscriber = subscriber ∧ k = key
      · rw [hof.1, hof.2]
        exact ⟨subscription, hself⟩
      · exact ⟨sub, (hother hof).trans hlive⟩
  · rw [hbound] at hof
    by_cases hne : ticket' = ticket
    · rw [hne, update_self, some.injEq] at hof
      rw [hne]
      exact ⟨registration, h.tickets_self, hof⟩
    · rw [update_of_ne hne] at hof
      obtain ⟨registration', hof', hid'⟩ := hlinked.bound_of hof
      exact ⟨registration', h.tickets_keep hnew hof', hid'⟩
  · rw [h.stopped] at halive'
    rw [hbound]
    by_cases hne : ticket' = ticket
    · rw [hne, h.tickets_self, some.injEq] at hof
      rw [hne, update_self, hof]
    · rw [h.tickets_of_ne hne] at hof
      rw [h.subscriber_of_ticket hs hnew hof] at halive'
      rw [update_of_ne hne]
      exact hlinked.ticket_bound hof halive'

end

end Bound

variable {subscriber : ActorRef} {registration : Registration}

lemma Linked.subscribe {key : JsString} {ticket : Ticket} {i : ℕ} (hlinked : Linked s l)
    (h : Bound s t key subscriber ticket i registration) (hs : Tables s)
    (hnew : s.tickets ticket = none) : Linked t (l.subscribe s key subscriber ticket) := by
  unfold Ledger.subscribe
  split
  · rename_i hstopped
    exact h.linked_of_stopped hs hnew hlinked hstopped
  · rename_i halive
    have hticket := h.registration_ticket hlinked halive
    split
    · rename_i subscription hlive
      rw [hlive, map_some, getD_some] at hticket
      refine h.linked_of_alive hs hnew hlinked hlive (hlinked.live_of hlive).2.1 hticket.symm
        (fun _ => rfl) ?_ halive
      rw [hticket]
    · rename_i hlive
      rw [hlive, map_none, getD_none] at hticket
      have hself : (l.begin key subscriber ticket s.handed.length).live subscriber key =
          some ⟨ticket, s.handed.length⟩ := if_pos ⟨rfl, rfl⟩
      refine h.linked_of_alive hs hnew hlinked hself le_rfl hticket.symm (fun hne => if_neg hne) ?_
        halive
      rw [hticket]
      rfl

lemma live_subscribe_of_ne (l : Ledger) (s : State V) {key : JsString} (ticket : Ticket)
    {actor : ActorRef} {k : JsString} (hne : ¬ (actor = subscriber ∧ k = key)) :
    (l.subscribe s key subscriber ticket).live actor k = l.live actor k := by
  unfold Ledger.subscribe
  split
  · rfl
  · split
    · rfl
    · exact if_neg hne

lemma told_congr (hposted : t.posted = s.posted) (hhanded : t.handed = s.handed)
    (actor : ActorRef) (key : JsString) (since : ℕ) :
    t.told actor key since = s.told actor key since := by
  unfold told handedSince queuedFor
  rw [hposted, hhanded]

/-- A call that finds the tables with nothing of another actor on its path keeps the
invariant. -/
lemma Inv.subscribe (h : Inv encode ⟨s, l⟩) {key : JsString} {ticket : Ticket}
    (hown : OwnPath s subscriber) (hnew : s.tickets ticket = none)
    (hcall : s.calls[ticket]? = some (key, subscriber))
    (hwaiting : ticket ∉ s.inbox.filterMap Message.ticket?) :
    Inv encode ⟨s.onDistributedDataSubscribe key subscriber ticket,
      l.subscribe s key subscriber ticket⟩ := by
  obtain ⟨u, i, registration, hbound, hu⟩ : ∃ u i registration,
      Bound s u key subscriber ticket i registration ∧
        s.onDistributedDataSubscribe key subscriber ticket =
          (u.values key).elim u (u.offerToSubscriber key i) := by
    unfold onDistributedDataSubscribe findSlot
    cases hi : s.slots.get? (key, subscriber.path) with
    | some i =>
      refine ⟨_, _, _, bound_of_found h.tables hown ticket hi, ?_⟩
      dsimp only
      split <;> next heq => rw [heq]; rfl
    | none =>
      refine ⟨_, _, _, bound_of_made h.tables hown hnew hi, ?_⟩
      dsimp only
      split <;> next heq => rw [heq]; rfl
  have htables := hbound.tables h.tables hnew hcall hwaiting
  have hqueues := hbound.queues h.tables hnew h.queues
  have hlinked := h.linked.subscribe hbound h.tables hnew
  have hlatest : ∀ actor k subscription value, ¬ (actor = subscriber ∧ k = key) →
      (l.subscribe s key subscriber ticket).live actor k = some subscription →
      u.values k = some value →
      ((u.told actor k subscription.since).getLast?).map encode = some (encode value) := by
    intro actor k subscription value hne hlive hvalue
    rw [live_subscribe_of_ne l s ticket hne] at hlive
    rw [hbound.values] at hvalue
    rw [told_congr hbound.posted hbound.handed]
    exact h.latest actor k subscription value hlive hvalue
  rw [hu]
  cases hvalue : u.values key with
  | none =>
    rw [Option.elim_none]
    refine ⟨htables, hqueues, hlinked, fun actor k subscription value hlive hvalue' => ?_⟩
    refine hlatest actor k subscription value ?_ hlive hvalue'
    rintro ⟨-, rfl⟩
    rw [hvalue] at hvalue'
    cases hvalue'
  | some current =>
    rw [Option.elim_some]
    have hnotified := Notified.offerToSubscriber hqueues htables hbound.self current
    refine ⟨hnotified.same.tables htables, hnotified.queues, hnotified.same.linked hlinked, ?_⟩
    intro actor k subscription value hlive hvalue'
    obtain ⟨halive, hsince, -⟩ := hlinked.live_of hlive
    rw [hnotified.same.values] at hvalue'
    by_cases hof : actor = subscriber ∧ k = key
    · obtain ⟨rfl, rfl⟩ := hof
      have hlast := hnotified.told (mem_singleton_self _)
        (by rw [hbound.registration_eq]; exact some_ne_none _)
        (by rwa [hbound.subscriber_eq]) hsince
      rw [hbound.subscriber_eq] at hlast
      rw [hvalue, some.injEq] at hvalue'
      rw [hlast, hvalue', map_some]
    · have hsame := told_offerToSubscriber_of_ne hqueues htables hbound.self current
        (by rwa [hbound.subscriber_eq]) hsince
      rw [hsame]
      exact hlatest actor k subscription value hof hlive hvalue'

/-! ### Dropping slots -/

/-- The state after some slots were dropped. -/
structure Dropped (s t : State V) (gone : JsString × JsString → Prop) : Prop where
  slots : ∀ k path j, t.slots.get? (k, path) = some j ↔
    s.slots.get? (k, path) = some j ∧ ¬ gone (k, path)
  entries : ∀ {k path j}, t.slots.get? (k, path) = some j → ∃ entry,
    t.subscribers.get? path = some entry ∧ k ∈ entry.keys ∧
      entry.subscriber = (s.slot j).subscriber
  values : t.values = s.values
  slot : t.slot = s.slot
  tickets : t.tickets = s.tickets
  calls : t.calls = s.calls
  inbox : t.inbox = s.inbox
  stopped : t.stopped = s.stopped
  posted : t.posted = s.posted
  posts : t.posts = s.posts
  handed : t.handed = s.handed

namespace Dropped

variable {gone : JsString × JsString → Prop}

lemma get? (h : Dropped s t gone) {k path : JsString} {j : ℕ}
    (hj : t.slots.get? (k, path) = some j) : s.slots.get? (k, path) = some j :=
  ((h.slots k path j).1 hj).1

lemma tables (h : Dropped s t gone) (hs : Tables s) : Tables t := by
  refine ⟨fun hj => ?_, fun hj => ?_, ?_, ?_, ?_, ?_, ?_, ?_⟩
  · rw [h.calls, h.slot, h.tickets]
    exact hs.slot_call (h.get? hj)
  · rw [h.slot, h.tickets]
    exact hs.registration_of (h.get? hj)
  · rw [h.tickets, h.calls]
    exact hs.ticket_of
  · rw [h.inbox, h.calls, h.tickets]
    exact hs.waiting
  · rw [h.inbox]
    exact hs.nodup_waiting
  · rw [h.inbox, h.calls]
    exact hs.asked
  · rw [h.slot]
    exact h.entries
  · rw [h.inbox, h.stopped]
    exact hs.stopped_of

lemma queues (h : Dropped s t gone) (hs : Queues s)
    (hposted : ∀ m ∈ s.posted, ¬ gone (m.key, m.subscriber.path)) : Queues t := by
  refine ⟨fun {m} hm => ?_, ?_, fun hj => ?_, fun hj => ?_, fun hj hj' => ?_⟩
  · rw [h.posted] at hm
    obtain ⟨halive, hlocal, hlt, hget, hsubscriber, hqueued⟩ := hs.posted_of hm
    rw [h.stopped, h.posts, h.slots, h.slot]
    exact ⟨halive, hlocal, hlt, ⟨hget, hposted m hm⟩, hsubscriber, hqueued⟩
  · rw [h.posted]
    exact hs.nodup_posted
  · rw [h.slot, h.stopped, h.posted]
    exact hs.queued_of (h.get? hj)
  · rw [h.slot, h.posts]
    exact hs.queued_lt (h.get? hj)
  · rw [h.slot]
    exact hs.queued_inj (h.get? hj) (h.get? hj')

lemma linked (h : Dropped s t gone) (hs : Linked s l)
    (hlive : ∀ actor k subscription, l.live actor k = some subscription →
      ¬ gone (k, actor.path)) : Linked t l := by
  refine ⟨fun {actor k subscription} hof => ?_, fun hj => ?_, ?_, ?_⟩
  · obtain ⟨halive, hsince, i, hi, hholds⟩ := hs.live_of hof
    rw [h.stopped, h.handed]
    refine ⟨halive, hsince, i, (h.slots _ _ _).2 ⟨hi, hlive actor k subscription hof⟩, ?_⟩
    rw [h.slot]
    exact hholds
  · rw [h.slot, h.stopped]
    exact hs.registered_of (h.get? hj)
  · rw [h.tickets]
    exact hs.bound_of
  · rw [h.tickets, h.slot, h.stopped]
    exact hs.ticket_bound

lemma latest (h : Dropped s t gone) (hs : Latest encode s l) : Latest encode t l := by
  intro actor k subscription value hlive hvalue
  rw [h.values] at hvalue
  rw [told_congr h.posted h.handed]
  exact hs actor k subscription value hlive hvalue

end Dropped

lemma dropped_dropSlot (h : Tables s) (key path : JsString) :
    Dropped s (s.dropSlot key path) (· = (key, path)) := by
  have hslots : ∀ k p j, (s.slots.delete (key, path)).get? (k, p) = some j ↔
      s.slots.get? (k, p) = some j ∧ ¬ (k, p) = (key, path) := by
    intro k p j
    rw [get?_delete]
    split
    · rename_i heq
      simp [heq]
    · rename_i hne
      simp [Ne.symm hne]
  unfold dropSlot forgetSubscription
  simp only
  split
  · rename_i hnone
    refine ⟨hslots, fun hj => h.entry_of ((hslots _ _ _).1 hj).1, rfl, rfl, rfl, rfl, rfl, rfl, rfl,
      rfl, rfl⟩
  · rename_i entry hentry
    have hkeys : ∀ {k p j}, (s.slots.delete (key, path)).get? (k, p) = some j → ∃ entry',
        s.subscribers.get? p = some entry' ∧ k ∈ entry'.keys ∧
          entry'.subscriber = (s.slot j).subscriber ∧
          (p = path → entry' = entry ∧ k ∈ entry.keys.delete key) := by
      intro k p j hj
      obtain ⟨hj, hne⟩ := (hslots k p j).1 hj
      obtain ⟨entry', hentry', hk, hsubscriber⟩ := h.entry_of hj
      refine ⟨entry', hentry', hk, hsubscriber, ?_⟩
      rintro rfl
      rw [hentry, some.injEq] at hentry'
      subst hentry'
      refine ⟨rfl, (mem_delete _ _ _).2 ⟨hk, ?_⟩⟩
      rintro rfl
      exact hne rfl
    split
    · refine ⟨hslots, fun {k p j} hj => ?_, rfl, rfl, rfl, rfl, rfl, rfl, rfl, rfl, rfl⟩
      obtain ⟨entry', hentry', hk, hsubscriber, hpath⟩ := hkeys hj
      simp only [get?_set]
      split
      · rename_i hp
        obtain ⟨rfl, hk'⟩ := hpath hp.symm
        exact ⟨_, rfl, hk', hsubscriber⟩
      · exact ⟨entry', hentry', hk, hsubscriber⟩
    · rename_i hempty
      have hsubscribers : ∀ {k p j}, (s.slots.delete (key, path)).get? (k, p) = some j →
          ∃ entry', (s.subscribers.delete path).get? p = some entry' ∧ k ∈ entry'.keys ∧
            entry'.subscriber = (s.slot j).subscriber := by
        intro k p j hj
        obtain ⟨entry', hentry', hk, hsubscriber, hpath⟩ := hkeys hj
        rw [get?_delete]
        split
        · rename_i hp
          exact absurd ((size_pos_iff _).2 ⟨k, (hpath hp.symm).2⟩) hempty
        · exact ⟨entry', hentry', hk, hsubscriber⟩
      split
      · unfold unwatch
        split
        · exact ⟨hslots, hsubscribers, rfl, rfl, rfl, rfl, rfl, rfl, rfl, rfl, rfl⟩
        · exact ⟨hslots, hsubscribers, rfl, rfl, rfl, rfl, rfl, rfl, rfl, rfl, rfl⟩
      · exact ⟨hslots, hsubscribers, rfl, rfl, rfl, rfl, rfl, rfl, rfl, rfl, rfl⟩

/-- A slot that no subscription holds and no notification has marked may go. -/
lemma Inv.dropSlot (h : Inv encode ⟨s, l⟩) {key path : JsString} {i : ℕ}
    (hi : s.slots.get? (key, path) = some i) (hended : (s.slot i).registration = none)
    (hempty : (s.slot i).queued = none) : Inv encode ⟨s.dropSlot key path, l⟩ := by
  have hdropped := dropped_dropSlot h.tables key path
  refine ⟨hdropped.tables h.tables, hdropped.queues h.queues ?_, hdropped.linked h.linked ?_,
    hdropped.latest h.latest⟩
  · intro m hm hgone
    obtain ⟨-, -, -, hget, -, hqueued⟩ := h.queues.posted_of hm
    rw [hgone, hi, some.injEq] at hget
    rw [← hget, hempty] at hqueued
    cases hqueued
  · intro actor k subscription hlive hgone
    obtain ⟨-, -, j, hj, -, hregistration⟩ := h.linked.live_of hlive
    rw [hgone, hi, some.injEq] at hj
    rw [← hj, hended] at hregistration
    cases hregistration

lemma Inv.handedOver (h : Inv encode ⟨s, l⟩) (key : JsString) (i : ℕ) :
    Inv encode ⟨s.onDistributedDataHandedOver key i, l⟩ := by
  unfold onDistributedDataHandedOver
  split
  · exact h
  · rename_i hfree
    rw [not_or, not_not, not_not] at hfree
    split
    · exact h
    · rename_i hi
      exact h.dropSlot (not_not.1 hi) hfree.1 hfree.2

/-! ### Ending a subscription -/

variable {actor : ActorRef} {ticket : Ticket}

/-- A live subscription that a call is bound to holds the slot of the registration that the
call was given. -/
lemma Linked.slot_of_bound (h : Linked s l) (hs : Tables s) {k : JsString}
    {subscription : Subscription} (hlive : l.live actor k = some subscription)
    (hbound : l.bound ticket = some subscription.id) (hof : s.tickets ticket = some registration) :
    s.slots.get? (k, actor.path) = some registration.slot ∧
      (s.slot registration.slot).subscriber = actor ∧
      (s.slot registration.slot).registration = some registration := by
  obtain ⟨-, -, j, hj, hsubscriber, hregistration⟩ := h.live_of hlive
  obtain ⟨registration', hof', hid⟩ := h.bound_of hbound
  rw [hof, some.injEq] at hof'
  rw [← hof'] at hid
  obtain ⟨-, hmade⟩ := hs.registration_of hj hregistration
  have hsame := (hs.ticket_of hof).1
  rw [hid, hmade, some.injEq] at hsame
  rw [← hsame]
  exact ⟨hj, hsubscriber, hregistration⟩

lemma live_unsubscribe_iff {k : JsString} {subscription : Subscription} :
    (l.unsubscribe ticket).live actor k = some subscription ↔
      l.live actor k = some subscription ∧ l.bound ticket ≠ some subscription.id := by
  unfold Ledger.unsubscribe
  split
  · rename_i hnone
    rw [hnone]
    exact ⟨fun h => ⟨h, (some_ne_none _).symm⟩, fun h => h.1⟩
  · rename_i id hid
    rw [hid, filter_eq_some_iff, decide_eq_true_eq, ne_eq, ne_eq, some.injEq]
    exact ⟨fun h => ⟨h.1, fun heq => h.2 heq.symm⟩, fun h => ⟨h.1, fun heq => h.2 heq.symm⟩⟩

@[simp] lemma bound_unsubscribe (l : Ledger) (ticket : Ticket) :
    (l.unsubscribe ticket).bound = l.bound := by
  unfold Ledger.unsubscribe
  split
  · rfl
  · rfl

lemma Latest.unsubscribe (h : Latest encode s l) (ticket : Ticket) :
    Latest encode s (l.unsubscribe ticket) :=
  fun actor k subscription value hlive =>
    h actor k subscription value (live_unsubscribe_iff.1 hlive).1

lemma Inv.unsubscribe_of_ended (h : Inv encode ⟨s, l⟩)
    (hended : ∀ actor k subscription, l.live actor k = some subscription →
      l.bound ticket ≠ some subscription.id) : Inv encode ⟨s, l.unsubscribe ticket⟩ := by
  refine ⟨h.tables, h.queues, ⟨fun hlive => ?_, fun hj halive hr => ?_, ?_, ?_⟩,
    h.latest.unsubscribe ticket⟩
  · exact h.linked.live_of (live_unsubscribe_iff.1 hlive).1
  · obtain ⟨subscription, hlive⟩ := h.linked.registered_of hj halive hr
    exact ⟨subscription, live_unsubscribe_iff.2 ⟨hlive, hended _ _ _ hlive⟩⟩
  · rw [bound_unsubscribe]
    exact h.linked.bound_of
  · rw [bound_unsubscribe]
    exact h.linked.ticket_bound

lemma subscriber_endRegistration (s : State V) (i j : ℕ) :
    ((s.setSlot i { s.slot i with registration := none }).slot j).subscriber =
      (s.slot j).subscriber := by
  rw [slot_setSlot]
  split
  · rename_i hj
    rw [hj]
  · rfl

lemma queued_endRegistration (s : State V) (i j : ℕ) :
    ((s.setSlot i { s.slot i with registration := none }).slot j).queued = (s.slot j).queued := by
  rw [slot_setSlot]
  split
  · rename_i hj
    rw [hj]
  · rfl

lemma Inv.endRegistration (h : Inv encode ⟨s, l⟩) (hof : s.tickets ticket = some registration)
    (hheld : (s.slot registration.slot).registration = some registration) :
    Inv encode ⟨s.setSlot registration.slot
      { s.slot registration.slot with registration := none }, l.unsubscribe ticket⟩ := by
  set u := s.setSlot registration.slot { s.slot registration.slot with registration := none }
  have hsubscriber : ∀ j, (u.slot j).subscriber = (s.slot j).subscriber :=
    subscriber_endRegistration s registration.slot
  have hqueued : ∀ j, (u.slot j).queued = (s.slot j).queued :=
    queued_endRegistration s registration.slot
  have hself : (u.slot registration.slot).registration = none :=
    congrArg Slot.registration (s.slot_setSlot_self registration.slot _)
  have hother : ∀ {j}, j ≠ registration.slot → u.slot j = s.slot j :=
    fun hj => s.slot_setSlot_of_ne hj _
  have hne : ∀ {j registration'}, (u.slot j).registration = some registration' →
      j ≠ registration.slot := by
    rintro j registration' hr rfl
    rw [hself] at hr
    cases hr
  refine ⟨?_, ?_, ?_, h.latest.unsubscribe ticket⟩
  · refine ⟨fun hj => ?_, fun hj hr => ?_, h.tables.ticket_of, h.tables.waiting,
      h.tables.nodup_waiting, h.tables.asked, fun hj => ?_, h.tables.stopped_of⟩
    · rw [hsubscriber]
      exact h.tables.slot_call hj
    · rw [hother (hne hr)] at hr
      exact h.tables.registration_of hj hr
    · rw [hsubscriber]
      exact h.tables.entry_of hj
  · refine ⟨fun hm => ?_, h.queues.nodup_posted, fun hj => ?_, fun hj => ?_, fun hj hj' => ?_⟩
    · rw [hsubscriber, hqueued]
      exact h.queues.posted_of hm
    · rw [hsubscriber, hqueued]
      exact h.queues.queued_of hj
    · rw [hqueued]
      exact h.queues.queued_lt hj
    · rw [hqueued, hqueued]
      exact h.queues.queued_inj hj hj'
  · refine ⟨fun hlive => ?_, fun {k p j registration'} hj halive hr => ?_, ?_, ?_⟩
    · obtain ⟨hlive, hbound⟩ := live_unsubscribe_iff.1 hlive
      obtain ⟨halive, hsince, j, hj, hsub, hr⟩ := h.linked.live_of hlive
      have hj_ne : j ≠ registration.slot := by
        rintro rfl
        rw [hheld, some.injEq] at hr
        refine hbound ?_
        rw [h.linked.ticket_bound hof (by rwa [hsub]), hr]
      refine ⟨halive, hsince, j, hj, ?_⟩
      rw [hother hj_ne]
      exact ⟨hsub, hr⟩
    · have hj_ne := hne hr
      rw [hsubscriber] at halive ⊢
      rw [hother hj_ne] at hr
      obtain ⟨subscription, hlive⟩ := h.linked.registered_of hj halive hr
      refine ⟨subscription, live_unsubscribe_iff.2 ⟨hlive, fun hbound => hj_ne ?_⟩⟩
      obtain ⟨hslot, -⟩ := h.linked.slot_of_bound h.tables hlive hbound hof
      obtain ⟨-, hpath, -⟩ := h.tables.slot_call hj
      rw [hpath, show s.slots.get? (k, p) = some j from hj, some.injEq] at hslot
      exact hslot
    · rw [bound_unsubscribe]
      exact h.linked.bound_of
    · rw [bound_unsubscribe]
      intro ticket' registration' hof'
      rw [hsubscriber]
      exact h.linked.ticket_bound hof'

lemma Inv.unsubscribe (h : Inv encode ⟨s, l⟩) {key : JsString}
    (hcall : s.calls[ticket]? = some (key, actor)) :
    Inv encode ⟨s.onDistributedDataUnsubscribe key ticket, l.unsubscribe ticket⟩ := by
  have hkey : ∀ {registration}, s.tickets ticket = some registration →
      ∀ {k path}, s.slots.get? (k, path) = some registration.slot → k = key := by
    intro registration hof k path hget
    obtain ⟨-, -, key', actor', actor'', hcall', hslot⟩ := h.tables.ticket_of hof
    rw [(h.tables.slot_call hget).1, some.injEq, Prod.mk.injEq] at hslot
    rw [hcall, some.injEq, Prod.mk.injEq] at hcall'
    rw [hslot.1, hcall'.1]
  unfold onDistributedDataUnsubscribe
  cases hof : s.tickets ticket with
  | none =>
    refine h.unsubscribe_of_ended fun actor k subscription _ hbound => ?_
    obtain ⟨registration, hof', -⟩ := h.linked.bound_of hbound
    rw [show s.tickets ticket = some registration from hof'] at hof
    cases hof
  | some registration =>
    simp only
    split
    · rename_i hheld
      refine h.unsubscribe_of_ended fun actor k subscription hlive hbound => hheld ?_
      exact (h.linked.slot_of_bound h.tables hlive hbound hof).2.2
    · rename_i hheld
      rw [not_not] at hheld
      split
      · rename_i hget
        refine h.unsubscribe_of_ended fun actor k subscription hlive hbound => hget ?_
        obtain ⟨hslot, hsubscriber, -⟩ := h.linked.slot_of_bound h.tables hlive hbound hof
        rw [hsubscriber, ← hkey hof hslot]
        exact hslot
      · rename_i hget
        rw [not_not] at hget
        have hended := h.endRegistration hof hheld
        split
        · exact hended
        · rename_i hempty
          refine hended.dropSlot hget ?_ ?_
          · exact congrArg Slot.registration (s.slot_setSlot_self registration.slot _)
          · exact (queued_endRegistration s _ _).trans (not_not.1 hempty)

/-! ### A subscriber stops -/

lemma get?_foldl_delete (keys : List JsString) (path : JsString)
    (slots : OrderedMap (JsString × JsString) ℕ) (k p : JsString) :
    (keys.foldl (fun slots key => slots.delete (key, path)) slots).get? (k, p) =
      if p = path ∧ k ∈ keys then none else slots.get? (k, p) := by
  induction keys generalizing slots with
  | nil => simp
  | cons key keys ih =>
    rw [foldl_cons, ih, get?_delete]
    by_cases hp : p = path
    · by_cases hk : key = k
      · simp [hp, hk]
      · simp [hp, hk, Ne.symm hk]
    · simp [hp, Ne.symm hp]

lemma dropped_onTerminated (h : Tables s) (actor : ActorRef) :
    Dropped s (s.onTerminated actor) fun kp =>
      kp.2 = actor.path ∧ s.subscribers.get? actor.path ≠ none := by
  unfold onTerminated
  cases hentry : s.subscribers.get? actor.path with
  | none =>
    refine ⟨fun k p j => ?_, h.entry_of, rfl, rfl, rfl, rfl, rfl, rfl, rfl, rfl, rfl⟩
    simp
  | some entry =>
    have hslots : ∀ k p j, (entry.keys.elems.foldl (fun slots key =>
        slots.delete (key, actor.path)) s.slots).get? (k, p) = some j ↔
        s.slots.get? (k, p) = some j ∧ ¬ (p = actor.path ∧ some entry ≠ none) := by
      intro k p j
      rw [get?_foldl_delete]
      split
      · rename_i hof
        simp [hof.1]
      · rename_i hof
        constructor
        · intro hj
          refine ⟨hj, fun hp => hof ⟨hp.1, ?_⟩⟩
          obtain ⟨entry', hentry', hk, -⟩ := h.entry_of hj
          rw [hp.1, hentry, some.injEq] at hentry'
          rw [← OrderedSet.mem_def, hentry']
          exact hk
        · exact fun hj => hj.1
    refine ⟨hslots, fun {k p j} hj => ?_, rfl, rfl, rfl, rfl, rfl, rfl, rfl, rfl, rfl⟩
    obtain ⟨hj, hgone⟩ := (hslots k p j).1 hj
    have hp : ¬ actor.path = p := fun hp => hgone ⟨hp.symm, some_ne_none _⟩
    obtain ⟨entry', hentry', hk, hsubscriber⟩ := h.entry_of hj
    refine ⟨entry', ?_, hk, hsubscriber⟩
    rw [get?_delete, if_neg hp, hentry']

lemma Inv.onTerminated (h : Inv encode ⟨s, l⟩) (hown : OwnPath s actor)
    (hstopped : actor ∈ s.stopped) : Inv encode ⟨s.onTerminated actor, l⟩ := by
  have hdropped := dropped_onTerminated h.tables actor
  -- every slot on the path is one of the actor's
  have hslot : ∀ {k i}, s.slots.get? (k, actor.path) = some i →
      (s.slot i).subscriber ∈ s.stopped := by
    intro k i hi
    obtain ⟨entry, hentry, -, hsubscriber⟩ := h.tables.entry_of hi
    rw [← hsubscriber, hown entry hentry]
    exact hstopped
  refine ⟨hdropped.tables h.tables, hdropped.queues h.queues ?_, hdropped.linked h.linked ?_,
    hdropped.latest h.latest⟩
  · rintro m hm ⟨hpath, -⟩
    obtain ⟨halive, -, -, hget, hsubscriber, -⟩ := h.queues.posted_of hm
    simp only at hpath
    rw [hpath] at hget
    rw [← hsubscriber] at halive
    exact halive (hslot hget)
  · rintro actor' k subscription hlive ⟨hpath, -⟩
    obtain ⟨halive, -, i, hi, hsubscriber, -⟩ := h.linked.live_of hlive
    simp only at hpath
    rw [hpath] at hi
    rw [← hsubscriber] at halive
    exact halive (hslot hi)

lemma Inv.setWatching (h : Inv encode ⟨s, l⟩) (watching : OrderedSet (JsString × ℕ)) :
    Inv encode ⟨{ s with watching }, l⟩ where
  tables := { h.tables with }
  queues := { h.queues with }
  linked := { h.linked with }
  latest := h.latest

lemma Inv.receiveTerminated (h : Inv encode ⟨s, l⟩)
    (hown : watchKeyOf actor ∈ s.watching → OwnPath s actor) (hstopped : actor ∈ s.stopped) :
    Inv encode ⟨s.receiveTerminated actor, l⟩ := by
  unfold State.receiveTerminated
  split
  · rename_i hwatched
    exact (h.setWatching _).onTerminated (hown hwatched) hstopped
  · exact h

end ActorTs.Subscribers
