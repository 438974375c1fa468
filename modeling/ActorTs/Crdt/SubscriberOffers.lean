import ActorTs.Crdt.SubscriberLedger

/-!
# What keeps the slots, the mailboxes and the ledger together

The invariant has four parts: the tables agree with the calls that were made, what is on its way is
what the slots have marked, the registrations that hold slots are the subscriptions that are live,
and a live subscription was told the value of its key last. An offer touches none of the tables, and
makes its value the last that its subscriber was told.
-/

open List Option Nat Function

namespace ActorTs.Subscribers

open State

variable {V E : Type*} (encode : V → E)

/-! ### The invariant -/

def Message.ticket? : Message → Option Ticket
  | .subscribe _ _ ticket => some ticket
  | _ => none

/-- The tables agree with each other and with the calls. -/
structure Tables (s : State V) : Prop where
  slot_call : ∀ {key path i}, s.slots.get? (key, path) = some i →
    s.calls[i]? = some (key, (s.slot i).subscriber) ∧ (s.slot i).subscriber.path = path ∧
      (s.tickets i).isSome
  registration_of : ∀ {key path i registration}, s.slots.get? (key, path) = some i →
    (s.slot i).registration = some registration →
      registration.slot = i ∧ s.tickets registration.ticket = some registration
  ticket_of : ∀ {ticket registration}, s.tickets ticket = some registration →
    s.tickets registration.ticket = some registration ∧ (s.tickets registration.slot).isSome ∧
      ∃ key actor actor', s.calls[ticket]? = some (key, actor) ∧
        s.calls[registration.slot]? = some (key, actor')
  waiting : ∀ {key actor ticket}, .subscribe key actor ticket ∈ s.inbox →
    s.calls[ticket]? = some (key, actor) ∧ s.tickets ticket = none
  nodup_waiting : (s.inbox.filterMap Message.ticket?).Nodup
  asked : ∀ {key ticket}, .unsubscribe key ticket ∈ s.inbox →
    ∃ actor, s.calls[ticket]? = some (key, actor)
  entry_of : ∀ {key path i}, s.slots.get? (key, path) = some i →
    ∃ entry, s.subscribers.get? path = some entry ∧ key ∈ entry.keys ∧
      entry.subscriber = (s.slot i).subscriber
  stopped_of : ∀ {actor}, .terminated actor ∈ s.inbox → actor ∈ s.stopped

/-- What is on its way is what the slots have marked. -/
structure Queues (s : State V) : Prop where
  posted_of : ∀ {m}, m ∈ s.posted → m.subscriber ∉ s.stopped ∧ m.subscriber.isLocal = true ∧
    m.id < s.posts ∧ s.slots.get? (m.key, m.subscriber.path) = some m.slot ∧
    (s.slot m.slot).subscriber = m.subscriber ∧ (s.slot m.slot).queued = some m.id
  nodup_posted : (s.posted.map Posted.id).Nodup
  queued_of : ∀ {key path i n}, s.slots.get? (key, path) = some i →
    (s.slot i).subscriber ∉ s.stopped → (s.slot i).queued = some n →
    ∃ m ∈ s.posted, m.id = n ∧ m.slot = i
  queued_lt : ∀ {key path i n}, s.slots.get? (key, path) = some i →
    (s.slot i).queued = some n → n < s.posts
  queued_inj : ∀ {key path i key' path' j n}, s.slots.get? (key, path) = some i →
    s.slots.get? (key', path') = some j → (s.slot i).queued = some n →
    (s.slot j).queued = some n → i = j

/-- The registrations that hold slots are the live subscriptions. -/
structure Linked (s : State V) (l : Ledger) : Prop where
  live_of : ∀ {actor key subscription}, l.live actor key = some subscription →
    actor ∉ s.stopped ∧ subscription.since ≤ s.handed.length ∧
      s.Holds actor key subscription.id
  registered_of : ∀ {key path i registration}, s.slots.get? (key, path) = some i →
    (s.slot i).subscriber ∉ s.stopped → (s.slot i).registration = some registration →
    ∃ subscription, l.live (s.slot i).subscriber key = some subscription
  bound_of : ∀ {ticket id}, l.bound ticket = some id →
    ∃ registration, s.tickets ticket = some registration ∧ registration.ticket = id
  ticket_bound : ∀ {ticket registration}, s.tickets ticket = some registration →
    (s.slot registration.slot).subscriber ∉ s.stopped →
    l.bound ticket = some registration.ticket

/-- What an actor was told about a key, handed over or on its way. -/
def State.told (s : State V) (actor : ActorRef) (key : JsString) (since : ℕ) : List V :=
  s.handedSince actor key since ++ s.queuedFor actor key

/-- A live subscription was told the value that its key holds. -/
def Latest (s : State V) (l : Ledger) : Prop :=
  ∀ actor key subscription value, l.live actor key = some subscription →
    s.values key = some value →
    ((s.told actor key subscription.since).getLast?).map encode = some (encode value)

structure Inv (x : System V) : Prop where
  tables : Tables x.state
  queues : Queues x.state
  linked : Linked x.state x.ledger
  latest : Latest encode x.state x.ledger

variable {s t : State V} {l : Ledger} {m : Posted V}

lemma Tables.slot_inj (h : Tables s) {key path key' path' : JsString} {i : ℕ}
    (hi : s.slots.get? (key, path) = some i) (hi' : s.slots.get? (key', path') = some i) :
    key = key' ∧ path = path' := by
  obtain ⟨hcall, hpath, -⟩ := h.slot_call hi
  obtain ⟨hcall', hpath', -⟩ := h.slot_call hi'
  rw [hcall, some.injEq, Prod.mk.injEq] at hcall'
  exact ⟨hcall'.1, hpath.symm.trans hpath'⟩

lemma Queues.posted_slot (h : Queues s) (ht : Tables s) {key path : JsString} {i : ℕ}
    (hi : s.slots.get? (key, path) = some i) (hm : m ∈ s.posted) (hslot : m.slot = i) :
    m.key = key ∧ m.subscriber = (s.slot i).subscriber := by
  obtain ⟨-, -, -, hget, hsubscriber, -⟩ := h.posted_of hm
  rw [hslot] at hget hsubscriber
  exact ⟨(ht.slot_inj hget hi).1, hsubscriber.symm⟩

lemma Queues.posted_unique (h : Queues s) {m m' : Posted V} (hm : m ∈ s.posted)
    (hm' : m' ∈ s.posted) (hpath : m.subscriber.path = m'.subscriber.path)
    (hkey : m.key = m'.key) : m = m' := by
  obtain ⟨-, -, -, hget, -, hqueued⟩ := h.posted_of hm
  obtain ⟨-, -, -, hget', -, hqueued'⟩ := h.posted_of hm'
  rw [hkey, hpath, hget', some.injEq] at hget
  rw [← hget, hqueued', some.injEq] at hqueued
  exact inj_on_of_nodup_map h.nodup_posted hm hm' hqueued.symm

/-! ### Offering a value -/

/-- The tables are the same, up to what is queued. -/
structure SameTables (s t : State V) : Prop where
  values : t.values = s.values
  slots : t.slots = s.slots
  subscribers : t.subscribers = s.subscribers
  tickets : t.tickets = s.tickets
  calls : t.calls = s.calls
  inbox : t.inbox = s.inbox
  stopped : t.stopped = s.stopped
  subscriber : ∀ i, (t.slot i).subscriber = (s.slot i).subscriber
  registration : ∀ i, (t.slot i).registration = (s.slot i).registration
  handed : s.handed.length ≤ t.handed.length

namespace SameTables

lemma refl (s : State V) : SameTables s s :=
  ⟨rfl, rfl, rfl, rfl, rfl, rfl, rfl, fun _ => rfl, fun _ => rfl, le_rfl⟩

lemma trans {u : State V} (h : SameTables s t) (h' : SameTables t u) : SameTables s u where
  values := h'.values.trans h.values
  slots := h'.slots.trans h.slots
  subscribers := h'.subscribers.trans h.subscribers
  tickets := h'.tickets.trans h.tickets
  calls := h'.calls.trans h.calls
  inbox := h'.inbox.trans h.inbox
  stopped := h'.stopped.trans h.stopped
  subscriber := fun i => (h'.subscriber i).trans (h.subscriber i)
  registration := fun i => (h'.registration i).trans (h.registration i)
  handed := h.handed.trans h'.handed

lemma tables (h : SameTables s t) (hs : Tables s) : Tables t where
  slot_call := by
    rw [h.slots, h.calls, h.tickets]
    intro key path i hi
    rw [h.subscriber i]
    exact hs.slot_call hi
  registration_of := by
    rw [h.slots, h.tickets]
    intro key path i registration hi hr
    rw [h.registration i] at hr
    exact hs.registration_of hi hr
  ticket_of := by
    rw [h.calls, h.tickets]
    exact hs.ticket_of
  waiting := by
    rw [h.inbox, h.calls, h.tickets]
    exact hs.waiting
  nodup_waiting := by
    rw [h.inbox]
    exact hs.nodup_waiting
  asked := by
    rw [h.inbox, h.calls]
    exact hs.asked
  entry_of := by
    rw [h.slots, h.subscribers]
    intro key path i hi
    rw [h.subscriber i]
    exact hs.entry_of hi
  stopped_of := by
    rw [h.inbox, h.stopped]
    exact hs.stopped_of

lemma holds (h : SameTables s t) {actor : ActorRef} {key : JsString} {id : Ticket}
    (hs : s.Holds actor key id) : t.Holds actor key id := by
  obtain ⟨i, hi, hsubscriber, hregistration⟩ := hs
  refine ⟨i, ?_, ?_, ?_⟩
  · rw [h.slots, hi]
  · rw [h.subscriber, hsubscriber]
  · rw [h.registration, hregistration]

lemma linked (h : SameTables s t) (hs : Linked s l) : Linked t l where
  live_of := by
    rw [h.stopped]
    intro actor key subscription hlive
    obtain ⟨halive, hsince, hholds⟩ := hs.live_of hlive
    exact ⟨halive, hsince.trans h.handed, h.holds hholds⟩
  registered_of := by
    rw [h.slots, h.stopped]
    intro key path i registration hi
    rw [h.subscriber i, h.registration i]
    exact hs.registered_of hi
  bound_of := by
    rw [h.tickets]
    exact hs.bound_of
  ticket_bound := by
    rw [h.tickets, h.stopped]
    intro ticket registration hticket
    rw [h.subscriber]
    exact hs.ticket_bound hticket

end SameTables

namespace State

variable (s)

lemma slot_setSlot (i j : ℕ) (slot : Slot) :
    (s.setSlot i slot).slot j = if j = i then slot else s.slot j :=
  update_apply _ _ _ _

@[simp] lemma slot_setSlot_self (i : ℕ) (slot : Slot) :
    (s.setSlot i slot).slot i = slot := update_self _ _ _

lemma slot_setSlot_of_ne {i j : ℕ} (h : j ≠ i) (slot : Slot) :
    (s.setSlot i slot).slot j = s.slot j := update_of_ne h _ _

lemma sameTables_setQueued (i : ℕ) (queued : Option ℕ) :
    SameTables s (s.setSlot i { s.slot i with queued }) where
  values := rfl
  slots := rfl
  subscribers := rfl
  tickets := rfl
  calls := rfl
  inbox := rfl
  stopped := rfl
  subscriber := fun j => by
    rw [slot_setSlot]
    split
    · rename_i h
      rw [h]
    · rfl
  registration := fun j => by
    rw [slot_setSlot]
    split
    · rename_i h
      rw [h]
    · rfl
  handed := le_rfl

lemma sameTables_offerToSubscriber (key : JsString) (i : ℕ) (value : V) :
    SameTables s (s.offerToSubscriber key i value) := by
  unfold offerToSubscriber
  split
  · split
    · exact { SameTables.refl s with }
    · exact { s.sameTables_setQueued i (some s.posts) with }
  · refine { SameTables.refl s with handed := ?_ }
    rw [tellDirectly, length_append]
    exact le_add_right _ _

end State

variable {key path : JsString} {i : ℕ} {n : ℕ}

section

variable (h : Queues s)
include h

lemma Queues.slot_of_id (hi : s.slots.get? (key, path) = some i) (hn : (s.slot i).queued = some n)
    (hm : m ∈ s.posted) (hid : m.id = n) : m.slot = i := by
  obtain ⟨-, -, -, hget, -, hqueued⟩ := h.posted_of hm
  rw [hid] at hqueued
  exact h.queued_inj hget hi hqueued hn

lemma Queues.replaceQueuedValue (n : ℕ) (value : V) : Queues (s.replaceQueuedValue n value) := by
  have hmem : ∀ {m : Posted V}, m ∈ (s.replaceQueuedValue n value).posted →
      ∃ m' ∈ s.posted, m.id = m'.id ∧ m.subscriber = m'.subscriber ∧ m.key = m'.key ∧
        m.slot = m'.slot := by
    intro m hm
    obtain ⟨m', hm', rfl⟩ := mem_map.1 hm
    refine ⟨m', hm', ?_⟩
    split
    · exact ⟨rfl, rfl, rfl, rfl⟩
    · exact ⟨rfl, rfl, rfl, rfl⟩
  refine ⟨fun hm => ?_, ?_, fun hi halive hn => ?_, h.queued_lt, h.queued_inj⟩
  · obtain ⟨m', hm', hid, hsubscriber, hkey, hslot⟩ := hmem hm
    rw [hid, hsubscriber, hkey, hslot]
    exact h.posted_of hm'
  · have hids : (s.replaceQueuedValue n value).posted.map Posted.id = s.posted.map Posted.id := by
      rw [State.replaceQueuedValue, List.map_map]
      refine map_congr_left fun m _ => ?_
      simp only [comp]
      split
      · rfl
      · rfl
    rw [hids]
    exact h.nodup_posted
  · obtain ⟨m, hm, hid, hslot⟩ := h.queued_of hi halive hn
    refine ⟨_, mem_map_of_mem hm, ?_, ?_⟩
    · split
      · exact hid
      · exact hid
    · split
      · exact hslot
      · exact hslot

lemma Queues.postNotification (ht : Tables s)
    (hi : s.slots.get? (key, path) = some i) (hempty : (s.slot i).queued = none)
    (hlocal : (s.slot i).subscriber.isLocal = true) (value : V) :
    Queues (s.postNotification key i value) := by
  set u := s.postNotification key i value with hu
  have hstopped : u.stopped = s.stopped := rfl
  have hself : (u.slot i).queued = some s.posts := congrArg Slot.queued (s.slot_setSlot_self i _)
  have hsubscriber : ∀ j, (u.slot j).subscriber = (s.slot j).subscriber :=
    (s.sameTables_setQueued i (some s.posts)).subscriber
  have hother : ∀ {j}, j ≠ i → u.slot j = s.slot j := fun hj => s.slot_setSlot_of_ne hj _
  have hold : ∀ {m}, m ∈ s.posted → m.slot ≠ i := by
    intro m hm heq
    obtain ⟨-, -, -, -, -, hqueued⟩ := h.posted_of hm
    rw [heq, hempty] at hqueued
    cases hqueued
  have hposted : u.posted = if (s.slot i).subscriber ∈ s.stopped then s.posted
      else s.posted ++ [⟨s.posts, (s.slot i).subscriber, key, i, value⟩] := rfl
  have hkeep : ∀ {m}, m ∈ s.posted → m ∈ u.posted := by
    intro m hm
    rw [hposted]
    split
    · exact hm
    · exact mem_append_left _ hm
  have hcases : ∀ {m}, m ∈ u.posted → m ∈ s.posted ∨ (s.slot i).subscriber ∉ s.stopped ∧
      m = ⟨s.posts, (s.slot i).subscriber, key, i, value⟩ := by
    intro m hm
    rw [hposted] at hm
    split at hm
    · exact .inl hm
    · rename_i halive
      rcases mem_append.1 hm with hm | hm
      · exact .inl hm
      · exact .inr ⟨halive, mem_singleton.1 hm⟩
  have hpath := (ht.slot_call hi).2.1
  refine ⟨fun hm => ?_, ?_, fun {key' path' j n} hj halive hn => ?_,
    fun {key' path' j n} hj hn => ?_,
    fun {k₁ p₁ j₁ k₂ p₂ j₂ n} hj₁ hj₂ hn₁ hn₂ => ?_⟩
  · rcases hcases hm with hm | ⟨halive, rfl⟩
    · obtain ⟨hnot, hl, hlt, hget, hsub, hqueued⟩ := h.posted_of hm
      rw [hother (hold hm)]
      exact ⟨hnot, hl, hlt.trans (lt_succ_self _), hget, hsub, hqueued⟩
    · refine ⟨halive, hlocal, lt_succ_self _, ?_, ?_, ?_⟩
      · rw [hpath]
        exact hi
      · exact hsubscriber i
      · exact hself
  · rw [hposted]
    split
    · exact h.nodup_posted
    · rw [map_append, map_singleton]
      refine nodup_append.2 ⟨h.nodup_posted, nodup_singleton _, ?_⟩
      intro a ha b hb
      obtain ⟨m, hm, rfl⟩ := mem_map.1 ha
      rw [mem_singleton.1 hb]
      exact (h.posted_of hm).2.2.1.ne
  · by_cases hji : j = i
    · subst hji
      rw [hsubscriber, hstopped] at halive
      rw [hself, some.injEq] at hn
      refine ⟨⟨s.posts, (s.slot j).subscriber, key, j, value⟩, ?_, hn, rfl⟩
      rw [hposted, if_neg halive]
      exact mem_append_right _ (mem_singleton_self _)
    · rw [hother hji] at halive hn
      obtain ⟨m, hm, hid, hslot⟩ := h.queued_of hj halive hn
      exact ⟨m, hkeep hm, hid, hslot⟩
  · by_cases hji : j = i
    · subst hji
      rw [hself, some.injEq] at hn
      rw [← hn]
      exact lt_succ_self _
    · rw [hother hji] at hn
      exact (h.queued_lt hj hn).trans (lt_succ_self _)
  · have hfresh : ∀ {k p j}, s.slots.get? (k, p) = some j → j ≠ i → (u.slot i).queued = some n →
        (u.slot j).queued ≠ some n := by
      intro k p j hj hji hni hnj
      rw [hself, some.injEq] at hni
      rw [hother hji, ← hni] at hnj
      exact lt_irrefl _ (h.queued_lt hj hnj)
    by_cases h₁ : j₁ = i
    · by_cases h₂ : j₂ = i
      · rw [h₁, h₂]
      · rw [h₁] at hn₁
        exact absurd hn₂ (hfresh hj₂ h₂ hn₁)
    · by_cases h₂ : j₂ = i
      · rw [h₂] at hn₂
        exact absurd hn₁ (hfresh hj₁ h₁ hn₂)
      · rw [hother h₁] at hn₁
        rw [hother h₂] at hn₂
        exact h.queued_inj hj₁ hj₂ hn₁ hn₂

lemma Queues.offerToSubscriber (ht : Tables s) (hi : s.slots.get? (key, path) = some i)
    (value : V) : Queues (s.offerToSubscriber key i value) := by
  unfold State.offerToSubscriber
  split
  · rename_i hlocal
    split
    · exact h.replaceQueuedValue _ value
    · rename_i hempty
      exact h.postNotification ht hi hempty hlocal value
  · exact ⟨h.posted_of, h.nodup_posted, h.queued_of, h.queued_lt, h.queued_inj⟩

/-! ### What an offer tells -/

variable {actor : ActorRef}

lemma queuedFor_eq_nil (hlocal : actor.isLocal = false) (key : JsString) :
    s.queuedFor actor key = [] := by
  rw [queuedFor, map_eq_nil_iff, filter_eq_nil_iff]
  intro m hm hof
  simp only [decide_eq_true_eq] at hof
  have := (h.posted_of hm).2.1
  rw [hof.1, hlocal] at this
  cases this

lemma queuedFor_replaceQueuedValue_of_ne (ht : Tables s) (hi : s.slots.get? (key, path) = some i)
    (hn : (s.slot i).queued = some n) (value : V) {k : JsString}
    (hne : ¬ (actor = (s.slot i).subscriber ∧ k = key)) :
    (s.replaceQueuedValue n value).queuedFor actor k = s.queuedFor actor k := by
  unfold queuedFor replaceQueuedValue
  rw [List.filter_map, List.map_map]
  have hfilter : s.posted.filter ((fun m : Posted V => decide (m.subscriber = actor ∧ m.key = k)) ∘
      fun m => if m.id = n then { m with value } else m) =
      s.posted.filter fun m => decide (m.subscriber = actor ∧ m.key = k) := by
    refine List.filter_congr fun m _ => ?_
    simp only [Function.comp]
    split
    · rfl
    · rfl
  rw [hfilter]
  refine List.map_congr_left fun m hm => ?_
  obtain ⟨hm, hof⟩ := List.mem_filter.1 hm
  simp only [decide_eq_true_eq] at hof
  simp only [Function.comp]
  split
  · rename_i hid
    obtain ⟨hkey, hsubscriber⟩ := h.posted_slot ht hi hm (h.slot_of_id hi hn hm hid)
    exact absurd ⟨hof.1.symm.trans hsubscriber, hof.2.symm.trans hkey⟩ hne
  · rfl

lemma getLast?_queuedFor_replaceQueuedValue (ht : Tables s)
    (hi : s.slots.get? (key, path) = some i) (halive : (s.slot i).subscriber ∉ s.stopped)
    (hn : (s.slot i).queued = some n) (value : V) :
    ((s.replaceQueuedValue n value).queuedFor (s.slot i).subscriber key).getLast? = some value := by
  obtain ⟨m, hm, hid, hslot⟩ := h.queued_of hi halive hn
  obtain ⟨hkey, hsubscriber⟩ := h.posted_slot ht hi hm hslot
  have hall : ∀ w ∈ (s.replaceQueuedValue n value).queuedFor (s.slot i).subscriber key,
      w = value := by
    intro w hw
    obtain ⟨m', hm', rfl⟩ := mem_map.1 hw
    obtain ⟨hm', hof⟩ := mem_filter.1 hm'
    simp only [decide_eq_true_eq] at hof
    obtain ⟨m₀, hm₀, rfl⟩ := mem_map.1 hm'
    split at hof
    · rename_i hid₀
      rw [if_pos hid₀]
    · rename_i hid₀
      have hsame : m₀ = m :=
        h.posted_unique hm₀ hm (by rw [hof.1, hsubscriber]) (by rw [hof.2, hkey])
      exact absurd (hsame ▸ hid) hid₀
  have hmem : value ∈ (s.replaceQueuedValue n value).queuedFor (s.slot i).subscriber key := by
    refine mem_map.2 ⟨{ m with value }, mem_filter.2 ⟨?_, ?_⟩, rfl⟩
    · refine mem_map.2 ⟨m, hm, ?_⟩
      rw [if_pos hid]
    · simp only [decide_eq_true_eq]
      exact ⟨hsubscriber, hkey⟩
  obtain ⟨w, hw⟩ := getLast?_isSome.2 (ne_nil_of_mem hmem) |> isSome_iff_exists.1
  rw [hw, hall w (mem_of_getLast? hw)]

lemma told_offerToSubscriber_of_ne (ht : Tables s) (hi : s.slots.get? (key, path) = some i)
    (value : V) {k : JsString} (hne : ¬ (actor = (s.slot i).subscriber ∧ k = key)) {since : ℕ}
    (hsince : since ≤ s.handed.length) :
    (s.offerToSubscriber key i value).told actor k since = s.told actor k since := by
  unfold told offerToSubscriber
  split
  · split
    · rename_i n hn
      rw [queuedFor_replaceQueuedValue_of_ne h ht hi hn value hne]
      rfl
    · refine congrArg₂ _ rfl ?_
      unfold queuedFor postNotification
      simp only
      split
      · rfl
      · rw [filter_append, filter_cons_of_neg, filter_nil, append_nil]
        simp only [decide_eq_true_eq]
        exact fun hof => hne ⟨hof.1.symm, hof.2.symm⟩
  · refine congrArg₂ _ ?_ rfl
    unfold handedSince tellDirectly
    rw [drop_append_of_le_length hsince, filter_append, filter_cons_of_neg, filter_nil, append_nil]
    simp only [decide_eq_true_eq]
    exact fun hof => hne ⟨hof.1.symm, hof.2.symm⟩

lemma getLast?_told_offerToSubscriber (ht : Tables s) (hi : s.slots.get? (key, path) = some i)
    (halive : (s.slot i).subscriber ∉ s.stopped) (value : V) {since : ℕ}
    (hsince : since ≤ s.handed.length) :
    ((s.offerToSubscriber key i value).told (s.slot i).subscriber key since).getLast? =
      some value := by
  unfold told offerToSubscriber
  split
  · split
    · rename_i n hn
      rw [getLast?_append, getLast?_queuedFor_replaceQueuedValue h ht hi halive hn value, some_or]
    · have hqueued : (s.postNotification key i value).queuedFor (s.slot i).subscriber key =
          s.queuedFor (s.slot i).subscriber key ++ [value] := by
        unfold queuedFor postNotification
        simp only
        rw [if_neg halive, filter_append, map_append, filter_cons_of_pos, filter_nil, map_singleton]
        simp only [and_self, decide_true]
      rw [hqueued, getLast?_append, getLast?_concat, some_or]
  · rename_i hlocal
    rw [Bool.not_eq_true] at hlocal
    have hqueued : (s.tellDirectly key (s.slot i).subscriber value).queuedFor
        (s.slot i).subscriber key = [] := queuedFor_eq_nil h hlocal key
    have hhanded : (s.tellDirectly key (s.slot i).subscriber value).handedSince
        (s.slot i).subscriber key since =
        s.handedSince (s.slot i).subscriber key since ++ [value] := by
      unfold handedSince tellDirectly
      rw [drop_append_of_le_length hsince, filter_append, map_append,
        filter_cons_of_pos, filter_nil, map_singleton]
      simp only [and_self, decide_true]
    rw [hqueued, hhanded, append_nil, getLast?_concat]

end

/-! ### A change is told to every subscription -/

lemma mem_slotsOf : i ∈ s.slotsOf key ↔ ∃ path, s.slots.get? (key, path) = some i := by
  unfold slotsOf
  rw [List.mem_map]
  constructor
  · rintro ⟨⟨⟨k, path⟩, j⟩, hmem, rfl⟩
    obtain ⟨hentry, hkey⟩ := List.mem_filter.1 hmem
    simp only [decide_eq_true_eq] at hkey
    subst hkey
    exact ⟨path, (OrderedMap.get?_eq_some_iff _ _ _).2 hentry⟩
  · rintro ⟨path, hget⟩
    refine ⟨((key, path), i), List.mem_filter.2 ⟨?_, ?_⟩, rfl⟩
    · exact (OrderedMap.get?_eq_some_iff _ _ _).1 hget
    · simp only [decide_true]

/-- The state after some slots of a key were notified. -/
structure Notified (s t : State V) (key : JsString) (value : V) (notified : List ℕ) : Prop where
  same : SameTables s t
  queues : Queues t
  other : ∀ {actor k since}, k ≠ key → since ≤ s.handed.length →
    t.told actor k since = s.told actor k since
  own : ∀ {actor since}, actor ∉ s.stopped → since ≤ s.handed.length →
    (s.told actor key since).getLast? = some value →
    (t.told actor key since).getLast? = some value
  told : ∀ {i since}, i ∈ notified → (s.slot i).registration ≠ none →
    (s.slot i).subscriber ∉ s.stopped → since ≤ s.handed.length →
    (t.told (s.slot i).subscriber key since).getLast? = some value

lemma Notified.nil (h : Queues s) (key : JsString) (value : V) : Notified s s key value [] where
  same := SameTables.refl s
  queues := h
  other := fun _ _ => rfl
  own := fun _ _ hlast => hlast
  told := fun hmem => absurd hmem not_mem_nil

lemma Notified.offerToSubscriber (h : Queues s) (ht : Tables s)
    (hi : s.slots.get? (key, path) = some i) (value : V) :
    Notified s (s.offerToSubscriber key i value) key value [i] where
  same := s.sameTables_offerToSubscriber key i value
  queues := h.offerToSubscriber ht hi value
  other := fun hne hsince =>
    told_offerToSubscriber_of_ne h ht hi value (fun hof => hne hof.2) hsince
  own := by
    intro actor since halive hsince hlast
    by_cases hactor : actor = (s.slot i).subscriber
    · rw [hactor] at halive ⊢
      exact getLast?_told_offerToSubscriber h ht hi halive value hsince
    · rw [told_offerToSubscriber_of_ne h ht hi value (fun hof => hactor hof.1) hsince, hlast]
  told := by
    intro j since hmem _ halive hsince
    rw [mem_singleton.1 hmem] at halive ⊢
    exact getLast?_told_offerToSubscriber h ht hi halive value hsince

lemma Notified.notifySlot (h : Queues s) (ht : Tables s) (hi : s.slots.get? (key, path) = some i)
    (value : V) : Notified s (notifySlot key value s i) key value [i] := by
  unfold State.notifySlot
  split
  · exact Notified.offerToSubscriber h ht hi value
  · rename_i hended
    refine { Notified.nil h key value with told := ?_ }
    intro j since hmem hregistered
    rw [mem_singleton.1 hmem] at hregistered
    exact absurd hregistered hended

lemma Notified.trans {u : State V} {value : V} {is js : List ℕ} (h : Notified s t key value is)
    (h' : Notified t u key value js) :
    Notified s u key value (is ++ js) where
  same := h.same.trans h'.same
  queues := h'.queues
  other := fun hne hsince =>
    (h'.other hne (hsince.trans h.same.handed)).trans (h.other hne hsince)
  own := by
    intro actor since halive hsince hlast
    refine h'.own ?_ (hsince.trans h.same.handed) (h.own halive hsince hlast)
    rwa [h.same.stopped]
  told := by
    intro i since hmem hregistered halive hsince
    have halive' : (s.slot i).subscriber ∉ t.stopped := by rwa [h.same.stopped]
    rcases mem_append.1 hmem with hmem | hmem
    · exact h'.own halive' (hsince.trans h.same.handed) (h.told hmem hregistered halive hsince)
    · rw [← h.same.subscriber i] at halive' ⊢
      refine h'.told hmem ?_ halive' (hsince.trans h.same.handed)
      rwa [h.same.registration]

lemma Notified.foldl (h : Queues s) (ht : Tables s) {is : List ℕ}
    (his : ∀ i ∈ is, ∃ path, s.slots.get? (key, path) = some i) (value : V) :
    Notified s (is.foldl (State.notifySlot key value) s) key value is := by
  induction is generalizing s with
  | nil => exact Notified.nil h key value
  | cons i is ih =>
    obtain ⟨path, hi⟩ := his i mem_cons_self
    have hfirst := Notified.notifySlot h ht hi value
    refine hfirst.trans (ih hfirst.queues (hfirst.same.tables ht) fun j hj => ?_)
    rw [hfirst.same.slots]
    exact his j (mem_cons_of_mem _ hj)

/-- Storing a value, whatever it is, leaves the tables and the queues as they are. -/
lemma Tables.setValues (h : Tables s) (values : JsString → Option V) :
    Tables { s with values } :=
  ⟨h.slot_call, h.registration_of, h.ticket_of, h.waiting, h.nodup_waiting, h.asked, h.entry_of,
    h.stopped_of⟩

lemma Queues.setValues (h : Queues s) (values : JsString → Option V) :
    Queues { s with values } :=
  ⟨h.posted_of, h.nodup_posted, h.queued_of, h.queued_lt, h.queued_inj⟩

lemma Linked.setValues (h : Linked s l) (values : JsString → Option V) :
    Linked { s with values } l :=
  ⟨h.live_of, h.registered_of, h.bound_of, h.ticket_bound⟩

/-- A value that is stored is told to every live subscription, unless the one before has
its encoding. -/
lemma Inv.applyMerged [DecidableEq E] (h : Inv encode ⟨s, l⟩) {prev : Option V} {next : V}
    (hprev : prev.map encode = some (encode next) →
      (s.values key).map encode = some (encode next)) :
    Inv encode ⟨s.applyMerged encode key prev next, l⟩ := by
  have htables := h.tables.setValues (update s.values key (some next))
  have hqueues := h.queues.setValues (update s.values key (some next))
  have hlinked := h.linked.setValues (update s.values key (some next))
  unfold State.applyMerged
  split
  · rename_i hsame
    refine ⟨htables, hqueues, hlinked, ?_⟩
    intro actor k subscription value hlive hvalue
    by_cases hk : k = key
    · subst hk
      simp only [update_self, some.injEq] at hvalue
      obtain ⟨value', hvalue', hencode⟩ := map_eq_some_iff.1 (hprev hsame)
      have hlast := h.latest actor k subscription value' hlive hvalue'
      rw [hencode, hvalue] at hlast
      exact hlast
    · simp only [update_of_ne hk] at hvalue
      exact h.latest actor k subscription value hlive hvalue
  · have his : ∀ i ∈ slotsOf
        { s with values := update s.values key (some next) } key,
        ∃ path, s.slots.get? (key, path) = some i := fun i hi => mem_slotsOf.1 hi
    have hnotified := Notified.foldl hqueues htables his next
    refine ⟨hnotified.same.tables htables, hnotified.queues, hnotified.same.linked hlinked, ?_⟩
    intro actor k subscription value hlive hvalue
    rw [hnotified.same.values] at hvalue
    obtain ⟨halive, hsince, i, hi, hsubscriber, hregistration⟩ := hlinked.live_of hlive
    by_cases hk : k = key
    · subst hk
      simp only [update_self, some.injEq] at hvalue
      have hlast := hnotified.told (mem_slotsOf.2 ⟨_, hi⟩)
        (by rw [hregistration]; exact some_ne_none _) (by rwa [hsubscriber]) hsince
      rw [hsubscriber] at hlast
      rw [hlast, ← hvalue, map_some]
    · simp only [update_of_ne hk] at hvalue
      rw [hnotified.other hk hsince]
      exact h.latest actor k subscription value hlive hvalue

lemma Inv.onDelete (h : Inv encode ⟨s, l⟩) (key : JsString) :
    Inv encode ⟨s.onDelete key, l⟩ := by
  refine ⟨h.tables.setValues _, h.queues.setValues _, h.linked.setValues _, ?_⟩
  intro actor k subscription value hlive hvalue
  refine h.latest actor k subscription value hlive ?_
  have hupdate : update s.values key none k = some value := hvalue
  by_cases hk : k = key
  · rw [hk, update_self] at hupdate
    cases hupdate
  · rw [update_of_ne hk] at hupdate
    exact hupdate

end ActorTs.Subscribers
