import ActorTs.Delivery.Runs

/-!
# Reliable delivery is sound over any network

The producer's books agree with the ledger (`Booked`), so that a delivery carries the body of the
send its number was given to (`Genuine`). What a window of the consumer holds was handled, and so
was what is acknowledged (`Inv`). That the window holds everything that was handled keeps a number
from being handled twice; it needs the entry to outlive the handlers that throw (`Remembers`).
-/

open List Option OrderedMap

namespace ActorTs.ReliableDelivery

open Consumer Producer System Ledger

variable {T : Type*} {c : Setup}

private lemma getElem?_continued {α : Type*} {xs ys : List α} (h : xs <+: ys) {i : ℕ} {x : α}
    (hx : xs[i]? = some x) : ys[i]? = some x := by
  obtain ⟨zs, rfl⟩ := h
  rw [List.getElem?_append_left (List.getElem?_eq_some_iff.1 hx).1, hx]

namespace Ledger

/-- The ledger once the next sequence numbers were given to these arrivals. -/
def number (l : Ledger T) (arrivals : List ℕ) : Ledger T :=
  { l with numbering := l.numbering ++ arrivals }

/-- The ledger once one more send arrived. -/
def arrive (l : Ledger T) (message : ProducerSend T) : Ledger T :=
  { l with arrivals := l.arrivals ++ [message] }

variable (l : Ledger T)

@[simp] lemma number_nil : l.number [] = l := by
  rw [number, append_nil]

lemma number_append (as bs : List ℕ) : l.number (as ++ bs) = (l.number as).number bs := by
  simp only [number, append_assoc]

/-- The other ledger has everything this one has. -/
def Extends (l l' : Ledger T) : Prop := l.arrivals <+: l'.arrivals ∧ l.numbering <+: l'.numbering

lemma Extends.refl : l.Extends l := ⟨prefix_rfl, prefix_rfl⟩

lemma Extends.trans {l l' l'' : Ledger T} (h : l.Extends l') (h' : l'.Extends l'') :
    l.Extends l'' :=
  ⟨h.1.trans h'.1, h.2.trans h'.2⟩

lemma extends_number (arrivals : List ℕ) : l.Extends (l.number arrivals) :=
  ⟨prefix_rfl, prefix_append _ _⟩

lemma extends_arrive (message : ProducerSend T) : l.Extends (l.arrive message) :=
  ⟨prefix_append _ _, prefix_rfl⟩

lemma Extends.sendOf {l l' : Ledger T} (h : l.Extends l') {seq : ℕ}
    {x : ℕ × ProducerSend T} (hx : l.sendOf seq = some x) : l'.sendOf seq = some x := by
  rw [Ledger.sendOf] at hx ⊢
  cases hn : l.numbering[seq - 1]? with
  | none => simp [hn] at hx
  | some arrival =>
    rw [hn] at hx
    simp only [map_eq_some_iff] at hx
    obtain ⟨sent, hsent, rfl⟩ := hx
    rw [getElem?_continued h.2 hn]
    simp [getElem?_continued h.1 hsent]

lemma sendOf_number {arrival : ℕ} {sent : ProducerSend T} (h : l.arrivals[arrival]? = some sent) :
    (l.number [arrival]).sendOf (l.numbering.length + 1) = some (arrival, sent) := by
  simp [sendOf, number, h]

end Ledger

/-! ### The producer -/

/-- The producer's books agree with the ledger. -/
structure Booked (c : Setup) (l : Ledger T) (p : Producer T) : Prop where
  id : p.id = c.id
  incarnation : p.incarnation = c.incarnation
  nextSeq : p.nextSeq = l.numbering.length + 1
  inflight : ∀ seq e, p.inflight.get? seq = some e →
    0 < seq ∧ l.sendOf seq = some (e.sent.arrival, e.sent.message)
  pending : ∀ e ∈ p.pending, l.arrivals[e.arrival]? = some e.message

/-- The delivery is of this producer, with the body of the send its sequence
number was given to. -/
structure Genuine (c : Setup) (l : Ledger T) (m : Delivery T) : Prop where
  producerId : m.producerId = c.id
  incarnation : m.incarnation = c.incarnation
  seq_pos : 0 < m.seq
  body : ∃ arrival sent, l.sendOf m.seq = some (arrival, sent) ∧ m.body = sent.body

/-- A turn leaves the books in order and tells only genuine deliveries. -/
structure TurnBooked (c : Setup) (l : Ledger T) (turn : ProducerTurn T) : Prop where
  booked : Booked c (l.number turn.numbered) turn.producer
  genuine : ∀ m ∈ turn.deliveries, Genuine c (l.number turn.numbered) m

lemma Genuine.mono {l l' : Ledger T} (hl : l.Extends l') {m : Delivery T} (h : Genuine c l m) :
    Genuine c l' m := by
  obtain ⟨arrival, sent, hsent, hbody⟩ := h.body
  exact ⟨h.producerId, h.incarnation, h.seq_pos, arrival, sent, hl.sendOf hsent, hbody⟩

lemma TurnBooked.idle {l : Ledger T} {p : Producer T} (h : Booked c l p) :
    TurnBooked c l { producer := p } := by
  refine ⟨?_, ?_⟩
  · simpa using h
  · simp

lemma TurnBooked.append {l : Ledger T} {first others : ProducerTurn T}
    (hfirst : TurnBooked c l first) (hothers : TurnBooked c (l.number first.numbered) others) :
    TurnBooked c l
      { producer := others.producer
        deliveries := first.deliveries ++ others.deliveries
        settled := first.settled ++ others.settled
        numbered := first.numbered ++ others.numbered } := by
  refine ⟨?_, ?_⟩
  · rw [number_append]
    exact hothers.booked
  · intro m hm
    rw [number_append]
    rcases mem_append.1 hm with hm | hm
    · exact (hfirst.genuine m hm).mono (extends_number _ _)
    · exact hothers.genuine m hm

namespace Booked

variable {l : Ledger T} {p : Producer T}

lemma initial : Booked c (⟨[], []⟩ : Ledger T) (.initial c.id c.incarnation c.windowSize) where
  id := rfl
  incarnation := rfl
  nextSeq := rfl
  inflight := by simp [Producer.initial]
  pending := by simp [Producer.initial]

lemma arrive (h : Booked c l p) (message : ProducerSend T) : Booked c (l.arrive message) p where
  id := h.id
  incarnation := h.incarnation
  nextSeq := h.nextSeq
  inflight seq e he :=
    ⟨(h.inflight seq e he).1, (l.extends_arrive message).sendOf (h.inflight seq e he).2⟩
  pending e he := getElem?_continued (prefix_append _ _) (h.pending e he)

lemma send (h : Booked c l p) {seq : ℕ} {e : InFlight T} (hpos : 0 < seq)
    (he : l.sendOf seq = some (e.sent.arrival, e.sent.message)) :
    TurnBooked c l (p.send seq e) := by
  refine ⟨?_, ?_⟩
  · rw [Producer.send, Ledger.number_nil]
    refine ⟨h.id, h.incarnation, h.nextSeq, fun seq' e' he' => ?_, h.pending⟩
    rw [get?_set] at he'
    split at he'
    · next heq =>
      cases he'
      exact heq ▸ ⟨hpos, he⟩
    · exact h.inflight seq' e' he'
  · intro m hm
    rw [Producer.send, mem_singleton] at hm
    subst hm
    rw [Producer.send, Ledger.number_nil]
    exact ⟨h.id, h.incarnation, hpos, _, _, he, rfl⟩

lemma dispatch (h : Booked c l p) {sent : Arrived T}
    (hsent : l.arrivals[sent.arrival]? = some sent.message) :
    TurnBooked c l (p.dispatch sent) := by
  have hnumbered : Booked c (l.number [sent.arrival]) { p with nextSeq := p.nextSeq + 1 } := by
    refine ⟨h.id, h.incarnation, ?_, fun seq e he => ?_, h.pending⟩
    · simp [h.nextSeq, number]
    · exact ⟨(h.inflight seq e he).1, (l.extends_number _).sendOf (h.inflight seq e he).2⟩
  have hseq : (l.number [sent.arrival]).sendOf p.nextSeq = some (sent.arrival, sent.message) := by
    rw [h.nextSeq]
    exact l.sendOf_number hsent
  have hturn := hnumbered.send (e := ⟨sent, 0⟩) (h.nextSeq ▸ Nat.succ_pos _) hseq
  rw [Producer.dispatch]
  exact ⟨by simpa [Producer.send] using hturn.booked, by simpa [Producer.send] using hturn.genuine⟩

lemma drain (queue : List (Arrived T)) (h : Booked c l p)
    (hqueue : ∀ e ∈ queue, l.arrivals[e.arrival]? = some e.message) :
    TurnBooked c l (p.drain queue) := by
  induction queue generalizing l p with
  | nil => exact TurnBooked.idle ⟨h.id, h.incarnation, h.nextSeq, h.inflight, by simp⟩
  | cons sent rest ih =>
    rw [drain]
    split
    · have hfirst := h.dispatch (hqueue sent mem_cons_self)
      refine hfirst.append (ih hfirst.booked fun e he => ?_)
      exact hqueue e (mem_cons_of_mem _ he)
    · exact TurnBooked.idle ⟨h.id, h.incarnation, h.nextSeq, h.inflight, hqueue⟩

lemma onSend (h : Booked c l p) (message : ProducerSend T) :
    TurnBooked c (l.arrive message) (p.onSend l.arrivals.length message) := by
  have harrived : (l.arrive message).arrivals[l.arrivals.length]? = some message := by
    simp [Ledger.arrive]
  have hbooked := h.arrive message
  rw [Producer.onSend]
  split
  · exact TurnBooked.idle hbooked
  · split
    · refine TurnBooked.idle ⟨h.id, h.incarnation, h.nextSeq, hbooked.inflight, fun e he => ?_⟩
      rcases mem_append.1 he with he | he
      · exact hbooked.pending e he
      · rw [mem_singleton] at he
        subst he
        exact harrived
    · exact hbooked.dispatch harrived

lemma retransmit (h : Booked c l p) (seq : ℕ) : TurnBooked c l (p.retransmit seq) := by
  rw [Producer.retransmit]
  split
  · exact TurnBooked.idle h
  · next current hcurrent =>
    obtain ⟨hpos, hsent⟩ := h.inflight seq current hcurrent
    exact h.send hpos hsent

lemma onAcknowledgment (h : Booked c l p) (message : Acknowledgment) :
    TurnBooked c l (p.onAcknowledgment message) := by
  rw [Producer.onAcknowledgment]
  split
  · exact TurnBooked.idle h
  · split
    · exact TurnBooked.idle h
    · split
      · exact TurnBooked.idle h
      · have hreleased : Booked c l { p with inflight := p.inflight.delete message.seq } := by
          refine ⟨h.id, h.incarnation, h.nextSeq, fun seq e he => ?_, h.pending⟩
          rw [get?_delete] at he
          split at he
          · cases he
          · exact h.inflight seq e he
        have hdrained := hreleased.drain p.pending h.pending
        exact ⟨hdrained.booked, hdrained.genuine⟩

lemma postStop (h : Booked c l p) : TurnBooked c l p.postStop := by
  refine ⟨?_, by simp [Producer.postStop]⟩
  rw [Producer.postStop, Ledger.number_nil]
  exact ⟨h.id, h.incarnation, h.nextSeq, by simp, by simp⟩

end Booked

section Settled

variable (p : Producer T)

/-- Whatever a turn numbers and tells, only an acknowledgment settles a send as
delivered. -/
lemma Producer.send_settled (seq : ℕ) (e : InFlight T) : (p.send seq e).settled = [] := rfl

lemma Producer.dispatch_settled (sent : Arrived T) : (p.dispatch sent).settled = [] := rfl

lemma Producer.onSend_settled (arrival : ℕ) (message : ProducerSend T) :
    (p.onSend arrival message).settled = [] := by
  rw [onSend]
  split
  · rfl
  · split
    · rfl
    · exact p.dispatch_settled _

lemma Producer.retransmit_settled (seq : ℕ) : (p.retransmit seq).settled = [] := by
  rw [retransmit]
  split
  · rfl
  · exact p.send_settled _ _

lemma Producer.drain_settled (queue : List (Arrived T)) : (p.drain queue).settled = [] := by
  induction queue generalizing p with
  | nil => rfl
  | cons sent rest ih =>
    rw [drain]
    split
    · simp only [dispatch_settled, ih, append_nil]
    · rfl

variable {x : ℕ × Outcome}

lemma Producer.mem_settle {sent : Arrived T} {outcome : Outcome} (h : x ∈ settle sent outcome) :
    x = (sent.arrival, outcome) := by
  rw [settle] at h
  split at h
  · exact mem_singleton.1 h
  · cases h

lemma Producer.mem_onAcknowledgment_settled {message : Acknowledgment}
    (h : x ∈ (p.onAcknowledgment message).settled) :
    message.producerId = p.id ∧ ∃ e, p.inflight.get? message.seq = some e ∧
      x = (e.sent.arrival, .delivered) := by
  rw [onAcknowledgment] at h
  split at h
  · cases h
  · next hid =>
    split at h
    · cases h
    · split at h
      · cases h
      · next e he =>
        simp only [drain_settled, append_nil] at h
        exact ⟨not_not.1 hid, e, he, mem_settle h⟩

lemma Producer.mem_postStop_settled (h : x ∈ p.postStop.settled) : x.2 = .producerStopped := by
  rcases mem_append.1 h with h | h
  all_goals
    obtain ⟨e, -, he⟩ := mem_flatMap.1 h
    rw [mem_settle he]

end Settled

/-! ### What is confirmed was handled -/

namespace System

lemma handledSeqs_append (as bs : List (Event T)) :
    handledSeqs c (as ++ bs) = handledSeqs c as ++ handledSeqs c bs :=
  filterMap_append

@[simp] lemma handledSeqs_settled (l : List (ℕ × Outcome)) :
    handledSeqs c (l.map fun p => (.settled p.1 p.2 : Event T)) = [] := by
  rw [handledSeqs, filterMap_map]
  exact filterMap_none l

lemma mem_handledSeqs_iff (trace : List (Event T)) (seq : ℕ) :
    seq ∈ handledSeqs c trace ↔
      ∃ m, .handled m ∈ trace ∧ m.producerId = c.id ∧ m.seq = seq := by
  rw [handledSeqs, mem_filterMap]
  constructor
  · rintro ⟨e, he, hseq⟩
    cases e with
    | settled arrival outcome => cases hseq
    | handled m =>
      simp only [ite_none_right_eq_some, some.injEq] at hseq
      exact ⟨m, he, hseq⟩
  · rintro ⟨m, hm, hid, rfl⟩
    exact ⟨_, hm, by simp [hid]⟩

variable {l : Ledger T} {trace : List (Event T)} {l' : Ledger T}

lemma HandledFor.mono {arrival : ℕ} (hl : l.Extends l') (new : List (Event T))
    (h : HandledFor c l trace arrival) : HandledFor c l' (trace ++ new) arrival := by
  obtain ⟨m, sent, hm, hid, hsent, hbody⟩ := h
  exact ⟨m, sent, mem_append_left _ hm, hid, hl.sendOf hsent, hbody⟩

/-- A trace that goes on stays in order when what is newly confirmed was handled
by then. -/
lemma ConfirmedAfter.append {new : List (Event T)} (hl : l.Extends l')
    (h : ConfirmedAfter c l trace)
    (hnew : ∀ arrival, .settled arrival .delivered ∈ new → HandledFor c l trace arrival) :
    ConfirmedAfter c l' (trace ++ new) := by
  intro before after arrival heq
  rcases append_eq_append_iff.1 heq with ⟨as, rfl, hrest⟩ | ⟨bs, hbefore, hrest⟩
  · -- confirmed by the new events
    refine HandledFor.mono hl _ (hnew arrival ?_)
    rw [hrest]
    exact mem_append_right _ mem_cons_self
  · cases bs with
    | nil =>
      rw [nil_append] at hrest
      have hhandled := hnew arrival (hrest ▸ mem_cons_self)
      rw [hbefore] at hhandled
      simpa using HandledFor.mono hl [] hhandled
    | cons e bs =>
      obtain ⟨rfl, -⟩ := List.cons.inj hrest
      have hhandled := h before bs arrival hbefore
      simpa using HandledFor.mono hl [] hhandled

/-- What the window holds was handled. -/
structure Vouched (c : Setup) (trace : List (Event T)) (state : DeduplicationState) : Prop where
  incarnation : state.incarnation = c.incarnation
  handled : ∀ x, 0 < x → isDuplicate state x = true → x ∈ handledSeqs c trace

variable {state : DeduplicationState}

lemma Vouched.mono (new : List (Event T)) (h : Vouched c trace state) :
    Vouched c (trace ++ new) state := by
  refine ⟨h.incarnation, fun x hpos hx => ?_⟩
  rw [handledSeqs_append]
  exact mem_append_left _ (h.handled x hpos hx)

/-- The windows of the producer hold only what was handled, and the handler of a
delivery of its own runs for a genuine one. -/
structure ConsumerInv (c : Setup) (l : Ledger T) (trace : List (Event T)) (q : Consumer T) :
    Prop where
  entry : ∀ state, q.deduplication.get? c.id = some state → Vouched c trace state
  running : ∀ m state, q.running = some (m, state) → m.producerId = c.id →
    Genuine c l m ∧ Vouched c trace state

/-- What holds in every run. -/
structure Inv (c : Setup) (s : System T) : Prop where
  booked : Booked c s.ledger s.producer
  deliveries : ∀ m ∈ s.deliveries, Genuine c s.ledger m
  consumer : ConsumerInv c s.ledger s.trace s.consumer
  acknowledgments : ∀ a ∈ s.acknowledgments, a.producerId = c.id →
    a.seq ∈ handledSeqs c s.trace
  handled : ∀ m, .handled m ∈ s.trace → m.producerId = c.id → Genuine c s.ledger m
  confirmedAfter : ConfirmedAfter c s.ledger s.trace

variable {q : Consumer T}

lemma ConsumerInv.mono (hl : l.Extends l') (new : List (Event T)) (h : ConsumerInv c l trace q) :
    ConsumerInv c l' (trace ++ new) q where
  entry state hstate := (h.entry state hstate).mono new
  running m state hrun hid :=
    ⟨(h.running m state hrun hid).1.mono hl, (h.running m state hrun hid).2.mono new⟩

lemma Inv.initial : Inv c (initial c : System T) where
  booked := Booked.initial
  deliveries := by simp [System.initial]
  consumer := ⟨by simp [System.initial, Consumer.initial],
    by simp [System.initial, Consumer.initial]⟩
  acknowledgments := by simp [System.initial]
  handled := by simp [System.initial]
  confirmedAfter := by
    intro before after arrival heq
    simp [System.initial] at heq

variable {s : System T}

/-- A turn of the producer that settles as delivered only what was handled. -/
lemma Inv.afterTurn {turn : ProducerTurn T} (h : Inv c s) (l : Ledger T) (hl : s.ledger.Extends l)
    (hturn : TurnBooked c l turn)
    (hsettled : ∀ arrival, (arrival, Outcome.delivered) ∈ turn.settled →
      HandledFor c s.ledger s.trace arrival) : Inv c ({ s with ledger := l }.afterTurn turn) := by
  have hl' : s.ledger.Extends (l.number turn.numbered) := hl.trans (l.extends_number _)
  refine ⟨hturn.booked, ?_, h.consumer.mono hl' _, ?_, ?_, ?_⟩
  · intro m hm
    rcases List.mem_append.1 hm with hm | hm
    · exact (h.deliveries m hm).mono hl'
    · exact hturn.genuine m hm
  · intro a ha hid
    rw [System.afterTurn, handledSeqs_append]
    exact List.mem_append_left _ (h.acknowledgments a ha hid)
  · intro m hm hid
    rcases List.mem_append.1 hm with hm | hm
    · exact (h.handled m hm hid).mono hl'
    · simp at hm
  · refine ConfirmedAfter.append hl' h.confirmedAfter fun arrival harrival => ?_
    simp only [List.mem_map, Event.settled.injEq, Prod.exists] at harrival
    obtain ⟨_, _, hmem, rfl, rfl⟩ := harrival
    exact hsettled _ hmem

lemma Inv.afterConsumer {turn : Consumer T × List Acknowledgment} (h : Inv c s)
    (hconsumer : ConsumerInv c s.ledger s.trace turn.1)
    (hacks : ∀ a ∈ turn.2, a.producerId = c.id → a.seq ∈ handledSeqs c s.trace) :
    Inv c (s.afterConsumer turn) := by
  refine ⟨h.booked, h.deliveries, hconsumer, ?_, h.handled, h.confirmedAfter⟩
  intro a ha hid
  rcases mem_append.1 ha with ha | ha
  · exact h.acknowledgments a ha hid
  · exact hacks a ha hid

lemma ConsumerInv.vouched_deduplicationStateFor (h : ConsumerInv c l trace q) (now : ℚ) :
    Vouched c trace (deduplicationStateFor c.options q.deduplication now c.id c.incarnation).1 := by
  obtain ⟨hinc, hwindow⟩ := deduplicationStateFor_window c.options q.deduplication now
    c.id c.incarnation
  refine ⟨hinc, fun x hpos hx => ?_⟩
  rcases hwindow with ⟨existing, hget, -, hsame⟩ | ⟨-, hempty⟩
  · exact (h.entry existing hget).handled x hpos (hsame x ▸ hx)
  · exact absurd (hempty x hx) hpos.ne'

variable {m : Delivery T}

/-- Looking up the window of a delivery leaves the producer's entry vouched for,
whoever the delivery is from. -/
lemma ConsumerInv.entry_deduplicationStateFor (h : ConsumerInv c l trace q) (now : ℚ)
    (hm : m.producerId = c.id → Genuine c l m)
    (hget : (deduplicationStateFor c.options q.deduplication now m.producerId
      m.incarnation).2.get? c.id = some state) : Vouched c trace state := by
  by_cases hid : m.producerId = c.id
  · rw [hid, (hm hid).incarnation, get?_deduplicationStateFor_self, some.injEq] at hget
    exact hget ▸ h.vouched_deduplicationStateFor now
  · rcases get?_deduplicationStateFor_of_ne c.options q.deduplication now m.producerId
        m.incarnation c.id hid with hk | hk
    · exact h.entry state (hk ▸ hget)
    · rw [hk] at hget
      cases hget

lemma Inv.handleDelivery (h : Inv c s) (now : ℚ)
    (hm : m.producerId = c.id → Genuine c s.ledger m) :
    Inv c (s.afterConsumer (s.consumer.handleDelivery c.options now m)) := by
  rcases s.consumer.handleDelivery_cases c.options now m with
    ⟨-, hnop⟩ | ⟨⟨-, hpos⟩, state, deduplication, hfound, hcases⟩
  · rw [hnop]
    exact h.afterConsumer h.consumer (by simp)
  · have hentry : ∀ st, deduplication.get? c.id = some st → Vouched c s.trace st := by
      intro st hst
      refine h.consumer.entry_deduplicationStateFor now hm ?_
      rw [hfound]
      exact hst
    have hstate : m.producerId = c.id → Vouched c s.trace state := by
      intro hid
      have hvouched := h.consumer.vouched_deduplicationStateFor now
      rw [← hid, ← (hm hid).incarnation, hfound] at hvouched
      exact hvouched
    rcases hcases with ⟨hdup, heq⟩ | ⟨-, heq⟩ | ⟨-, heq⟩ <;> rw [heq]
    · refine h.afterConsumer ⟨hentry, by simp⟩ fun a ha hid => ?_
      rw [mem_singleton] at ha
      subst ha
      exact (hstate hid).handled _ hpos hdup
    · exact h.afterConsumer ⟨hentry, by simp⟩ (by simp)
    · refine h.afterConsumer ⟨hentry, fun m' st hrun hid => ?_⟩ (by simp)
      cases hrun
      exact ⟨hm hid, hstate hid⟩

lemma Vouched.markDelivered (hid : m.producerId = c.id) (h : Vouched c trace state) :
    Vouched c (trace ++ [.handled m]) (markDelivered state m.seq) := by
  refine ⟨h.incarnation ▸ markDelivered_incarnation state m.seq, fun x hpos hx => ?_⟩
  rw [handledSeqs_append]
  rcases (isDuplicate_markDelivered state m.seq x).1 hx with hx | rfl
  · exact mem_append_left _ (h.handled x hpos hx)
  · exact mem_append_right _ ((mem_handledSeqs_iff _ _).2 ⟨m, by simp, hid, rfl⟩)

lemma Inv.handlerReturned (h : Inv c s) (now : ℚ) (hrun : s.consumer.running = some (m, state)) :
    Inv c { s.afterConsumer (s.consumer.handlerReturned now m state) with
      trace := s.trace ++ [.handled m] } := by
  have hgenuine : m.producerId = c.id → Genuine c s.ledger m := fun hid =>
    (h.consumer.running m state hrun hid).1
  refine ⟨h.booked, h.deliveries, ⟨fun st hst => ?_, by simp [System.afterConsumer,
    Consumer.handlerReturned]⟩, fun a ha hid => ?_, fun m' hm' hid => ?_, ?_⟩
  · simp only [System.afterConsumer, Consumer.handlerReturned, get?_touch] at hst
    split at hst
    · next hid =>
      have hmarked := (h.consumer.running m state hrun hid).2.markDelivered hid
      cases hst
      exact ⟨hmarked.incarnation, hmarked.handled⟩
    · exact (h.consumer.entry st hst).mono _
  · rw [handledSeqs_append]
    rcases mem_append.1 ha with ha | ha
    · exact mem_append_left _ (h.acknowledgments a ha hid)
    · simp only [Consumer.handlerReturned, mem_singleton] at ha
      subst ha
      exact mem_append_right _ ((mem_handledSeqs_iff _ _).2 ⟨m, by simp, hid, rfl⟩)
  · rcases mem_append.1 hm' with hm' | hm'
    · exact h.handled m' hm' hid
    · rw [mem_singleton] at hm'
      cases hm'
      exact hgenuine hid
  · exact ConfirmedAfter.append (Ledger.Extends.refl _) h.confirmedAfter (by simp)

/-- An acknowledgment was told behind a handler that returned for the delivery of
its number, which carried the body of the send in flight under it. -/
lemma Inv.handledFor_of_settled (h : Inv c s) {message : Acknowledgment}
    (hmessage : message ∈ s.acknowledgments) {arrival : ℕ}
    (harrival : (arrival, Outcome.delivered) ∈ (s.producer.onAcknowledgment message).settled) :
    HandledFor c s.ledger s.trace arrival := by
  obtain ⟨hid, e, he, heq⟩ := s.producer.mem_onAcknowledgment_settled harrival
  have hhandled := h.acknowledgments message hmessage (hid.trans h.booked.id)
  obtain ⟨m, hm, hown, hseq⟩ := (mem_handledSeqs_iff _ _).1 hhandled
  obtain ⟨arrival', sent, hsent, hbody⟩ := (h.handled m hm hown).body
  have hsame : some (arrival', sent) = some (e.sent.arrival, e.sent.message) := by
    rw [← hsent, hseq]
    exact (h.booked.inflight _ e he).2
  cases heq
  cases hsame
  exact ⟨m, _, hm, hown, hsent, hbody⟩

lemma Inv.step {s' : System T} {a : Action T} (h : Inv c s) (hstep : s.step c a = some s') :
    Inv c s' := by
  cases a with
  | send message =>
    simp only [System.step, ite_none_left_eq_some, some.injEq] at hstep
    obtain ⟨-, rfl⟩ := hstep
    refine h.afterTurn (s.ledger.arrive message) (s.ledger.extends_arrive message)
      (h.booked.onSend message) ?_
    simp [onSend_settled]
  | retransmit seq =>
    simp only [System.step, ite_none_left_eq_some, some.injEq] at hstep
    obtain ⟨-, rfl⟩ := hstep
    refine h.afterTurn s.ledger (Ledger.Extends.refl _) (h.booked.retransmit seq) ?_
    simp [retransmit_settled]
  | deliver n now =>
    simp only [System.step] at hstep
    split at hstep
    · next m hm _ =>
      cases hstep
      exact h.handleDelivery now fun _ => h.deliveries m (mem_of_getElem? hm)
    · cases hstep
  | deliverOther m now =>
    simp only [System.step, ite_none_left_eq_some, some.injEq, not_or] at hstep
    obtain ⟨⟨hother, -⟩, rfl⟩ := hstep
    exact h.handleDelivery now fun hid => absurd hid hother
  | handlerReturns now =>
    simp only [System.step] at hstep
    split at hstep
    · cases hstep
    · next m state hrun =>
      cases hstep
      exact h.handlerReturned now hrun
  | handlerThrows =>
    simp only [System.step] at hstep
    split at hstep
    · cases hstep
    · cases hstep
      exact ⟨h.booked, h.deliveries, ⟨h.consumer.entry, by simp [handlerThrew]⟩,
        h.acknowledgments, h.handled, h.confirmedAfter⟩
  | sweep now =>
    cases hstep
    refine ⟨h.booked, h.deliveries, ⟨fun state hstate => ?_, ?_⟩, h.acknowledgments,
      h.handled, h.confirmedAfter⟩
    · rcases get?_sweepIdleProducers c.options now c.id s.consumer with hk | hk
      · exact h.consumer.entry state (hk ▸ hstate)
      · rw [hk] at hstate
        cases hstate
    · rw [sweepIdleProducers_running]
      exact h.consumer.running
  | acknowledge n =>
    simp only [System.step] at hstep
    split at hstep
    · cases hstep
    · next message hmessage =>
      simp only [ite_none_left_eq_some, some.injEq] at hstep
      obtain ⟨-, rfl⟩ := hstep
      refine h.afterTurn s.ledger (Ledger.Extends.refl _) (h.booked.onAcknowledgment message)
        fun arrival harrival => ?_
      exact h.handledFor_of_settled (mem_of_getElem? hmessage) harrival
  | stop =>
    simp only [System.step, ite_none_left_eq_some, some.injEq] at hstep
    obtain ⟨-, rfl⟩ := hstep
    have hstopped := h.afterTurn s.ledger (Ledger.Extends.refl _) h.booked.postStop
      fun arrival harrival => by cases s.producer.mem_postStop_settled harrival
    exact ⟨hstopped.booked, hstopped.deliveries, hstopped.consumer, hstopped.acknowledgments,
      hstopped.handled, hstopped.confirmedAfter⟩

/-! ### What was handled is remembered -/

/-- The window that decides about the producer's next delivery: the one its
running handler will write back, and the map's entry otherwise. -/
def window (c : Setup) (q : Consumer T) : Option DeduplicationState :=
  match q.running with
  | some (m, state) => if m.producerId = c.id then some state else q.deduplication.get? c.id
  | none => q.deduplication.get? c.id

/-- No number was handled twice, all that were are in the window, and a handler
runs for a number that is not. -/
structure Remembers (c : Setup) (trace : List (Event T)) (q : Consumer T) : Prop where
  once : (handledSeqs c trace).Nodup
  kept : ∀ x ∈ handledSeqs c trace, ∃ state, window c q = some state ∧
    isDuplicate state x = true
  running : ∀ m state, q.running = some (m, state) → m.producerId = c.id →
    isDuplicate state m.seq = false ∧
      ∀ entry, q.deduplication.get? c.id = some entry → entry = state

lemma window_of_idle (h : q.running = none) : window c q = q.deduplication.get? c.id := by
  rw [window, h]

lemma window_of_other (h : q.running = some (m, state)) (hid : m.producerId ≠ c.id) :
    window c q = q.deduplication.get? c.id := by
  simp [window, h, hid]

lemma window_of_own (h : q.running = some (m, state)) (hid : m.producerId = c.id) :
    window c q = some state := by
  simp [window, h, hid]

lemma Remembers.initial : Remembers c [] (.initial : Consumer T) where
  once := nodup_nil
  kept := by simp [handledSeqs]
  running := by simp [Consumer.initial]

lemma Remembers.congr {trace' : List (Event T)} (h : Remembers c trace q)
    (hseqs : handledSeqs c trace' = handledSeqs c trace) : Remembers c trace' q :=
  ⟨hseqs ▸ h.once, hseqs ▸ h.kept, h.running⟩

/-- A consumer whose window is the same, and that handles the same delivery. -/
lemma Remembers.of_window {q' : Consumer T} (h : Remembers c trace q)
    (hwindow : window c q' = window c q)
    (hrunning : ∀ m state, q'.running = some (m, state) → m.producerId = c.id →
      q.running = some (m, state) ∧ (q'.deduplication.get? c.id = q.deduplication.get? c.id ∨
        q'.deduplication.get? c.id = none)) : Remembers c trace q' := by
  refine ⟨h.once, fun x hx => hwindow ▸ h.kept x hx, fun m state hrun hid => ?_⟩
  obtain ⟨hrun', hentry⟩ := hrunning m state hrun hid
  refine ⟨(h.running m state hrun' hid).1, fun entry hget => ?_⟩
  rcases hentry with hsame | hnone
  · exact (h.running m state hrun' hid).2 entry (hsame ▸ hget)
  · rw [hnone] at hget
    cases hget

/-- An entry that is kept or dropped, and that a step has to keep, is kept. -/
lemma get?_eq_of_keeps {d d' : OrderedMap JsString DeduplicationState} {k : JsString}
    (hframe : d'.get? k = d.get? k ∨ d'.get? k = none)
    (hkeeps : d.has k = true → d'.has k = true) : d'.get? k = d.get? k := by
  rcases hframe with hsame | hnone
  · exact hsame
  · cases hget : d.get? k with
    | none => exact hnone
    | some entry =>
      have hhas := hkeeps (by simp [OrderedMap.has, hget])
      simp [OrderedMap.has, hnone] at hhas

section

variable (h : Remembers c trace q)
include h

lemma Remembers.handleOther (hidle : q.running = none) (now : ℚ)
    (hid : m.producerId ≠ c.id) (hkeeps : q.deduplication.has c.id = true →
      (q.handleDelivery c.options now m).1.deduplication.has c.id = true) :
    Remembers c trace (q.handleDelivery c.options now m).1 := by
  rcases q.handleDelivery_cases c.options now m with
    ⟨-, hnop⟩ | ⟨-, state, deduplication, hfound, hcases⟩
  · rw [hnop]
    exact h
  · have hframe := get?_deduplicationStateFor_of_ne c.options q.deduplication now
      m.producerId m.incarnation c.id hid
    rw [hfound] at hframe
    rcases hcases with ⟨-, heq⟩ | ⟨-, heq⟩ | ⟨-, heq⟩ <;> rw [heq] at hkeeps ⊢
    · refine h.of_window ?_ (by simp)
      rw [window_of_idle rfl, window_of_idle hidle]
      exact get?_eq_of_keeps hframe hkeeps
    · refine h.of_window ?_ (by simp)
      rw [window_of_idle rfl, window_of_idle hidle]
      exact get?_eq_of_keeps hframe hkeeps
    · refine h.of_window ?_ fun m' st hrun hown => ?_
      · rw [window_of_other rfl hid, window_of_idle hidle]
        exact get?_eq_of_keeps hframe hkeeps
      · cases hrun
        exact absurd hown hid

/-- The turn of a delivery of this producer: the window is found as it was. -/
lemma Remembers.handleOwn (hinv : ConsumerInv c l trace q) (hidle : q.running = none) (now : ℚ)
    (hm : Genuine c l m) : Remembers c trace (q.handleDelivery c.options now m).1 := by
  rcases q.handleDelivery_cases c.options now m with
    ⟨-, hnop⟩ | ⟨-, state, deduplication, hfound, hcases⟩
  · rw [hnop]
    exact h
  · have hself := get?_deduplicationStateFor_self c.options q.deduplication now
      m.producerId m.incarnation
    have hwindow := (deduplicationStateFor_window c.options q.deduplication now
      m.producerId m.incarnation).2
    rw [hfound] at hself hwindow
    rw [hm.producerId] at hself hwindow
    have hkept : ∀ x ∈ handledSeqs c trace, isDuplicate state x = true := by
      intro x hx
      obtain ⟨entry, hentry, hdup⟩ := h.kept x hx
      rw [window_of_idle hidle] at hentry
      rcases hwindow with ⟨existing, hget, -, hsame⟩ | ⟨hnone, -⟩
      · rw [hget] at hentry
        cases hentry
        exact hsame x ▸ hdup
      · refine absurd ?_ (hnone entry hentry)
        exact (hinv.entry entry hentry).incarnation.trans hm.incarnation.symm
    rcases hcases with ⟨-, heq⟩ | ⟨-, heq⟩ | ⟨⟨hnew, -⟩, heq⟩ <;> rw [heq]
    · exact ⟨h.once, fun x hx => ⟨state, (window_of_idle rfl).trans hself, hkept x hx⟩, by simp⟩
    · exact ⟨h.once, fun x hx => ⟨state, (window_of_idle rfl).trans hself, hkept x hx⟩, by simp⟩
    · refine ⟨h.once, fun x hx => ⟨state, window_of_own rfl hm.producerId, hkept x hx⟩, ?_⟩
      intro m' st hrun hown
      cases hrun
      refine ⟨hnew, fun entry hget => ?_⟩
      exact some.inj (hget.symm.trans hself)

lemma Remembers.seq_not_mem (hrun : q.running = some (m, state))
    (hid : m.producerId = c.id) : m.seq ∉ handledSeqs c trace := by
  intro hmem
  obtain ⟨state', hwindow, hdup⟩ := h.kept m.seq hmem
  rw [window_of_own hrun hid] at hwindow
  cases hwindow
  rw [(h.running m state hrun hid).1] at hdup
  cases hdup

lemma Remembers.handlerReturned (now : ℚ) (hrun : q.running = some (m, state)) :
    Remembers c (trace ++ [.handled m]) (q.handlerReturned now m state).1 := by
  by_cases hid : m.producerId = c.id
  · have hseqs : handledSeqs c (trace ++ [.handled m]) = handledSeqs c trace ++ [m.seq] := by
      simp [handledSeqs, hid]
    have hwindow : window c (q.handlerReturned now m state).1 =
        some { Consumer.markDelivered state m.seq with lastSeenAtMs := now } := by
      simp [window, Consumer.handlerReturned, get?_touch, hid]
    refine ⟨?_, fun x hx => ⟨_, hwindow, ?_⟩, by simp [Consumer.handlerReturned]⟩
    · rw [hseqs]
      refine nodup_append.2 ⟨h.once, nodup_singleton _, fun x hx y hy => ?_⟩
      rw [mem_singleton] at hy
      rintro rfl
      exact h.seq_not_mem hrun hid (hy ▸ hx)
    · refine (isDuplicate_markDelivered state m.seq x).2 ?_
      rw [hseqs] at hx
      rcases mem_append.1 hx with hx | hx
      · obtain ⟨state', hstate', hdup⟩ := h.kept x hx
        rw [window_of_own hrun hid] at hstate'
        cases hstate'
        exact .inl hdup
      · exact .inr (mem_singleton.1 hx)
  · have hseqs : handledSeqs c (trace ++ [.handled m]) = handledSeqs c trace := by
      simp [handledSeqs, hid]
    refine (h.of_window ?_ (by simp [Consumer.handlerReturned])).congr hseqs
    rw [window_of_other hrun hid]
    simp [window, Consumer.handlerReturned, get?_touch, hid]

/-- A throw behind which the entry is still there, or there was nothing to lose. -/
lemma Remembers.handlerThrew (hpos : ∀ x ∈ handledSeqs c trace, 0 < x)
    (hrun : q.running = some (m, state))
    (hharmless : m.producerId = c.id → q.deduplication.has c.id = true ∨
      state.contiguous = 0 ∧ state.above = OrderedSet.empty) :
    Remembers c trace q.handlerThrew := by
  by_cases hid : m.producerId = c.id
  · refine ⟨h.once, fun x hx => ?_, by simp [Consumer.handlerThrew]⟩
    obtain ⟨state', hwindow, hdup⟩ := h.kept x hx
    rw [window_of_own hrun hid] at hwindow
    cases hwindow
    rcases hharmless hid with hhas | ⟨hcontiguous, habove⟩
    · obtain ⟨entry, hget⟩ := isSome_iff_exists.1 hhas
      refine ⟨entry, (window_of_idle rfl).trans hget, ?_⟩
      rw [(h.running m state hrun hid).2 entry hget]
      exact hdup
    · have hzero : x = 0 := by
        simpa [isDuplicate_iff, hcontiguous, habove] using hdup
      exact absurd hzero (hpos x hx).ne'
  · refine h.of_window ?_ (by simp [Consumer.handlerThrew])
    rw [window_of_other hrun hid]
    rfl

lemma Remembers.sweep (now : ℚ) (hkeeps : q.deduplication.has c.id = true →
      (q.sweepIdleProducers c.options now).deduplication.has c.id = true ∨
        ∃ m state, q.running = some (m, state) ∧ m.producerId = c.id) :
    Remembers c trace (q.sweepIdleProducers c.options now) := by
  have hframe := get?_sweepIdleProducers c.options now c.id q
  refine h.of_window ?_ fun m state hrun hid => ⟨by simpa using hrun, hframe⟩
  rw [window, window, sweepIdleProducers_running]
  cases hrun : q.running with
  | none => exact get?_eq_of_keeps hframe fun hhas => by simpa [hrun] using hkeeps hhas
  | some own =>
    obtain ⟨m, state⟩ := own
    by_cases hid : m.producerId = c.id
    · simp [hid]
    · simp only [if_neg hid]
      exact get?_eq_of_keeps hframe fun hhas => by simpa [hrun, hid] using hkeeps hhas

end

lemma Remembers.step {s' : System T} {a : Action T} (hinv : Inv c s)
    (h : Remembers c s.trace s.consumer) (hstep : s.step c a = some s') (hkeeps : KeepsEntry c s s')
    (hthrows : ThrowsHarmlessly c s a) : Remembers c s'.trace s'.consumer := by
  have hpos : ∀ x ∈ handledSeqs c s.trace, 0 < x := by
    intro x hx
    obtain ⟨m, hm, hid, rfl⟩ := (mem_handledSeqs_iff _ _).1 hx
    exact (hinv.handled m hm hid).seq_pos
  -- a turn of the producer adds no handler to the trace
  have hturn : ∀ l turn, Remembers c ({ s with ledger := l }.afterTurn turn).trace s.consumer :=
    fun l turn => h.congr (by simp [afterTurn, handledSeqs_append])
  cases a with
  | send message =>
    simp only [System.step, ite_none_left_eq_some, some.injEq] at hstep
    obtain ⟨-, rfl⟩ := hstep
    exact hturn _ _
  | retransmit seq =>
    simp only [System.step, ite_none_left_eq_some, some.injEq] at hstep
    obtain ⟨-, rfl⟩ := hstep
    exact hturn s.ledger _
  | deliver n now =>
    simp only [System.step] at hstep
    split at hstep
    · next m hm hidle =>
      cases hstep
      exact h.handleOwn hinv.consumer hidle now (hinv.deliveries m (mem_of_getElem? hm))
    · cases hstep
  | deliverOther m now =>
    simp only [System.step, ite_none_left_eq_some, some.injEq, not_or,
      not_isSome_iff_eq_none] at hstep
    obtain ⟨⟨hother, hidle⟩, rfl⟩ := hstep
    refine h.handleOther hidle now hother fun hhas => ?_
    simpa [HandlesOwn, hidle, afterConsumer] using hkeeps hhas
  | handlerReturns now =>
    simp only [System.step] at hstep
    split at hstep
    · cases hstep
    · next m state hrun =>
      cases hstep
      exact h.handlerReturned now hrun
  | handlerThrows =>
    simp only [System.step] at hstep
    split at hstep
    · cases hstep
    · next own hrun =>
      cases hstep
      exact h.handlerThrew hpos hrun fun hid => hthrows rfl _ _ hrun hid
  | sweep now =>
    cases hstep
    exact h.sweep now hkeeps
  | acknowledge n =>
    simp only [System.step] at hstep
    split at hstep
    · cases hstep
    · simp only [ite_none_left_eq_some, some.injEq] at hstep
      obtain ⟨-, rfl⟩ := hstep
      exact hturn s.ledger _
  | stop =>
    simp only [System.step, ite_none_left_eq_some, some.injEq] at hstep
    obtain ⟨-, rfl⟩ := hstep
    exact hturn s.ledger _

lemma Inv.of_reaches {P : System T → Action T → System T → Prop} (h : Reaches c P s) :
    Inv c s := by
  induction h with
  | initial => exact Inv.initial
  | step _ hstep _ ih => exact ih.step hstep

section Runs

variable (P : System T → Action T → System T → Prop) [∀ s a s', Decidable (P s a s')]

/-- Take the actions one after the other, as long as every step satisfies `P`. -/
def run (c : Setup) : System T → List (Action T) → Option (System T)
  | s, [] => some s
  | s, a :: as =>
    match s.step c a with
    | none => none
    | some s' => if P s a s' then run c s' as else none

lemma Reaches.run {s s' : System T} (h : Reaches c P s) (as : List (Action T))
    (hrun : run P c s as = some s') : Reaches c P s' := by
  induction as generalizing s with
  | nil => exact some.inj hrun ▸ h
  | cons a as ih =>
    rw [System.run] at hrun
    split at hrun
    · cases hrun
    · next s'' hstep =>
      split at hrun
      · next hP => exact ih (h.step hstep hP) hrun
      · cases hrun

lemma Reaches.exists_of_run {β : Type*} {f : System T → β} {v : β} (as : List (Action T))
    (hrun : (System.run P c (System.initial c) as).map f = some v) :
    ∃ s, Reaches c P s ∧ f s = v := by
  obtain ⟨s, hs, rfl⟩ := map_eq_some_iff.1 hrun
  exact ⟨s, Reaches.initial.run P as hs, rfl⟩

instance (s : System T) : Decidable (HandlesOwn c s) :=
  decidable_of_iff (s.consumer.running.any fun p => p.1.producerId = c.id) (by
    cases h : s.consumer.running with
    | none => simp [HandlesOwn, h]
    | some p =>
      obtain ⟨m, state⟩ := p
      simp [HandlesOwn, h])

instance (s s' : System T) : Decidable (KeepsEntry c s s') :=
  inferInstanceAs (Decidable (_ → _ ∨ _))

instance (s : System T) (a : Action T) : Decidable (ThrowsHarmlessly c s a) :=
  match a, h : s.consumer.running with
  | .handlerThrows, some (m, state) =>
    decidable_of_iff (m.producerId = c.id → s.consumer.deduplication.has c.id = true ∨
        state.contiguous = 0 ∧ state.above = OrderedSet.empty)
      ⟨fun hh _ m' state' hr => by simp_all, fun hh => hh rfl m state h⟩
  | .handlerThrows, none => isTrue fun _ m state hr => by simp [h] at hr
  | .send _, _ | .retransmit _, _ | .deliver _ _, _ | .deliverOther _ _, _
  | .handlerReturns _, _ | .sweep _, _ | .acknowledge _, _ | .stop, _ =>
    isTrue fun ha => by cases ha

end Runs

/-- In every run in which the producer's entry is taken away only while its own
handler runs, and no handler of its own throws behind that, each sequence number
is handled at most once and a send is confirmed only after the handler returned
for its body. -/
theorem sound_of_reaches (c : Setup) (s : System T)
    (h : Reaches c (fun s a s' => KeepsEntry c s s' ∧ ThrowsHarmlessly c s a) s) : Sound c s := by
  have hremembers : Remembers c s.trace s.consumer := by
    induction h with
    | initial => exact Remembers.initial
    | step hreach hstep hP ih => exact Remembers.step (Inv.of_reaches hreach) ih hstep hP.1 hP.2
  exact ⟨hremembers.once, (Inv.of_reaches h).confirmedAfter⟩

/-- A window of sixteen sends, and entries that are dropped after ten
milliseconds. -/
def shortLived : Setup :=
  ⟨"p", "i", 16, ⟨some 1024, some 10, some 1024⟩⟩

/-- Two sends, the second delivered first and twice, its handler throwing once;
both are acknowledged. -/
theorem sound_of_reaches_reordered : ∃ s : System Bool,
    Reaches shortLived (fun s a s' => KeepsEntry shortLived s s' ∧
      ThrowsHarmlessly shortLived s a) s ∧
    (handledSeqs shortLived s.trace, s.trace.length) = ([2, 1], 4) ∧ Sound shortLived s := by
  obtain ⟨s, hreach, hs⟩ := Reaches.exists_of_run (c := shortLived)
    (fun s a s' => KeepsEntry shortLived s s' ∧ ThrowsHarmlessly shortLived s a)
    (f := fun s => (handledSeqs shortLived s.trace, s.trace.length)) (v := ([2, 1], 4))
    [.send ⟨true, .callback⟩, .send ⟨false, .callback⟩, .deliver 1 0, .handlerThrows,
      .deliver 1 1, .handlerReturns 2, .deliver 1 3, .deliver 0 4, .handlerReturns 5,
      .acknowledge 0, .acknowledge 1, .acknowledge 2] (by decide +kernel)
  exact ⟨s, hreach, hs, sound_of_reaches shortLived s hreach⟩

/-- The first send is handled and its acknowledgment lost. While the handler of
the second runs, the sweep takes the entry; the handler throws, and the first
send, transmitted again, meets an empty window. -/
theorem handled_twice_behind_throw : ∃ s : System Bool,
    Reaches shortLived (fun s _ s' => KeepsEntry shortLived s s') s ∧
    handledSeqs shortLived s.trace = [1, 1] ∧ ¬ Sound shortLived s := by
  obtain ⟨s, hreach, hs⟩ := Reaches.exists_of_run (c := shortLived)
    (fun s _ s' => KeepsEntry shortLived s s')
    (f := fun s => handledSeqs shortLived s.trace) (v := [1, 1])
    [.send ⟨true, .callback⟩, .deliver 0 0, .handlerReturns 1, .send ⟨false, .callback⟩,
      .deliver 1 2, .sweep 20, .handlerThrows, .retransmit 1, .deliver 2 22,
      .handlerReturns 23] (by decide +kernel)
  refine ⟨s, hreach, hs, fun hsound => ?_⟩
  have honce := hsound.handledOnce
  rw [hs] at honce
  exact absurd honce (by decide)

end System

end ActorTs.ReliableDelivery
