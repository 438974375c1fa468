import Mathlib.Data.Rat.Lemmas
import Mathlib.Algebra.Order.Ring.Unbundled.Rat
import ActorTs.Delivery.ProducerController

/-!
# The consumer side of reliable delivery

For every producer the consumer keeps the window of sequence numbers it has
handled: all up to `contiguous`, and those in `above`. A delivery in the window
is acknowledged again and not handled again. The windows are on a budget: the
least recently used ones are evicted to make room for a producer not held yet,
and a sweep drops those that have been idle for too long.

A delivery is handled in two turns, since the handler is awaited between them. The second works on
the window object the first one found; meanwhile the sweep can run.
-/

open OrderedMap OrderedSet Nat

namespace ActorTs.ReliableDelivery

def MAX_DELIVERY_IDENTIFIER_LENGTH : ℕ := 256

structure DeduplicationState where
  incarnation : JsString
  contiguous : ℕ
  above : OrderedSet ℕ
  lastSeenAtMs : ℚ
  deriving DecidableEq

/-- `none` stands for `Infinity`. -/
structure ConsumerOptions where
  maxProducers : Option ℕ
  producerIdleTtlMs : Option ℚ
  maxOutOfOrder : Option ℕ

structure Consumer (T : Type*) where
  deduplication : OrderedMap JsString DeduplicationState
  /-- The delivery whose handler is running, and the window it was checked
  against. -/
  running : Option (Delivery T × DeduplicationState)

namespace Consumer

variable {T : Type*}

def initial : Consumer T := ⟨OrderedMap.empty, none⟩

def isIdentifier (value : JsString) : Bool :=
  value.length > 0 && value.length ≤ MAX_DELIVERY_IDENTIFIER_LENGTH

/-- The sequence number has to be a safe integer above zero. -/
def isAdmissible (message : Delivery T) : Bool :=
  isIdentifier message.producerId && isIdentifier message.incarnation &&
    (decide (message.seq < 2 ^ 53) && message.seq > 0) && message.replyTo

/-- Stamp an entry and move it to the most recently used end. -/
def touch (deduplication : OrderedMap JsString DeduplicationState) (now : ℚ)
    (producerId : JsString) (state : DeduplicationState) :
    OrderedMap JsString DeduplicationState :=
  (deduplication.delete producerId).set producerId { state with lastSeenAtMs := now }

/-- Delete least recently used entries while the map is full. -/
def evict (maxProducers : ℕ) : ℕ → OrderedMap JsString DeduplicationState →
    OrderedMap JsString DeduplicationState
  | 0, deduplication => deduplication
  | fuel + 1, deduplication =>
    if deduplication.size ≥ maxProducers then
      match deduplication.keys with
      | [] => deduplication
      | leastRecentlyUsed :: _ => evict maxProducers fuel (deduplication.delete leastRecentlyUsed)
    else deduplication

def evictForNewProducer (options : ConsumerOptions)
    (deduplication : OrderedMap JsString DeduplicationState) :
    OrderedMap JsString DeduplicationState :=
  match options.maxProducers with
  | none => deduplication
  | some maxProducers => evict maxProducers deduplication.size deduplication

/-- The window of a producer, and the map with it in the last place. A window of
another incarnation is replaced by an empty one. -/
def deduplicationStateFor (options : ConsumerOptions)
    (deduplication : OrderedMap JsString DeduplicationState) (now : ℚ)
    (producerId incarnation : JsString) :
    DeduplicationState × OrderedMap JsString DeduplicationState :=
  let fresh : DeduplicationState := ⟨incarnation, 0, OrderedSet.empty, now⟩
  match deduplication.get? producerId with
  | none => (fresh, touch (evictForNewProducer options deduplication) now producerId fresh)
  | some existing =>
    if existing.incarnation = incarnation then
      ({ existing with lastSeenAtMs := now }, touch deduplication now producerId existing)
    else (fresh, touch deduplication now producerId fresh)

def isDuplicate (state : DeduplicationState) (seq : ℕ) : Bool :=
  seq ≤ state.contiguous || state.above.has seq

def hasOutOfOrderRoom (options : ConsumerOptions) (state : DeduplicationState) (seq : ℕ) : Bool :=
  if seq = state.contiguous + 1 then true
  else
    match options.maxOutOfOrder with
    | none => true
    | some maxOutOfOrder => state.above.size < maxOutOfOrder

def acknowledgmentOf (message : Delivery T) : Acknowledgment :=
  ⟨message.producerId, message.incarnation, message.seq⟩

/-- The turn that takes a delivery up, as far as the handler. -/
def handleDelivery (options : ConsumerOptions) (c : Consumer T) (now : ℚ)
    (message : Delivery T) : Consumer T × List Acknowledgment :=
  if !isAdmissible message then (c, [])
  else
    let (state, deduplication) := deduplicationStateFor options c.deduplication now
      message.producerId message.incarnation
    if isDuplicate state message.seq then (⟨deduplication, none⟩, [acknowledgmentOf message])
    else if !hasOutOfOrderRoom options state message.seq then (⟨deduplication, none⟩, [])
    else (⟨deduplication, some (message, state)⟩, [])

/-- Slide the window over what follows it without a gap. -/
def slide : ℕ → ℕ → OrderedSet ℕ → ℕ × OrderedSet ℕ
  | 0, contiguous, above => (contiguous, above)
  | fuel + 1, contiguous, above =>
    if above.has (contiguous + 1) then slide fuel (contiguous + 1) (above.delete (contiguous + 1))
    else (contiguous, above)

def markDelivered (state : DeduplicationState) (seq : ℕ) : DeduplicationState :=
  if seq = state.contiguous + 1 then
    let (contiguous, above) := slide state.above.size (state.contiguous + 1) state.above
    { state with contiguous := contiguous, above := above }
  else { state with above := state.above.add seq }

/-- The turn behind a handler that returned: the window goes back into the map,
whether or not it is still there. -/
def handlerReturned (c : Consumer T) (now : ℚ) (message : Delivery T)
    (state : DeduplicationState) : Consumer T × List Acknowledgment :=
  (⟨(touch c.deduplication now message.producerId
      (markDelivered state message.seq)), none⟩, [acknowledgmentOf message])

/-- The turn behind a handler that threw. -/
def handlerThrew (c : Consumer T) : Consumer T := { c with running := none }

/-- The entries are in the order in which they were last seen, so the sweep stops
at the first that is still fresh. -/
def sweepIdleProducers (options : ConsumerOptions) (c : Consumer T) (now : ℚ) : Consumer T :=
  match options.producerIdleTtlMs with
  | none => c
  | some producerIdleTtlMs =>
    let cutoff := now - producerIdleTtlMs
    { c with deduplication :=
        ⟨c.deduplication.entries.dropWhile fun p => decide (p.2.lastSeenAtMs ≤ cutoff),
          c.deduplication.nodupKeys.sublist
            (List.Sublist.map Prod.fst (List.dropWhile_sublist _))⟩ }

section Windows

variable (state : DeduplicationState) (seq x : ℕ)

lemma isDuplicate_iff : isDuplicate state x = true ↔ x ≤ state.contiguous ∨ x ∈ state.above := by
  simp [isDuplicate]

lemma slide_covers (fuel contiguous : ℕ) (above : OrderedSet ℕ) :
    (x ≤ (slide fuel contiguous above).1 ∨ x ∈ (slide fuel contiguous above).2) ↔
      (x ≤ contiguous ∨ x ∈ above) := by
  induction fuel generalizing contiguous above with
  | zero => rfl
  | succ fuel ih =>
    rw [slide]
    by_cases hnext : above.has (contiguous + 1) = true
    · have hmem : contiguous + 1 ∈ above := (OrderedSet.has_iff _ _).1 hnext
      rw [if_pos hnext, ih, mem_delete]
      constructor
      · rintro (hle | ⟨hx, -⟩)
        · rcases le_succ_iff.1 hle with hle | rfl
          · exact .inl hle
          · exact .inr hmem
        · exact .inr hx
      · rintro (hle | hx)
        · exact .inl (le_succ_of_le hle)
        · by_cases heq : x = contiguous + 1
          · exact .inl heq.le
          · exact .inr ⟨hx, heq⟩
    · rw [if_neg hnext]

lemma isDuplicate_markDelivered :
    isDuplicate (markDelivered state seq) x = true ↔ isDuplicate state x = true ∨ x = seq := by
  rw [isDuplicate_iff, isDuplicate_iff, markDelivered]
  by_cases hseq : seq = state.contiguous + 1
  · rw [if_pos hseq]
    refine (slide_covers x state.above.size (state.contiguous + 1) state.above).trans ?_
    rw [le_succ_iff, hseq]
    exact or_right_comm
  · rw [if_neg hseq]
    simp only [mem_add]
    tauto

@[simp] lemma markDelivered_incarnation :
    (markDelivered state seq).incarnation = state.incarnation := by
  rw [markDelivered]
  split <;> rfl

end Windows

section Entries

variable (options : ConsumerOptions) (deduplication : OrderedMap JsString DeduplicationState)
  (now : ℚ) (id incarnation k : JsString)

lemma get?_touch (state : DeduplicationState) :
    (touch deduplication now id state).get? k =
      if id = k then some { state with lastSeenAtMs := now } else deduplication.get? k := by
  rw [touch, get?_set]
  split
  · rfl
  · next hne => rw [get?_delete, if_neg hne]

lemma get?_evictForNewProducer :
    (evictForNewProducer options deduplication).get? k = deduplication.get? k ∨
      (evictForNewProducer options deduplication).get? k = none := by
  rw [evictForNewProducer]
  cases options.maxProducers with
  | none => exact .inl rfl
  | some maxProducers =>
    simp only
    generalize deduplication.size = fuel
    induction fuel generalizing deduplication with
    | zero => exact .inl rfl
    | succ fuel ih =>
      rw [evict]
      split
      · split
        · exact .inl rfl
        · next leastRecentlyUsed _ _ =>
          rcases ih (deduplication.delete leastRecentlyUsed) with hk | hk
          · rw [hk, get?_delete]
            split
            · exact .inr rfl
            · exact .inl rfl
          · exact .inr hk
      · exact .inl rfl

lemma get?_deduplicationStateFor_self :
    (deduplicationStateFor options deduplication now id incarnation).2.get? id =
      some (deduplicationStateFor options deduplication now id incarnation).1 := by
  rw [deduplicationStateFor]
  split
  · simp [get?_touch]
  · split <;> simp [get?_touch]

lemma get?_deduplicationStateFor_of_ne (hne : id ≠ k) :
    (deduplicationStateFor options deduplication now id incarnation).2.get? k =
        deduplication.get? k ∨
      (deduplicationStateFor options deduplication now id incarnation).2.get? k = none := by
  rw [deduplicationStateFor]
  split
  · simpa only [get?_touch, if_neg hne] using get?_evictForNewProducer options deduplication k
  · split <;> simp [get?_touch, hne]

lemma deduplicationStateFor_window :
    (deduplicationStateFor options deduplication now id incarnation).1.incarnation = incarnation ∧
      ((∃ existing, deduplication.get? id = some existing ∧ existing.incarnation = incarnation ∧
          ∀ x, isDuplicate (deduplicationStateFor options deduplication now id incarnation).1 x =
            isDuplicate existing x) ∨
        (∀ existing, deduplication.get? id = some existing → existing.incarnation ≠ incarnation) ∧
          ∀ x, isDuplicate (deduplicationStateFor options deduplication now id incarnation).1 x =
            true → x = 0) := by
  rw [deduplicationStateFor]
  cases hget : deduplication.get? id with
  | none =>
    refine ⟨rfl, .inr ⟨by simp, fun x hx => ?_⟩⟩
    simpa [isDuplicate_iff] using hx
  | some existing =>
    by_cases hinc : existing.incarnation = incarnation
    · simp only [if_pos hinc]
      exact ⟨hinc, .inl ⟨existing, rfl, hinc, fun x => rfl⟩⟩
    · simp only [if_neg hinc]
      refine ⟨trivial, .inr ⟨fun e he => ?_, fun x hx => ?_⟩⟩
      · cases he
        exact hinc
      · simpa [isDuplicate_iff] using hx

lemma get?_sweepIdleProducers (c : Consumer T) :
    (sweepIdleProducers options c now).deduplication.get? k = c.deduplication.get? k ∨
      (sweepIdleProducers options c now).deduplication.get? k = none := by
  rw [sweepIdleProducers]
  split
  · exact .inl rfl
  · next producerIdleTtlMs _ =>
    cases hget : OrderedMap.get? _ k with
    | none => exact .inr rfl
    | some state =>
      refine .inl (Eq.symm ?_)
      rw [get?_eq_some_iff] at hget ⊢
      exact (List.dropWhile_sublist _).mem hget

@[simp] lemma sweepIdleProducers_running (c : Consumer T) :
    (sweepIdleProducers options c now).running = c.running := by
  rw [sweepIdleProducers]
  split <;> rfl

end Entries

lemma handleDelivery_cases (options : ConsumerOptions) (c : Consumer T) (now : ℚ)
    (message : Delivery T) :
    isAdmissible message = false ∧ c.handleDelivery options now message = (c, []) ∨
    (isAdmissible message = true ∧ 0 < message.seq) ∧ ∃ state deduplication,
      deduplicationStateFor options c.deduplication now message.producerId message.incarnation =
        (state, deduplication) ∧
      (isDuplicate state message.seq = true ∧
          c.handleDelivery options now message =
            (⟨deduplication, none⟩, [acknowledgmentOf message]) ∨
        hasOutOfOrderRoom options state message.seq = false ∧
          c.handleDelivery options now message = (⟨deduplication, none⟩, []) ∨
        (isDuplicate state message.seq = false ∧
            hasOutOfOrderRoom options state message.seq = true) ∧
          c.handleDelivery options now message = (⟨deduplication, some (message, state)⟩, [])) := by
  rw [handleDelivery]
  by_cases hadm : isAdmissible message = true
  · have hpos : 0 < message.seq := by
      simp only [isAdmissible, Bool.and_eq_true, decide_eq_true_eq] at hadm
      exact hadm.1.2.2
    simp only [hadm, Bool.not_true, Bool.false_eq_true, if_false]
    generalize deduplicationStateFor options c.deduplication now message.producerId
      message.incarnation = found
    obtain ⟨state, deduplication⟩ := found
    refine .inr ⟨⟨trivial, hpos⟩, state, deduplication, rfl, ?_⟩
    by_cases hdup : isDuplicate state message.seq = true
    · exact .inl ⟨hdup, if_pos hdup⟩
    · simp only [if_neg hdup]
      by_cases hroom : hasOutOfOrderRoom options state message.seq = true
      · exact .inr (.inr ⟨⟨by simpa using hdup, hroom⟩, by simp [hroom]⟩)
      · exact .inr (.inl ⟨by simpa using hroom, by simp [hroom]⟩)
  · exact .inl ⟨by simpa using hadm, by simp [hadm]⟩

end Consumer

end ActorTs.ReliableDelivery
