import ActorTs.Delivery.ConsumerController
import ActorTs.Library.Machine

/-!
# What the windows of a consumer hold

A consumer takes up deliveries of any producers, its handlers return or throw, and the sweep runs
whenever it does. A window holds what was handled since it was opened: for a producer that the map
does not hold, or under another incarnation.
-/

open List Option OrderedMap OrderedSet Nat

namespace ActorTs.ReliableDelivery.Consumer

open Machine Consumer

variable {T : Type*}

inductive Input (T : Type*) where
  | deliver (message : Delivery T) (now : ℚ)
  | handlerReturns (now : ℚ)
  | handlerThrows
  | sweep (now : ℚ)

/-- A window was opened, or a handler returned. -/
inductive Note where
  | opened (producerId : JsString)
  | handled (producerId : JsString) (seq : ℕ)

def step (options : ConsumerOptions) (c : Consumer T) : Input T → Consumer T
  | .deliver message now =>
    if c.running.isNone then (c.handleDelivery options now message).1 else c
  | .handlerReturns now =>
    match c.running with
    | none => c
    | some (message, state) => (c.handlerReturned now message state).1
  | .handlerThrows => c.handlerThrew
  | .sweep now => c.sweepIdleProducers options now

def notes (c : Consumer T) : Input T → List Note
  | .deliver message _ =>
    if c.running.isNone ∧ isAdmissible message = true ∧
        (c.deduplication.get? message.producerId).map (·.incarnation) ≠ some message.incarnation
    then [.opened message.producerId] else []
  | .handlerReturns _ =>
    match c.running with
    | none => []
    | some (message, _) => [.handled message.producerId message.seq]
  | .handlerThrows | .sweep _ => []

def afterNote (id : JsString) (seqs : List ℕ) : Note → List ℕ
  | .opened producerId => if producerId = id then [] else seqs
  | .handled producerId seq => if producerId = id then seq :: seqs else seqs

/-- What was handled of a producer since its window was opened. -/
def handledSince (id : JsString) (log : List Note) : List ℕ := log.foldl (afterNote id) []

/-- The window has what was handled, out of order only above a gap, and within the budget. -/
structure Represents (options : ConsumerOptions) (handled : List ℕ) (state : DeduplicationState) :
    Prop where
  handled : ∀ seq, seq ∈ handled ↔ 0 < seq ∧ (seq ≤ state.contiguous ∨ seq ∈ state.above)
  above : ∀ seq ∈ state.above, state.contiguous + 1 < seq
  capped : ∀ n, options.maxOutOfOrder = some n → state.above.size ≤ n

/-- A delivery of this incarnation, or what becomes of its handler. -/
def Input.Of (id incarnation : JsString) : Input T → Prop
  | .deliver message _ => message.producerId = id ∧ message.incarnation = incarnation
  | .sweep _ => False
  | _ => True

/-! ### One window -/

lemma OrderedSet.size_delete {s : OrderedSet ℕ} {x : ℕ} (h : x ∈ s) :
    (s.delete x).size + 1 = s.size := by
  rw [← OrderedSet.card_toFinset, OrderedSet.toFinset_delete,
    Finset.card_erase_add_one ((OrderedSet.mem_toFinset s x).2 h), OrderedSet.card_toFinset]

variable {options : ConsumerOptions}

/-- The window slides until it meets a gap. -/
lemma slide_above {fuel contiguous : ℕ} {above : OrderedSet ℕ} (hfuel : above.size ≤ fuel)
    (habove : ∀ x ∈ above, contiguous < x) :
    (∀ x ∈ (slide fuel contiguous above).2, (slide fuel contiguous above).1 + 1 < x) ∧
      (slide fuel contiguous above).2.size ≤ above.size := by
  induction fuel generalizing contiguous above with
  | zero =>
    refine ⟨fun x hx => ?_, le_refl _⟩
    exact absurd ((size_pos_iff above).2 ⟨x, hx⟩) (by omega)
  | succ fuel ih =>
    rw [slide]
    by_cases hnext : above.has (contiguous + 1) = true
    · have hsize := OrderedSet.size_delete ((OrderedSet.has_iff _ _).1 hnext)
      have hdeleted : ∀ x ∈ above.delete (contiguous + 1), contiguous + 1 < x := fun x hx => by
        obtain ⟨hmem, hne⟩ := (mem_delete above _ x).1 hx
        have := habove x hmem
        omega
      rw [if_pos hnext]
      obtain ⟨hgap, hle⟩ := ih (by omega) hdeleted
      exact ⟨hgap, by omega⟩
    · rw [if_neg hnext]
      refine ⟨fun x hx => ?_, le_refl _⟩
      have hne : x ≠ contiguous + 1 := fun heq =>
        hnext ((OrderedSet.has_iff _ _).2 (heq ▸ hx))
      have := habove x hx
      dsimp only
      omega

lemma Represents.opened (incarnation : JsString) (now : ℚ) :
    Represents options [] ⟨incarnation, 0, OrderedSet.empty, now⟩ where
  handled seq := by simp; omega
  above seq h := absurd h (not_mem_empty seq)
  capped n _ := zero_le n

lemma Represents.mark {handled : List ℕ} {state : DeduplicationState} {seq : ℕ}
    (h : Represents options handled state) (hpos : 0 < seq) (hnew : isDuplicate state seq = false)
    (hroom : hasOutOfOrderRoom options state seq = true) :
    Represents options (seq :: handled) (markDelivered state seq) := by
  rw [← Bool.not_eq_true, isDuplicate_iff, not_or] at hnew
  have hwindow : (∀ x ∈ (markDelivered state seq).above,
      (markDelivered state seq).contiguous + 1 < x) ∧
      ∀ n, options.maxOutOfOrder = some n → (markDelivered state seq).above.size ≤ n := by
    rw [hasOutOfOrderRoom] at hroom
    rw [markDelivered]
    split
    · obtain ⟨hgap, hsize⟩ := slide_above (Nat.le_refl state.above.size) h.above
      exact ⟨hgap, fun n hn => hsize.trans (h.capped n hn)⟩
    · next hseq =>
      rw [if_neg hseq] at hroom
      refine ⟨fun x hx => ?_, fun n hn => ?_⟩
      · rcases (mem_add ..).1 hx with rfl | hx
        · dsimp only
          omega
        · exact h.above x hx
      · rw [hn] at hroom
        rw [← OrderedSet.card_toFinset, OrderedSet.toFinset_add]
        refine (Finset.card_insert_le ..).trans ?_
        rw [OrderedSet.card_toFinset]
        exact of_decide_eq_true hroom
  refine ⟨fun x => ?_, hwindow.1, hwindow.2⟩
  rw [List.mem_cons, h.handled, ← isDuplicate_iff, ← isDuplicate_iff, isDuplicate_markDelivered]
  constructor
  · rintro (rfl | ⟨hx, hdup⟩)
    · exact ⟨hpos, .inr rfl⟩
    · exact ⟨hx, .inl hdup⟩
  · rintro ⟨hx, hdup | rfl⟩
    · exact .inr ⟨hx, hdup⟩
    · exact .inl rfl

/-! ### The map -/

variable {d : OrderedMap JsString DeduplicationState} {n : ℕ}

lemma size_touch (d : OrderedMap JsString DeduplicationState) (now : ℚ) (id : JsString)
    (state : DeduplicationState) : (touch d now id state).size = (d.delete id).size + 1 := by
  have hsize := (d.delete id).size_set id { state with lastSeenAtMs := now }
  rwa [get?_delete, if_pos rfl] at hsize

lemma size_evict {fuel : ℕ} (hn : 0 < n) (hfuel : d.size ≤ fuel) : (evict n fuel d).size < n := by
  induction fuel generalizing d with
  | zero => exact (le_zero.1 hfuel).trans_lt hn
  | succ fuel ih =>
    rw [evict]
    split
    · next hfull =>
      split
      · next hkeys =>
        rw [← length_keys, hkeys] at hfull
        exact absurd hfull (not_le.2 hn)
      · next first _ hkeys =>
        obtain ⟨state, hstate⟩ := (d.mem_keys_iff first).1 (hkeys ▸ mem_cons_self)
        have hsize := d.size_delete first
        rw [hstate, elim_some] at hsize
        exact ih (by omega)
    · next hroom => exact not_le.1 hroom

/-- The window that a delivery finds leaves room for it. -/
lemma size_deduplicationStateFor (hn : 0 < n) (hmax : options.maxProducers = some n)
    (hsize : d.size ≤ n) (now : ℚ) (id incarnation : JsString) :
    (deduplicationStateFor options d now id incarnation).2.size ≤ n := by
  rw [deduplicationStateFor]
  cases hget : d.get? id with
  | none =>
    dsimp only
    rw [size_touch, evictForNewProducer, hmax]
    exact (size_delete_le _ id).trans_lt (size_evict hn (le_refl _))
  | some existing =>
    have hdelete := d.size_delete id
    rw [hget, elim_some] at hdelete
    dsimp only
    split
    · rw [size_touch]
      omega
    · rw [size_touch]
      omega

/-! ### Every run -/

lemma handledSince_append (id : JsString) (log : List Note) (note : Note) :
    handledSince id (log ++ [note]) = afterNote id (handledSince id log) note :=
  foldl_append ..

variable {log : List Note} {c : Consumer T}

/-- Each window in the map, and the one whose handler runs, has what was handled since it was
opened; and there is room for the one whose handler runs. -/
structure Exact (options : ConsumerOptions) (log : List Note) (c : Consumer T) : Prop where
  entry : ∀ id state, c.deduplication.get? id = some state →
    Represents options (handledSince id log) state
  running : ∀ message state, c.running = some (message, state) →
    Represents options (handledSince message.producerId log) state ∧ 0 < message.seq ∧
      isDuplicate state message.seq = false ∧ hasOutOfOrderRoom options state message.seq = true
  size : ∀ n > 0, options.maxProducers = some n → c.deduplication.size ≤ n ∧
    ∀ message state, c.running = some (message, state) →
      (c.deduplication.delete message.producerId).size < n

lemma Exact.initial : Exact options [] (initial : Consumer T) where
  entry _ _ h := nomatch h
  running _ _ h := nomatch h
  size _ _ _ := ⟨zero_le _, nofun⟩

/-- A delivery is passed over where a handler runs or it is not admissible; otherwise it finds its
window. -/
lemma deliver_cases (options : ConsumerOptions) (c : Consumer T) (message : Delivery T) (now : ℚ) :
    notes c (.deliver message now) = [] ∧ step options c (.deliver message now) = c ∨
    (c.running = none ∧ isAdmissible message = true) ∧ ∃ state d,
      deduplicationStateFor options c.deduplication now message.producerId message.incarnation =
        (state, d) ∧
      (step options c (.deliver message now) = ⟨d, none⟩ ∨
        step options c (.deliver message now) = ⟨d, some (message, state)⟩ ∧ 0 < message.seq ∧
          isDuplicate state message.seq = false ∧
          hasOutOfOrderRoom options state message.seq = true) := by
  rw [step, notes]
  cases c.running with
  | some taken =>
    exact .inl ⟨rfl, rfl⟩
  | none =>
    rcases c.handleDelivery_cases options now message with
      ⟨hnot, heq⟩ | ⟨⟨hadmissible, hpos⟩, state, d, hfound, hcases⟩
    · rw [heq, hnot, if_neg fun hadmissible => Bool.false_ne_true hadmissible.2.1]
      exact .inl ⟨rfl, rfl⟩
    · refine .inr ⟨⟨rfl, hadmissible⟩, state, d, hfound, ?_⟩
      rcases hcases with ⟨-, heq⟩ | ⟨-, heq⟩ | ⟨hnew, heq⟩
      · exact .inl (congrArg Prod.fst heq)
      · exact .inl (congrArg Prod.fst heq)
      · exact .inr ⟨congrArg Prod.fst heq, hpos, hnew⟩

section

variable (h : Exact options log c)
include h

/-- What a delivery finds: the window of its producer, opened where it has to be. -/
lemma Exact.found (hidle : c.running = none) {message : Delivery T}
    (hadmissible : isAdmissible message = true) (now : ℚ) :
    (∀ id state, (deduplicationStateFor options c.deduplication now message.producerId
        message.incarnation).2.get? id = some state →
      Represents options (handledSince id (log ++ notes c (.deliver message now))) state) := by
  intro id state hget
  by_cases hid : message.producerId = id
  · subst hid
    rw [get?_deduplicationStateFor_self, some.injEq] at hget
    subst hget
    rw [deduplicationStateFor, notes, hidle]
    cases hget : c.deduplication.get? message.producerId with
    | none =>
      rw [if_pos ⟨rfl, hadmissible, (Option.some_ne_none _).symm⟩, handledSince_append,
        afterNote, if_pos rfl]
      exact .opened _ now
    | some existing =>
      by_cases hsame : existing.incarnation = message.incarnation
      · rw [if_neg fun hnot => hnot.2.2 (congrArg some hsame), append_nil]
        dsimp only
        rw [if_pos hsame]
        have hentry := h.entry _ _ hget
        exact ⟨hentry.handled, hentry.above, hentry.capped⟩
      · rw [if_pos ⟨rfl, hadmissible, fun heq => hsame (some.inj heq)⟩, handledSince_append,
          afterNote, if_pos rfl]
        dsimp only
        rw [if_neg hsame]
        exact .opened _ now
  · have hlog : handledSince id (log ++ notes c (.deliver message now)) = handledSince id log := by
      rw [notes]
      split
      · rw [handledSince_append, afterNote, if_neg hid]
      · rw [append_nil]
    rw [hlog]
    rcases get?_deduplicationStateFor_of_ne options c.deduplication now message.producerId
      message.incarnation id hid with hkept | hgone
    · exact h.entry id state (hkept ▸ hget)
    · cases hgone.symm.trans hget

lemma Exact.deliver (message : Delivery T) (now : ℚ) :
    Exact options (log ++ notes c (.deliver message now))
      (step options c (.deliver message now)) := by
  rcases deliver_cases options c message now with
    ⟨hnotes, heq⟩ | ⟨⟨hidle, hadmissible⟩, state, d, hfound, hcases⟩
  · rw [heq, hnotes, append_nil]
    exact h
  · have hentry := h.found hidle hadmissible now
    have hself := get?_deduplicationStateFor_self options c.deduplication now
      message.producerId message.incarnation
    have hsize := fun n hn hmax => size_deduplicationStateFor hn hmax (h.size n hn hmax).1 now
      message.producerId message.incarnation
    rw [hfound] at hentry hself hsize
    rcases hcases with heq | ⟨heq, hnew⟩
    · rw [heq]
      exact ⟨hentry, nofun, fun n hn hmax => ⟨hsize n hn hmax, nofun⟩⟩
    · rw [heq]
      refine ⟨hentry, fun _ _ htaken => ?_, fun n hn hmax => ⟨hsize n hn hmax, fun _ _ htaken => ?_⟩⟩
      · cases htaken
        exact ⟨hentry _ _ hself, hnew⟩
      · cases htaken
        have hdelete := d.size_delete message.producerId
        rw [hself, elim_some] at hdelete
        have := hsize n hn hmax
        dsimp only at this ⊢
        omega

/-- The number that closes the gap is taken up, however much waits above it. -/
lemma Exact.takes (hidle : c.running = none) {message : Delivery T}
    (hadmissible : isAdmissible message = true) {now : ℚ} {state : DeduplicationState}
    (hfound : deduplicationStateFor options c.deduplication now message.producerId
      message.incarnation = (state, d)) (hseq : message.seq = state.contiguous + 1) :
    (step options c (.deliver message now)).running = some (message, state) := by
  have hself := get?_deduplicationStateFor_self options c.deduplication now message.producerId
    message.incarnation
  have hwindow := h.found hidle hadmissible now
  rw [hfound] at hself hwindow
  have hnew : isDuplicate state message.seq = false := by
    rw [← Bool.not_eq_true, isDuplicate_iff, hseq, not_or]
    refine ⟨not_succ_le_self _, fun hmem => ?_⟩
    exact absurd ((hwindow _ _ hself).above _ hmem) (lt_irrefl _)
  simp [step, hidle, handleDelivery, hadmissible, hfound, hnew, hasOutOfOrderRoom, ← hseq]

lemma Exact.handlerReturned {message : Delivery T} {state : DeduplicationState}
    (hrunning : c.running = some (message, state)) (now : ℚ) :
    Exact options (log ++ [.handled message.producerId message.seq])
      (c.handlerReturned now message state).1 := by
  refine ⟨fun id window hget => ?_, nofun, fun n hn hmax => ⟨?_, nofun⟩⟩
  · rw [Consumer.handlerReturned, get?_touch] at hget
    rw [handledSince_append, afterNote]
    split_ifs at hget ⊢ with hid
    · subst hid
      cases hget
      obtain ⟨hrepresents, hpos, hnew, hroom⟩ := h.running message state hrunning
      have hmarked := hrepresents.mark hpos hnew hroom
      exact ⟨hmarked.handled, hmarked.above, hmarked.capped⟩
    · exact h.entry id window hget
  · rw [Consumer.handlerReturned]
    exact (size_touch ..).trans_le ((h.size n hn hmax).2 message state hrunning)

lemma Exact.sweep (now : ℚ) : Exact options log (c.sweepIdleProducers options now) := by
  have hsublist : (c.sweepIdleProducers options now).deduplication.entries.Sublist
      c.deduplication.entries := by
    rw [sweepIdleProducers]
    split
    · exact List.Sublist.refl _
    · exact dropWhile_sublist _
  refine ⟨fun id state hget => ?_, fun message state hrunning => ?_, fun n hn hmax => ?_⟩
  · exact h.entry id state ((get?_eq_some_iff ..).2 (hsublist.mem ((get?_eq_some_iff ..).1 hget)))
  · exact h.running message state ((sweepIdleProducers_running options now c).symm.trans hrunning)
  · obtain ⟨hsize, hroom⟩ := h.size n hn hmax
    refine ⟨hsublist.length_le.trans hsize, fun message state hrunning => ?_⟩
    exact (hsublist.filter _).length_le.trans_lt
      (hroom message state ((sweepIdleProducers_running options now c).symm.trans hrunning))

lemma Exact.step (input : Input T) :
    Exact options (log ++ notes c input) (step options c input) := by
  cases input with
  | deliver message now => exact h.deliver message now
  | handlerReturns now =>
    rw [notes, Consumer.step]
    cases hrunning : c.running with
    | none =>
      rw [append_nil]
      exact h
    | some taken => exact h.handlerReturned hrunning now
  | handlerThrows =>
    rw [notes, append_nil]
    exact ⟨h.entry, nofun, fun n hn hmax => ⟨(h.size n hn hmax).1, nofun⟩⟩
  | sweep now =>
    rw [notes, append_nil]
    exact h.sweep now

end

/-! ### The deliveries of one incarnation -/

variable {id incarnation : JsString}

/-- As long as only one incarnation delivers, its window stays, and nothing handled is lost. -/
structure Lone (id incarnation : JsString) (log : List Note) (c : Consumer T) : Prop where
  kept : ∀ seq, seq ∈ handledSince id log ↔ .handled id seq ∈ log
  opened : log = [] ∧ c.running = none ∨
    (c.deduplication.get? id).map (·.incarnation) = some incarnation
  running : ∀ message state, c.running = some (message, state) →
    message.producerId = id ∧ state.incarnation = incarnation

lemma Lone.deliver (h : Lone id incarnation log c) {message : Delivery T} (now : ℚ)
    (hid : message.producerId = id) (hincarnation : message.incarnation = incarnation) :
    Lone id incarnation (log ++ notes c (.deliver message now))
      (step options c (.deliver message now)) := by
  subst hid hincarnation
  rcases deliver_cases options c message now with ⟨hnotes, heq⟩ | ⟨-, state, d, hfound, hcases⟩
  · rw [heq, hnotes, append_nil]
    exact h
  · have hself := get?_deduplicationStateFor_self options c.deduplication now
      message.producerId message.incarnation
    have hwindow := (deduplicationStateFor_window options c.deduplication now
      message.producerId message.incarnation).1
    rw [hfound] at hself hwindow
    have hopened := (congrArg (Option.map (·.incarnation)) hself).trans (congrArg some hwindow)
    have hkept : ∀ seq, seq ∈ handledSince message.producerId
        (log ++ notes c (.deliver message now)) ↔
          .handled message.producerId seq ∈ log ++ notes c (.deliver message now) := by
      intro seq
      rw [notes]
      split_ifs with hopens
      · obtain ⟨rfl, -⟩ := h.opened.resolve_right hopens.2.2
        simp [handledSince, afterNote]
      · rw [append_nil]
        exact h.kept seq
    rcases hcases with heq | ⟨heq, -⟩
    · rw [heq]
      exact ⟨hkept, .inr hopened, fun _ _ htaken => by cases htaken⟩
    · rw [heq]
      refine ⟨hkept, .inr hopened, fun _ _ htaken => ?_⟩
      cases htaken
      exact ⟨rfl, hwindow⟩

lemma Lone.step (h : Lone id incarnation log c) {input : Input T}
    (hinput : input.Of id incarnation) :
    Lone id incarnation (log ++ notes c input) (step options c input) := by
  cases input with
  | deliver message now => exact h.deliver now hinput.1 hinput.2
  | handlerReturns now =>
    rw [notes, Consumer.step]
    cases hrunning : c.running with
    | none =>
      rw [append_nil]
      exact h
    | some taken =>
      obtain ⟨message, state⟩ := taken
      obtain ⟨rfl, hstate⟩ := h.running message state hrunning
      refine ⟨fun seq => ?_, .inr ?_, nofun⟩
      · rw [handledSince_append, afterNote, if_pos rfl, List.mem_cons, h.kept, List.mem_append,
          mem_singleton, Note.handled.injEq, or_comm]
        simp
      · dsimp only
        rw [handlerReturned, get?_touch, if_pos rfl, map_some, markDelivered_incarnation, hstate]
  | handlerThrows =>
    rw [notes, append_nil]
    exact ⟨h.kept, h.opened.imp_left fun hnone => ⟨hnone.1, rfl⟩, nofun⟩
  | sweep now => exact hinput.elim

/-- The window of a producer has its numbers that were handled since it was opened: all up to
`contiguous`, and those in `above`. While one incarnation delivers these are all that were handled.
The next number without a gap is never refused, and the map stays within its budget. -/
theorem windows_exact (options : ConsumerOptions) (inputs : List (Input T)) :
    let c := run (step options) initial inputs
    let log := Machine.log (step options) notes (initial : Consumer T) inputs
    (∀ id state, c.deduplication.get? id = some state →
      Represents options (handledSince id log) state) ∧
    (∀ id incarnation, (∀ input ∈ inputs, input.Of id incarnation) →
      ∀ seq, seq ∈ handledSince id log ↔ .handled id seq ∈ log) ∧
    (∀ message now state d, c.running = none → isAdmissible message = true →
      deduplicationStateFor options c.deduplication now message.producerId message.incarnation =
        (state, d) → message.seq = state.contiguous + 1 →
      (step options c (.deliver message now)).running = some (message, state)) ∧
    ∀ n > 0, options.maxProducers = some n → c.deduplication.size ≤ n := by
  have hexact : Exact options ([] ++ log (step options) notes initial inputs)
      (run (step options) (initial : Consumer T) inputs) :=
    invariant_log (P := fun _ _ => True) (fun _ _ input _ h => h.step input)
      along_true Exact.initial
  refine ⟨hexact.entry, fun id incarnation hof => ?_,
    fun message now state d hidle hadmissible hfound hseq => ?_,
    fun n hn hmax => (hexact.size n hn hmax).1⟩
  · have hlone : Lone id incarnation
        ([] ++ log (step options) notes (initial : Consumer T) inputs) _ :=
      invariant_log (fun _ _ _ hinput h => h.step hinput)
        (along_of_forall hof) ⟨by simp [handledSince], .inl ⟨rfl, rfl⟩, nofun⟩
    exact hlone.kept
  · exact hexact.takes hidle hadmissible hfound hseq

end ActorTs.ReliableDelivery.Consumer
