import ActorTs.Mailbox.MailboxAccounts

/-!
# A throttle that pauses

An actor with a throttle takes a message out of its mailbox and, where its bucket has no token, puts
it back at the head and waits. That leaves the mailbox as it was, so that the actor is handed what
it would be handed without a throttle.

This is so where the message goes back to where it was: its class is below the bound, and the
predicate of a control-aware mailbox answers by the message alone.
-/

open List Option Nat

namespace ActorTs.Actor

open ActorTs.Mailbox Machine ControlAwareMailbox UserMailbox

variable {T : Type}

/-- A call of the mailbox, or a turn of the actor, whose bucket has a token or not. -/
inductive Turn (T : Type) where
  | call (call : UserMailbox.Call T)
  | turn (token : Bool)

/-- What a turn takes out of the mailbox, if it has no token for it. A notification of the
framework needs none. -/
def excess (m : UserMailbox T) : Turn T → Option (Envelope T)
  | .turn false => m.dequeueUser.1.filter Envelope.droppable
  | _ => none

/-- Without a throttle every turn hands over a message, if there is one. -/
def plainTurn (m : UserMailbox T) : Turn T → UserMailbox T
  | .call call => m.call call
  | .turn _ => m.dequeueUser.2

def plainHanded (m : UserMailbox T) : Turn T → List (Envelope T)
  | .call _ => []
  | .turn _ => m.dequeueUser.1.toList

/-- `handleThrottleExcess`: the message goes back, or what throws is reported. -/
def repark (m : UserMailbox T) (envelope : Envelope T) :
    Option MailboxFullError × UserMailbox T :=
  m.dequeueUser.2.prependUser [envelope]

/-- With a throttle a message without a token is put back. -/
def throttledTurn (m : UserMailbox T) (turn : Turn T) : UserMailbox T :=
  match excess m turn with
  | some envelope => (repark m envelope).2
  | none => plainTurn m turn

def throttledHanded (m : UserMailbox T) (turn : Turn T) : List (Envelope T) :=
  match excess m turn with
  | some _ => []
  | none => plainHanded m turn

/-- The turns that an actor without a throttle takes as well. -/
def served (m : UserMailbox T) (turn : Turn T) : List (Turn T) :=
  match excess m turn with
  | some _ => []
  | none => [turn]

/-! ### Back at the head -/

/-- The message at the head belongs to no bounded class, or its class is within the bound. A
priority mailbox has no head to put it back to. -/
def HasRoom : UserMailbox T → Prop
  | .base _ => True
  | .bounded m => m.userQueue.length ≤ m.capacity
  | .priority _ => False
  | .controlAware m => m.controlQueue = [] → ∀ capacity, m.capacity = some capacity →
      m.userQueue.length ≤ capacity

/-- The predicate answers by the message alone, and both queues hold what it says. -/
structure ClassedQueues (m : ControlAwareMailbox T) : Prop where
  answer : ∀ i j message, m.isControl i message = m.isControl j message
  control : ∀ envelope ∈ m.controlQueue, m.isControl 0 envelope.message = .isTrue
  ordinary : ∀ envelope ∈ m.userQueue, m.isControl 0 envelope.message ≠ .isTrue

def Classed : UserMailbox T → Prop
  | .controlAware m => ClassedQueues m
  | _ => True

/-- The mailbox but for how often its predicate was asked. -/
def unasked : UserMailbox T → UserMailbox T
  | .controlAware m => .controlAware { m with asked := 0 }
  | m => m

lemma admitReplay_head {capacity : ℕ} (overflow : BoundedMailboxOverflow)
    {queue : List (Envelope T)} (envelope : Envelope T) (h : queue.length < capacity) :
    admitReplay capacity overflow queue [envelope] =
      .ok { admitted := [envelope], queue := queue } := by
  have hone := countP_droppable_singleton_le envelope
  unfold admitReplay
  split
  · rw [if_neg (by omega)]
  · have hroom : envelope.undroppable = true ∨ queue.length + 0 < capacity := .inr h
    exact congrArg Except.ok (if_pos hroom)

lemma admitReplay_nil (capacity : ℕ) (overflow : BoundedMailboxOverflow)
    (queue : List (Envelope T)) :
    admitReplay capacity overflow queue [] = .ok { admitted := [], queue := queue } := by
  unfold admitReplay
  split
  · exact if_neg (not_lt_zero _)
  · rfl

variable {envelope : Envelope T} {a : Admission T}

lemma dequeueUser_base {m : BaseMailbox T} (h : m.dequeueUser.1 = some envelope) :
    ∃ rest, m.userQueue = envelope :: rest ∧ m.dequeueUser.2 = { m with userQueue := rest } := by
  unfold BaseMailbox.dequeueUser at h ⊢
  split at h
  · cases h
  · next hresumed =>
    obtain ⟨rest, hqueue⟩ := head?_eq_some_iff.1 h
    refine ⟨rest, hqueue, ?_⟩
    rw [if_neg hresumed, hqueue]
    rfl

lemma prependUser_singleton {m : ControlAwareMailbox T} {asked : ℕ}
    (hanswer : ∀ i j message, m.isControl i message = m.isControl j message) :
    (m.isControl asked envelope.message = .isTrue →
      m.prependUser [envelope] =
        (none, { m with asked := m.asked + 1, controlQueue := envelope :: m.controlQueue })) ∧
    (m.isControl asked envelope.message ≠ .isTrue →
      (∀ capacity, m.capacity = some capacity → m.userQueue.length < capacity) →
      m.prependUser [envelope] =
        (none, { m with asked := m.asked + 1, userQueue := envelope :: m.userQueue })) := by
  constructor
  · intro hcontrol
    rw [hanswer asked m.asked] at hcontrol
    have hclass : m.classify [envelope] = ([envelope], [], { m with asked := m.asked + 1 }) := by
      simp [classify, classesAsControl, hcontrol]
    unfold ControlAwareMailbox.prependUser admitOrdinaryReplay
    rw [hclass]
    cases m.capacity with
    | none => rfl
    | some capacity =>
      dsimp only
      rw [admitReplay_nil]
      rfl
  · intro hordinary hroom
    rw [hanswer asked m.asked] at hordinary
    have hclass : m.classify [envelope] = ([], [envelope], { m with asked := m.asked + 1 }) := by
      simp [classify, classesAsControl, hordinary]
    unfold ControlAwareMailbox.prependUser admitOrdinaryReplay
    rw [hclass]
    cases hcapacity : m.capacity with
    | none => rfl
    | some capacity =>
      dsimp only
      rw [admitReplay_head m.overflow envelope (hroom capacity hcapacity)]
      rfl

lemma repark_spec {m : UserMailbox T} (hclassed : Classed m) (hroom : HasRoom m)
    (hhead : m.dequeueUser.1 = some envelope) :
    (repark m envelope).1 = none ∧ unasked (repark m envelope).2 = unasked m := by
  cases m with
  | base m =>
    obtain ⟨rest, hqueue, hleft⟩ := dequeueUser_base hhead
    refine ⟨rfl, ?_⟩
    change base (m.dequeueUser.2.prependUser [envelope]) = .base m
    rw [hleft, BaseMailbox.prependUser]
    cases m
    obtain rfl := hqueue
    rfl
  | bounded m =>
    obtain ⟨rest, hqueue, hleft⟩ := dequeueUser_base hhead
    have hlength : rest.length < (m.capacity : ℕ) := by
      have hroom : m.userQueue.length ≤ m.capacity := hroom
      rw [hqueue, length_cons] at hroom
      exact hroom
    have hback : repark (.bounded m) envelope =
        (none, .bounded { m with userQueue := envelope :: rest }) := by
      unfold repark UserMailbox.dequeueUser UserMailbox.prependUser BoundedMailbox.prependUser
      dsimp only
      rw [hleft]
      rw [admitReplay_head m.overflow envelope hlength]
      rfl
    rw [hback, ← hqueue]
    exact ⟨rfl, rfl⟩
  | priority m => exact hroom.elim
  | controlAware m =>
    obtain ⟨hanswer, hcontrol, hordinary⟩ := hclassed
    have hhead : m.dequeueUser.1 = some envelope := hhead
    have hback : ∀ left : ControlAwareMailbox T, m.dequeueUser.2 = left →
        left.prependUser [envelope] = (none, { m with asked := left.asked + 1 }) →
        (repark (.controlAware m) envelope).1 = none ∧
          unasked (repark (.controlAware m) envelope).2 = unasked (.controlAware m) := by
      rintro left rfl hprepended
      unfold repark UserMailbox.dequeueUser UserMailbox.prependUser
      dsimp only
      rw [hprepended]
      exact ⟨rfl, rfl⟩
    unfold ControlAwareMailbox.dequeueUser at hhead hback
    split at hhead
    · cases hhead
    · next hresumed =>
      rw [if_neg hresumed] at hback
      cases hqueue : m.controlQueue with
      | cons first rest =>
        rw [hqueue] at hhead
        obtain rfl : first = envelope := some.inj hhead
        refine hback { m with controlQueue := rest } (by rw [hqueue]) ?_
        have hclass := hcontrol first (by rw [hqueue]; exact mem_cons_self)
        rw [(prependUser_singleton (m := { m with controlQueue := rest }) hanswer).1 hclass]
        rw [← hqueue]
      | nil =>
        rw [hqueue] at hhead
        obtain ⟨rest, hrest⟩ := head?_eq_some_iff.1 hhead
        refine hback { m with userQueue := rest } (by rw [hqueue, hrest]; rfl) ?_
        have hclass := hordinary envelope (by rw [hrest]; exact mem_cons_self)
        rw [(prependUser_singleton (m := { m with userQueue := rest }) hanswer).2 hclass
          fun capacity hcapacity => ?_]
        · dsimp only
          rw [← hrest]
        · have hlength := hroom hqueue capacity hcapacity
          rw [hrest, length_cons] at hlength
          exact hlength

/-! ### The classes stay -/

lemma mem_of_admits {capacity : ℕ} {queue envelopes exposed : List (Envelope T)}
    (h : Admits capacity queue envelopes exposed a) (hmem : envelope ∈ a.admitted ++ a.queue) :
    envelope ∈ queue ∨ envelope ∈ envelopes := by
  have hall : envelope ∈ (a.admitted + a.queue + a.drops.map Prod.snd : Multiset (Envelope T)) := by
    rw [Multiset.mem_add, Multiset.coe_add]
    exact .inl hmem
  rw [h.accounts, Multiset.mem_add] at hall
  exact hall

namespace ClassedQueues

variable {m : ControlAwareMailbox T}

lemma settle (h : ClassedQueues m) (asked : ℕ) {control ordinary : List (Envelope T)}
    (hqueue : ∀ envelope ∈ a.admitted ++ a.queue, envelope ∈ m.userQueue ∨ envelope ∈ ordinary)
    (hcontrol : ∀ envelope ∈ control, m.isControl 0 envelope.message = .isTrue)
    (hordinary : ∀ envelope ∈ ordinary, m.isControl 0 envelope.message ≠ .isTrue) :
    ClassedQueues
      ({ m with asked := asked, controlQueue := control ++ m.controlQueue }.settle a) := by
  rw [ControlAwareMailbox.settle, DroppingMailbox.reportDrops_spec]
  refine ⟨h.answer, fun envelope hmem => ?_, fun envelope hmem => ?_⟩
  · exact (mem_append.1 hmem).elim (hcontrol envelope) (h.control envelope)
  · exact (hqueue envelope hmem).elim (h.ordinary envelope) (hordinary envelope)

lemma push_control (h : ClassedQueues m) (asked : ℕ) {envelope : Envelope T}
    (hcontrol : m.isControl 0 envelope.message = .isTrue) :
    ClassedQueues { m with asked := asked, controlQueue := m.controlQueue ++ [envelope] } := by
  refine ⟨h.answer, fun other hmem => ?_, h.ordinary⟩
  rcases mem_append.1 hmem with hmem | hmem
  · exact h.control other hmem
  · rw [mem_singleton.1 hmem]
    exact hcontrol

lemma push_ordinary (h : ClassedQueues m) (asked : ℕ) {envelope : Envelope T}
    (hordinary : m.isControl 0 envelope.message ≠ .isTrue) :
    ClassedQueues { m with asked := asked, userQueue := m.userQueue ++ [envelope] } := by
  refine ⟨h.answer, h.control, fun other hmem => ?_⟩
  rcases mem_append.1 hmem with hmem | hmem
  · exact h.ordinary other hmem
  · rw [mem_singleton.1 hmem]
    exact hordinary

lemma enqueue (h : ClassedQueues m) (envelope : Envelope T) :
    ClassedQueues (m.enqueue envelope).2 := by
  unfold ControlAwareMailbox.enqueue ControlAwareMailbox.classesAsControl
  rw [h.answer m.asked 0]
  by_cases hclass : m.isControl 0 envelope.message = .isTrue
  · rw [decide_eq_true hclass]
    exact h.push_control _ hclass
  · rw [decide_eq_false hclass]
    dsimp only
    split
    · next capacity hcapacity =>
      split
      · next a ha =>
        have hnone : ∀ other ∈ ([] : List (Envelope T)), m.isControl 0 other.message = .isTrue :=
          fun other hmem => absurd hmem not_mem_nil
        refine h.settle (m.asked + 1)
          (fun other => mem_of_admits (admitArrival_spec capacity.pos ha)) hnone
          fun other hmem => ?_
        rw [mem_singleton.1 hmem]
        exact hclass
      · exact ⟨h.answer, h.control, h.ordinary⟩
    · exact h.push_ordinary _ hclass

lemma enqueueSignal (h : ClassedQueues m) (envelope : Envelope T) :
    ClassedQueues (m.enqueueSignal envelope) := by
  unfold ControlAwareMailbox.enqueueSignal ControlAwareMailbox.classesAsControl
  rw [h.answer m.asked 0]
  by_cases hclass : m.isControl 0 envelope.message = .isTrue
  · rw [decide_eq_true hclass]
    exact h.push_control _ hclass
  · rw [decide_eq_false hclass]
    exact h.push_ordinary _ hclass

lemma classify (hanswer : ∀ i j message, m.isControl i message = m.isControl j message)
    (envelopes : List (Envelope T)) :
    m.classify envelopes =
      (envelopes.filter fun envelope => m.isControl 0 envelope.message = .isTrue,
        envelopes.filter fun envelope => ¬ m.isControl 0 envelope.message = .isTrue,
        { m with asked := m.asked + envelopes.length }) := by
  induction envelopes generalizing m with
  | nil => rfl
  | cons envelope envelopes ih =>
    unfold classify classesAsControl
    rw [hanswer m.asked 0]
    by_cases hclass : m.isControl 0 envelope.message = .isTrue
    · rw [decide_eq_true hclass]
      dsimp only
      rw [ih (m := { m with asked := m.asked + 1 }) hanswer]
      simp [hclass, add_assoc, add_comm 1]
    · rw [decide_eq_false hclass]
      dsimp only
      rw [ih (m := { m with asked := m.asked + 1 }) hanswer]
      simp [hclass, add_assoc, add_comm 1]

lemma prependUser (h : ClassedQueues m) (envelopes : List (Envelope T)) :
    ClassedQueues (m.prependUser envelopes).2 := by
  have hcontrol : ∀ envelope ∈ envelopes.filter
      (fun envelope => m.isControl 0 envelope.message = .isTrue),
      m.isControl 0 envelope.message = .isTrue := fun envelope hmem => by
    simpa using (mem_filter.1 hmem).2
  have hordinary : ∀ envelope ∈ envelopes.filter
      (fun envelope => ¬ m.isControl 0 envelope.message = .isTrue),
      m.isControl 0 envelope.message ≠ .isTrue := fun envelope hmem => by
    simpa using (mem_filter.1 hmem).2
  unfold ControlAwareMailbox.prependUser
  rw [classify h.answer]
  dsimp only
  split
  · next a ha =>
    unfold admitOrdinaryReplay at ha
    split at ha
    · exact h.settle _ (fun other => mem_of_admits (admitReplay_spec ha)) hcontrol hordinary
    · obtain rfl := Except.ok.inj ha
      exact h.settle _ (fun other hmem => (mem_append.1 hmem).symm) hcontrol hordinary
  · exact ⟨h.answer, h.control, h.ordinary⟩

lemma dequeueUser (h : ClassedQueues m) : ClassedQueues m.dequeueUser.2 := by
  unfold ControlAwareMailbox.dequeueUser
  split
  · exact h
  · split
    · next first rest hqueue =>
      exact ⟨h.answer, fun other hmem => h.control other
        (by rw [hqueue]; exact mem_cons_of_mem first hmem), h.ordinary⟩
    · exact ⟨h.answer, h.control, fun other hmem => h.ordinary other (mem_of_mem_tail hmem)⟩

end ClassedQueues

variable {m : UserMailbox T}

lemma Classed.call (h : Classed m) (call : Call T) : Classed (m.call call) := by
  cases m with
  | base m => cases call <;> trivial
  | bounded m => cases call <;> trivial
  | priority m => cases call <;> trivial
  | controlAware m =>
    cases call with
    | enqueue envelope => exact ClassedQueues.enqueue h envelope
    | enqueueSignal envelope => exact ClassedQueues.enqueueSignal h envelope
    | prependUser envelopes => exact ClassedQueues.prependUser h envelopes
    | dequeueUser => exact ClassedQueues.dequeueUser h
    | suspend => exact ⟨h.answer, h.control, h.ordinary⟩
    | resume => exact ⟨h.answer, h.control, h.ordinary⟩
    | drainUser =>
      exact ⟨h.answer, fun _ hmem => absurd hmem not_mem_nil, fun _ hmem => absurd hmem not_mem_nil⟩

/-! ### How often the predicate was asked does not matter -/

lemma unasked_call_controlAware {m : ControlAwareMailbox T}
    (hanswer : ∀ i j message, m.isControl i message = m.isControl j message) (asked : ℕ)
    (call : Call T) :
    unasked ((controlAware { m with asked := asked }).call call) =
      unasked ((controlAware m).call call) := by
  cases call with
  | enqueue envelope =>
    unfold UserMailbox.call UserMailbox.enqueue ControlAwareMailbox.enqueue classesAsControl
    dsimp only
    rw [hanswer asked m.asked]
    by_cases hclass : m.isControl m.asked envelope.message = .isTrue
    · rw [decide_eq_true hclass]
      rfl
    · rw [decide_eq_false hclass]
      cases m.capacity with
      | none => rfl
      | some capacity =>
        dsimp only
        cases admitArrival capacity m.overflow m.userQueue envelope <;> rfl
  | enqueueSignal envelope =>
    unfold UserMailbox.call UserMailbox.enqueueSignal ControlAwareMailbox.enqueueSignal
      classesAsControl
    dsimp only
    rw [hanswer asked m.asked]
    by_cases hclass : m.isControl m.asked envelope.message = .isTrue
    · rw [decide_eq_true hclass]
      rfl
    · rw [decide_eq_false hclass]
      rfl
  | prependUser envelopes =>
    unfold UserMailbox.call UserMailbox.prependUser ControlAwareMailbox.prependUser
    dsimp only
    rw [ClassedQueues.classify hanswer,
      ClassedQueues.classify (m := { m with asked := asked }) hanswer]
    unfold admitOrdinaryReplay
    cases m.capacity with
    | none => rfl
    | some capacity =>
      dsimp only
      cases admitReplay capacity m.overflow m.userQueue
        (envelopes.filter fun envelope => ¬ m.isControl 0 envelope.message = .isTrue) <;> rfl
  | dequeueUser =>
    unfold UserMailbox.call UserMailbox.dequeueUser ControlAwareMailbox.dequeueUser
    dsimp only
    split
    · rfl
    · cases m.controlQueue <;> rfl
  | suspend => rfl
  | resume => rfl
  | drainUser => rfl

lemma dequeueUser_asked (m : ControlAwareMailbox T) (asked : ℕ) :
    (controlAware { m with asked := asked }).dequeueUser.1 = (controlAware m).dequeueUser.1 := by
  unfold UserMailbox.dequeueUser ControlAwareMailbox.dequeueUser
  dsimp only
  split
  · rfl
  · cases m.controlQueue <;> rfl

/-- Two mailboxes that differ in how often the predicate was asked at most. -/
structure Alike (m m' : UserMailbox T) : Prop where
  unasked : unasked m = unasked m'
  classed : Classed m

variable {m' : UserMailbox T}

lemma Alike.cases (h : Alike m m') :
    m' = m ∨ ∃ (c : ControlAwareMailbox T) (asked : ℕ), m = .controlAware c ∧
      m' = .controlAware { c with asked := asked } ∧ ClassedQueues c := by
  obtain ⟨hsame, hclassed⟩ := h
  cases m with
  | base m => cases m' <;> first | exact .inl hsame.symm | cases hsame
  | bounded m => cases m' <;> first | exact .inl hsame.symm | cases hsame
  | priority m => cases m' <;> first | exact .inl hsame.symm | cases hsame
  | controlAware c =>
    cases m' with
    | controlAware c' =>
      refine .inr ⟨c, c'.asked, rfl, ?_, hclassed⟩
      have hfields : ({ c with asked := 0 } : ControlAwareMailbox T) =
          { c' with asked := 0 } := controlAware.inj hsame
      have hback : ({ c with asked := c'.asked } : ControlAwareMailbox T) = c' :=
        congrArg (fun d : ControlAwareMailbox T => { d with asked := c'.asked }) hfields
      rw [hback]
    | base m' => cases hsame
    | bounded m' => cases hsame
    | priority m' => cases hsame

lemma Alike.call (h : Alike m m') (call : Call T) :
    Alike (m.call call) (m'.call call) := by
  refine ⟨?_, h.classed.call call⟩
  rcases h.cases with rfl | ⟨c, asked, rfl, rfl, hclassed⟩
  · rfl
  · exact (unasked_call_controlAware hclassed.answer asked call).symm

lemma Alike.dequeueUser (h : Alike m m') : m.dequeueUser.1 = m'.dequeueUser.1 := by
  rcases h.cases with rfl | ⟨c, asked, rfl, rfl, -⟩
  · rfl
  · exact (dequeueUser_asked c asked).symm

/-! ### Runs -/

/-- A message is put back only where it goes back to where it was. -/
def ParksInRoom (m : UserMailbox T) (turn : Turn T) : Prop :=
  (excess m turn).isSome → HasRoom m

lemma dequeueUser_of_excess {turn : Turn T} {envelope : Envelope T}
    (h : excess m turn = some envelope) : m.dequeueUser.1 = some envelope := by
  cases turn with
  | call call => cases h
  | turn token =>
    cases token with
    | true => cases h
    | false => exact (filter_eq_some_iff.1 h).1

lemma Alike.turn (h : Alike m m') {turn : Turn T} (hroom : ParksInRoom m turn) :
    Alike (throttledTurn m turn) (run plainTurn m' (served m turn)) ∧
      throttledHanded m turn = log plainTurn plainHanded m' (served m turn) := by
  unfold throttledTurn throttledHanded served
  cases hexcess : excess m turn with
  | some envelope =>
    obtain ⟨-, hback⟩ := repark_spec h.classed (hroom (by rw [hexcess]; rfl))
      (dequeueUser_of_excess hexcess)
    have hclassed := (h.classed.call .dequeueUser).call (.prependUser [envelope])
    exact ⟨⟨hback.trans h.unasked, hclassed⟩, rfl⟩
  | none =>
    cases turn with
    | call call => exact ⟨h.call call, rfl⟩
    | turn token =>
      refine ⟨h.call .dequeueUser, ?_⟩
      change m.dequeueUser.1.toList = m'.dequeueUser.1.toList ++ []
      rw [h.dequeueUser, append_nil]

lemma Alike.run (h : Alike m m') {turns : List (Turn T)}
    (hroom : Machine.Along throttledTurn ParksInRoom m turns) :
    Alike (run throttledTurn m turns) (run plainTurn m' (log throttledTurn served m turns)) ∧
      log throttledTurn throttledHanded m turns =
        log plainTurn plainHanded m' (log throttledTurn served m turns) :=
  simulate (R := Alike) (P := ParksInRoom) (fun _ _ _ hroom h => h.turn hroom) hroom h

/-- The predicate of a control-aware mailbox answers by the message alone. -/
def AnswersByMessage : MailboxOptions T → Prop
  | .controlAware isControl _ _ => ∀ i j message, isControl i message = isControl j message
  | _ => True

lemma classed_mailbox {options : MailboxOptions T} (h : AnswersByMessage options) :
    Classed options.mailbox := by
  cases options with
  | base => trivial
  | bounded capacity overflow => trivial
  | priority priorityFor capacity overflow => trivial
  | controlAware isControl capacity overflow =>
    exact ⟨h, fun _ hmem => absurd hmem not_mem_nil, fun _ hmem => absurd hmem not_mem_nil⟩

lemma held_of_unasked (h : unasked m = unasked m') :
    m.held = m'.held ∧ m.dropReports = m'.dropReports := by
  have hheld : ∀ m : UserMailbox T, (unasked m).held = m.held ∧
      (unasked m).dropReports = m.dropReports := fun m => (by cases m <;> exact ⟨rfl, rfl⟩)
  rw [← (hheld m).1, ← (hheld m').1, ← (hheld m).2, ← (hheld m').2, h]
  exact ⟨rfl, rfl⟩

/-- A message without a token, put back before another one arrives. -/
def parkedOnce : List (Turn Unit) :=
  [.call (.enqueue ⟨1, (), false⟩), .turn false, .call (.enqueue ⟨2, (), false⟩), .turn true]

/-- A notification stands behind a message in a mailbox with room for one, and a bucket has
no token for the message. -/
def overCeiling : List (Turn Unit) :=
  [.call (.enqueue ⟨1, (), false⟩), .call (.enqueueSignal ⟨2, (), true⟩), .turn false, .turn true]

end ActorTs.Actor
