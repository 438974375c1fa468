import ActorTs.Pattern.CircuitBreaker

/-!
# Calls through a breaker

A world is a breaker with the calls that were let through and have not settled. Calls come and
settle at any time and in any order.

A half-open breaker does not serialise: every call that comes is let through, and the first
that settles with a success or with a counted failure decides. What decides was started while
the breaker was half-open, unless a call was still under way when it became so.
-/

open List Option

namespace ActorTs.Pattern

open Machine

/-- A call that was let through and has not settled. -/
structure Running (E : Type) where
  id : ℕ
  isFailure : Option (CallError E → Bool)
  /-- How many times the breaker had changed its state by then. -/
  startedIn : ℕ

structure Calls (E : Type) where
  breaker : CircuitBreaker := {}
  running : List (Running E) := []
  started : ℕ := 0
  /-- How many times the breaker has changed its state. -/
  changes : ℕ := 0
  /-- The calls that were under way when it last did. -/
  carried : List (Running E) := []

/-- What happens next. Each comes with the time it is at and a random number for the window
that may have to be chosen. -/
inductive CallEvent (E : Type) where
  /-- A call comes. Where `starts` is false its factory throws before there is a promise. -/
  | call (isFailure : Option (CallError E → Bool)) (starts : Bool) (now refusedAt random : ℚ)
  | fulfilled (id : ℕ) (now random : ℚ)
  | rejected (id : ℕ) (cause : E) (now random : ℚ)
  /-- The deadline of a call passes. What its promise comes to later is dropped. -/
  | deadline (id : ℕ) (now random : ℚ)

namespace Calls

variable {E : Type} (options : CircuitBreakerOptions E)

def find? (w : Calls E) (id : ℕ) : Option (Running E) := w.running.find? (·.id = id)

def without (w : Calls E) (id : ℕ) : Calls E :=
  { w with running := w.running.filter (·.id ≠ id) }

/-- The breaker as it is from now on. -/
def moved (w : Calls E) (b : CircuitBreaker) : Calls E :=
  if b.state = w.breaker.state then { w with breaker := b }
  else { w with breaker := b, changes := w.changes + 1, carried := w.running }

/-- The call is let through and starts. -/
def start (w : Calls E) (isFailure : Option (CallError E → Bool)) : Calls E :=
  { w with
    running := w.running ++ [⟨w.started, isFailure, w.changes⟩]
    started := w.started + 1 }

/-- The deadline that a call runs under, if any. -/
def deadlineMs : Option ℚ := options.callTimeoutMs.filter (0 < ·)

def step (w : Calls E) : CallEvent E → Calls E
  | .call isFailure starts now refusedAt random =>
    let answer := w.breaker.admitCall options now refusedAt random
    let w := w.moved answer.1
    if answer.2.isNone ∧ starts then w.start isFailure else w
  | .fulfilled id now random =>
    match w.find? id with
    | none => w
    | some _ => (w.without id).moved (w.breaker.onSuccess options now random)
  | .rejected id cause now random =>
    match w.find? id with
    | none => w
    | some c =>
      (w.without id).moved (w.breaker.onRejected options (.thrown cause) c.isFailure now random)
  | .deadline id now random =>
    match w.find? id, deadlineMs options with
    | some c, some ms =>
      (w.without id).moved
        (w.breaker.onRejected options (.timedOut ms) c.isFailure now random)
    | _, _ => w

/-- What an event says of the dependency, by which call: it is well, or it is not. -/
def verdict (w : Calls E) : CallEvent E → Option (Running E × CircuitState)
  | .call .. => none
  | .fulfilled id _ _ => (w.find? id).map (·, .closed)
  | .rejected id cause _ _ =>
    (w.find? id).bind fun c =>
      if options.countsAsFailure (.thrown cause) c.isFailure then some (c, .opened) else none
  | .deadline id _ _ =>
    (w.find? id).bind fun c => (deadlineMs options).bind fun ms =>
      if options.countsAsFailure (.timedOut ms) c.isFailure then some (c, .opened) else none

variable {options}

@[simp] lemma breaker_moved (w : Calls E) (b : CircuitBreaker) : (w.moved b).breaker = b := by
  unfold moved
  split <;> rfl

@[simp] lemma running_moved (w : Calls E) (b : CircuitBreaker) :
    (w.moved b).running = w.running := by
  unfold moved
  split <;> rfl

variable {w : Calls E}

lemma state_step_of_halfOpen (h : w.breaker.state = .halfOpen) (event : CallEvent E) :
    (w.step options event).breaker.state =
      match w.verdict options event with
      | some (_, state) => state
      | none => .halfOpen := by
  cases event with
  | call isFailure starts now refusedAt random =>
    have hcall : (w.breaker.admitCall options now refusedAt random).1.state = .halfOpen := by
      rw [CircuitBreaker.state_admitCall, h, if_neg (by simp)]
    unfold step
    dsimp only
    split <;> simpa [start, verdict] using hcall
  | fulfilled id now random =>
    simp only [step, verdict]
    cases w.find? id with
    | none => exact h
    | some c => simp [h]
  | rejected id cause now random =>
    simp only [step, verdict]
    cases w.find? id with
    | none => exact h
    | some c =>
      simp only [breaker_moved, CircuitBreaker.state_onRejected_of_halfOpen h, bind_some]
      split <;> rfl
  | deadline id now random =>
    simp only [step, verdict]
    cases w.find? id with
    | none => exact h
    | some c =>
      cases deadlineMs options with
      | none => exact h
      | some ms =>
        simp only [breaker_moved, CircuitBreaker.state_onRejected_of_halfOpen h, bind_some]
        split <;> rfl

lemma running_step_of_halfOpen (h : w.breaker.state = .halfOpen)
    (isFailure : Option (CallError E → Bool)) (now refusedAt random : ℚ) :
    (w.step options (.call isFailure true now refusedAt random)).running =
      w.running ++ [⟨w.started, isFailure, w.changes⟩] := by
  have hcall : (w.breaker.admitCall options now refusedAt random).2 = none := by
    by_contra hrefused
    have hopen := (CircuitBreaker.admit_refuses_iff.1 hrefused).1
    rw [h] at hopen
    cases hopen
  have hstate : (w.breaker.admitCall options now refusedAt random).1.state = w.breaker.state := by
    rw [CircuitBreaker.state_admitCall, h, if_neg (by simp)]
  simp [step, hcall, start, moved, hstate]

/-- A call that runs was started since the breaker last changed its state, or was under way
when it did. -/
def Dated (w : Calls E) : Prop :=
  ∀ c ∈ w.running, c.startedIn = w.changes ∨ c ∈ w.carried

lemma Dated.moved (h : w.Dated) (b : CircuitBreaker) : (w.moved b).Dated := by
  unfold Calls.moved
  split
  · exact h
  · exact fun c hc => .inr hc

lemma Dated.without (h : w.Dated) (id : ℕ) : (w.without id).Dated :=
  fun c hc => h c (mem_filter.1 hc).1

lemma Dated.start (h : w.Dated) (isFailure : Option (CallError E → Bool)) :
    (w.start isFailure).Dated := by
  intro c hc
  rcases mem_append.1 hc with hc | hc
  · exact h c hc
  · rw [mem_singleton.1 hc]
    exact .inl rfl

lemma Dated.step (h : w.Dated) (event : CallEvent E) : (w.step options event).Dated := by
  cases event with
  | call isFailure starts now refusedAt random =>
    unfold Calls.step
    dsimp only
    split
    · exact (h.moved _).start isFailure
    · exact h.moved _
  | fulfilled id now random =>
    simp only [Calls.step]
    split
    · exact h
    · exact (h.without id).moved _
  | rejected id cause now random =>
    simp only [Calls.step]
    split
    · exact h
    · exact (h.without id).moved _
  | deadline id now random =>
    simp only [Calls.step]
    split
    · exact (h.without id).moved _
    · exact h

lemma Dated.run (events : List (CallEvent E)) :
    (run (Calls.step options) ({} : Calls E) events).Dated :=
  invariant (I := Dated) (P := fun _ _ => True) (fun _ event _ h => h.step event)
    along_true (fun _ hc => absurd hc not_mem_nil)

lemma mem_running_of_verdict {event : CallEvent E} {c : Running E} {state : CircuitState}
    (h : w.verdict options event = some (c, state)) : c ∈ w.running := by
  cases event with
  | call isFailure starts now refusedAt random => cases h
  | fulfilled id now random =>
    obtain ⟨c', hc', heq⟩ := map_eq_some_iff.1 h
    rw [(Prod.mk.inj heq).1] at hc'
    exact mem_of_find?_eq_some hc'
  | rejected id cause now random =>
    obtain ⟨c', hc', heq⟩ := bind_eq_some_iff.1 h
    split at heq
    · rw [(Prod.mk.inj (some.inj heq)).1] at hc'
      exact mem_of_find?_eq_some hc'
    · cases heq
  | deadline id now random =>
    obtain ⟨c', hc', heq⟩ := bind_eq_some_iff.1 h
    obtain ⟨ms, -, heq⟩ := bind_eq_some_iff.1 heq
    split at heq
    · rw [(Prod.mk.inj (some.inj heq)).1] at hc'
      exact mem_of_find?_eq_some hc'
    · cases heq

/-- In every run, a half-open breaker lets each call through that comes, and is left on the
first verdict, a success for closed and a counted failure for open. Where no call was under way
when it became half-open, the call that decides was started since. -/
theorem half_open_decided (options : CircuitBreakerOptions E) (events : List (CallEvent E))
    (h : (run (step options) {} events).breaker.state = .halfOpen) :
    let w := run (step options) {} events
    (∀ isFailure now refusedAt random,
        (w.step options (.call isFailure true now refusedAt random)).running =
          w.running ++ [⟨w.started, isFailure, w.changes⟩]) ∧
      ∀ event, ((w.step options event).breaker.state =
          match w.verdict options event with
          | some (_, state) => state
          | none => .halfOpen) ∧
        (w.carried = [] → ∀ c state, w.verdict options event = some (c, state) →
          c.startedIn = w.changes) := by
  intro w
  refine ⟨fun isFailure now refusedAt random =>
      running_step_of_halfOpen h isFailure now refusedAt random, fun event => ⟨?_, ?_⟩⟩
  · exact state_step_of_halfOpen h event
  · intro hcarried c state hverdict
    rcases Dated.run events c (mem_running_of_verdict hverdict) with hc | hc
    · exact hc
    · rw [hcarried] at hc
      exact absurd hc not_mem_nil

/-- One failure opens, for ten milliseconds. -/
def brittle : CircuitBreakerOptions Unit where
  maxFailures := 1
  resetTimeoutMs := 10
  nameOf := fun _ => "Error"

/-- A call fails and opens the breaker while another is under way, and a third one finds the
window passed. -/
def overlapping : List (CallEvent Unit) :=
  [.call none true 0 0 0, .call none true 0 0 0, .rejected 1 () 1 0, .call none true 20 20 0]

/-- A probe that fails, with no other call under way when the breaker became half-open. -/
theorem half_open_decided_probe :
    let w := run (step brittle) {}
      [.call none true 0 0 0, .rejected 0 () 1 0, .call none true 20 20 0]
    (w.step brittle (.rejected 1 () 21 0)).breaker.state = .opened :=
  ((half_open_decided brittle [.call none true 0 0 0, .rejected 0 () 1 0, .call none true 20 20 0]
    (by decide +kernel)).2 (.rejected 1 () 21 0)).1.trans (by decide +kernel)

/-- A half-open breaker has one call of its own at a time, and only such a call decides. -/
def DecidedByProbe (options : CircuitBreakerOptions E) (w : Calls E) (event : CallEvent E) : Prop :=
  w.breaker.state = .halfOpen →
    (w.running.filter (·.startedIn = w.changes)).length ≤ 1 ∧
      ((w.step options event).breaker.state ≠ .halfOpen →
        ∃ c state, w.verdict options event = some (c, state) ∧ c.startedIn = w.changes)

/-- A second call is let through beside the probe, and the success of a call from before the
breaker opened closes it. -/
theorem not_decidedByProbe :
    ¬Machine.Along (step brittle) (DecidedByProbe brittle) {}
        (overlapping ++ [.call none true 20 20 0, .fulfilled 3 21 0]) ∧
      ¬Machine.Along (step brittle) (DecidedByProbe brittle) {}
        (overlapping ++ [.fulfilled 0 21 0]) := by
  constructor
  · intro h
    have hlast := ((Machine.Along.append.1 h).2.2.1 (by decide +kernel)).1
    exact absurd hlast (by decide +kernel)
  · intro h
    obtain ⟨c, state, hverdict, hstarted⟩ :=
      ((Machine.Along.append.1 h).2.1 (by decide +kernel)).2 (by decide +kernel)
    have hstale : ((run (step brittle) {} overlapping).verdict brittle
        (.fulfilled 0 21 0)).map (·.1.startedIn) = some 0 := by decide +kernel
    rw [hverdict, map_some, hstarted] at hstale
    exact absurd hstale (by decide +kernel)

end Calls

end ActorTs.Pattern
