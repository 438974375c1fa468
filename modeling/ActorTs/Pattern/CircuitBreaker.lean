import ActorTs.Library.Machine
import Mathlib.Algebra.Order.Field.Rat

/-!
# Circuit breakers

A breaker lets calls through while it is closed, refuses them while it is open, and lets them
through again, to probe, once its window has passed. What a call comes to is reported when the
call settles, whatever state the breaker is in by then.

Times are rational numbers of milliseconds.
-/

namespace ActorTs.Pattern

inductive CircuitState where
  | closed | opened | halfOpen
  deriving DecidableEq

/-- What a call that was let through is rejected with. -/
inductive CallError (E : Type) where
  | thrown (cause : E)
  | timedOut (ms : ℚ)

structure CircuitBreakerOpenError where
  message : String := "circuit breaker is open"
  remainingMs : ℚ := 0

structure CircuitBreakerOptions (E : Type) where
  maxFailures : ℕ
  resetTimeoutMs : ℚ
  callTimeoutMs : Option ℚ := none
  isFailure : Option (CallError E → Bool) := none
  maxResetTimeoutMs : Option ℚ := none
  backoffFactor : Option ℚ := none
  randomFactor : Option ℚ := none
  ignoredErrorNames : Option (List String) := none
  /-- The `name` of an error of the application's. -/
  nameOf : E → String

namespace CircuitBreakerOptions

variable {E : Type} (options : CircuitBreakerOptions E)

def errorName : CallError E → String
  | .thrown cause => options.nameOf cause
  | .timedOut _ => "CircuitBreakerTimeoutError"

/-- The names the operator excuses come first, then the classifier of the call, then that of
the breaker. -/
def countsAsFailure (error : CallError E) (isFailure : Option (CallError E → Bool)) : Bool :=
  if (options.ignoredErrorNames.getD []).contains (options.errorName error) then false
  else match isFailure.or options.isFailure with
    | some classify => classify error
    | none => true

end CircuitBreakerOptions

def applyJitter (base randomFactor random : ℚ) : ℚ :=
  if randomFactor = 0 then base else max 0 (base * (1 + (random * 2 - 1) * randomFactor))

structure CircuitBreaker where
  state : CircuitState := .closed
  failureCount : ℕ := 0
  nextProbeAt : ℚ := 0
  consecutiveOpens : ℕ := 0

namespace CircuitBreaker

variable {E : Type} (options : CircuitBreakerOptions E)

/-- How long an open lasts, from the number of opens since the breaker last closed. -/
def reopenDelayMs (consecutiveOpens : ℕ) (random : ℚ) : ℚ :=
  let factor := options.backoffFactor.getD 1
  let ceiling := options.maxResetTimeoutMs.getD 60000
  let randomFactor := options.randomFactor.getD 0
  let base := options.resetTimeoutMs
  let maxUsefulGrowth := if 0 < base then ceiling / base else 1
  let growth := min (factor ^ (consecutiveOpens - 1)) maxUsefulGrowth
  applyJitter (min (base * growth) ceiling) randomFactor random

def setState (b : CircuitBreaker) (next : CircuitState) (now random : ℚ) : CircuitBreaker :=
  if b.state = next then b
  else
    let b := { b with state := next, failureCount := 0 }
    match next with
    | .closed => { b with consecutiveOpens := 0 }
    | .opened =>
      { b with
        consecutiveOpens := b.consecutiveOpens + 1
        nextProbeAt := now + reopenDelayMs options (b.consecutiveOpens + 1) random }
    | .halfOpen => b

def onSuccess (b : CircuitBreaker) (now random : ℚ) : CircuitBreaker :=
  if b.state = .halfOpen then b.setState options .closed now random
  else { b with failureCount := 0 }

def onFailure (b : CircuitBreaker) (now random : ℚ) : CircuitBreaker :=
  if b.state = .halfOpen then b.setState options .opened now random
  else
    let b := { b with failureCount := b.failureCount + 1 }
    if options.maxFailures ≤ b.failureCount then b.setState options .opened now random else b

def maybeTransitionToHalfOpen (b : CircuitBreaker) (now random : ℚ) : CircuitBreaker :=
  if b.state = .opened ∧ b.nextProbeAt ≤ now then b.setState options .halfOpen now random else b

/-- The first turn of a call: the error it is refused with, at a second reading of the clock,
or nothing where it is let through. -/
def admitCall (b : CircuitBreaker) (now refusedAt random : ℚ) :
    CircuitBreaker × Option CircuitBreakerOpenError :=
  let b := b.maybeTransitionToHalfOpen options now random
  if b.state = .opened then (b, some { remainingMs := max 0 (b.nextProbeAt - refusedAt) })
  else (b, none)

/-- The last turn of a call that was rejected. -/
def onRejected (b : CircuitBreaker) (error : CallError E)
    (isFailure : Option (CallError E → Bool)) (now random : ℚ) : CircuitBreaker :=
  if options.countsAsFailure error isFailure then b.onFailure options now random else b

variable {options} {b : CircuitBreaker} {now refusedAt random : ℚ}

lemma state_setState (next : CircuitState) :
    (b.setState options next now random).state = next := by
  unfold setState
  split
  · assumption
  · cases next <;> rfl

@[simp] lemma state_onSuccess :
    (b.onSuccess options now random).state =
      if b.state = .halfOpen then .closed else b.state := by
  unfold onSuccess
  split
  · exact state_setState _
  · rfl

lemma state_onFailure :
    (b.onFailure options now random).state =
      if b.state = .halfOpen ∨ options.maxFailures ≤ b.failureCount + 1 then .opened
      else b.state := by
  unfold onFailure
  by_cases hhalf : b.state = .halfOpen
  · rw [if_pos hhalf, if_pos (.inl hhalf), state_setState]
  · rw [if_neg hhalf]
    by_cases hlimit : options.maxFailures ≤ b.failureCount + 1
    · rw [if_pos hlimit, if_pos (.inr hlimit), state_setState]
    · rw [if_neg hlimit, if_neg (not_or.2 ⟨hhalf, hlimit⟩)]

@[simp] lemma state_maybeTransitionToHalfOpen :
    (b.maybeTransitionToHalfOpen options now random).state =
      if b.state = .opened ∧ b.nextProbeAt ≤ now then .halfOpen else b.state := by
  unfold maybeTransitionToHalfOpen
  split
  · exact state_setState _
  · rfl

lemma state_admitCall :
    (b.admitCall options now refusedAt random).1.state =
      if b.state = .opened ∧ b.nextProbeAt ≤ now then .halfOpen else b.state := by
  unfold admitCall
  dsimp only
  split <;> exact state_maybeTransitionToHalfOpen

lemma admit_refuses_iff :
    (b.admitCall options now refusedAt random).2 ≠ none ↔
      b.state = .opened ∧ ¬b.nextProbeAt ≤ now := by
  unfold admitCall
  dsimp only
  rw [state_maybeTransitionToHalfOpen]
  by_cases hdue : b.state = .opened ∧ b.nextProbeAt ≤ now
  · simp [hdue]
  · rw [if_neg hdue]
    by_cases hopen : b.state = .opened
    · simp_all
    · simp [hopen]

lemma state_onRejected_of_halfOpen {error : CallError E}
    {isFailure : Option (CallError E → Bool)} (h : b.state = .halfOpen) :
    (b.onRejected options error isFailure now random).state =
      if options.countsAsFailure error isFailure then .opened else .halfOpen := by
  unfold onRejected
  split
  · rw [state_onFailure, if_pos (.inl h)]
  · exact h

end CircuitBreaker

end ActorTs.Pattern
