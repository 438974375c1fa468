import ActorTs.Library.SlidingWindow
import Mathlib.Algebra.Order.Ring.Rat

/-!
# Supervision strategies and restart budgets

A strategy says what becomes of a child that fails, and how many restarts are tolerated
within a window of time. A budget counts the restarts that were granted. It is bound to the
strategy it was made for, so strategies are told apart by the objects that carry them.
-/

namespace ActorTs.Actor

/-- What a supervisor decides about a child that failed. -/
inductive Directive where
  | resume | restart | stop | escalate
  deriving DecidableEq

inductive SupervisionScope where
  | oneForOne | allForOne
  deriving DecidableEq

/-- What a cell reports to its parent: an error of the application's, wrapped when it kept
the actor from starting, or the order of a `Kill`. -/
inductive Failure (E : Type) where
  | thrown (cause : E)
  | initialization (restart : Bool) (cause : E)
  | killed
  deriving DecidableEq

structure SupervisorStrategy (E : Type) where
  /-- The object that carries the strategy. -/
  object : ℕ
  scope : SupervisionScope := .oneForOne
  decider : Failure E → Directive
  /-- Negative where restarts are not limited. -/
  maxRetries : ℤ := -1
  withinTimeRangeMs : ℚ := 0

def defaultStrategy {E : Type} : SupervisorStrategy E where
  object := 0
  decider := fun _ => .restart
  maxRetries := 10
  withinTimeRangeMs := 60000

structure RestartBudget where
  maxRetries : ℤ
  withinTimeRangeMs : ℚ
  failureTimes : List ℚ := []

namespace RestartBudget

/-- A budget for a strategy, with nothing recorded. -/
def ofStrategy {E : Type} (strategy : SupervisorStrategy E) : RestartBudget :=
  ⟨strategy.maxRetries, strategy.withinTimeRangeMs, []⟩

/-- The restarts that count at a time. -/
def counted (b : RestartBudget) (now : ℚ) : List ℚ :=
  if 0 < b.withinTimeRangeMs then SlidingWindow.recent b.withinTimeRangeMs now b.failureTimes
  else b.failureTimes

/-- Ask for one restart. One that is granted is recorded. -/
def registerRestart (b : RestartBudget) (now : ℚ) : Bool × RestartBudget :=
  if b.maxRetries < 0 then (true, b)
  else
    let b := { b with failureTimes := b.counted now }
    if b.maxRetries ≤ b.failureTimes.length then (false, b)
    else (true, { b with failureTimes := b.failureTimes ++ [now] })

lemma registerRestart_spec {b : RestartBudget} {m : ℕ} {w now : ℚ} {past : List ℚ}
    (hm : b.maxRetries = m) (hw : b.withinTimeRangeMs = w) (hpos : 0 < w)
    (hpast : SlidingWindow.recent w now b.failureTimes = SlidingWindow.recent w now past) :
    let answer := b.registerRestart now
    answer.1 = decide ((SlidingWindow.recent w now past).length < m) ∧
      answer.2.maxRetries = m ∧ answer.2.withinTimeRangeMs = w ∧
      answer.2.failureTimes =
        SlidingWindow.recent w now past ++ if answer.1 then [now] else [] := by
  subst hw
  have hcounted : b.counted now = SlidingWindow.recent b.withinTimeRangeMs now past := by
    rw [counted, if_pos hpos, hpast]
  have hnonneg : ¬b.maxRetries < 0 := by omega
  unfold registerRestart
  rw [if_neg hnonneg, hcounted]
  by_cases hroom : (SlidingWindow.recent b.withinTimeRangeMs now past).length < m
  · have hlimit : ¬b.maxRetries ≤ (SlidingWindow.recent b.withinTimeRangeMs now past).length := by
      omega
    rw [if_neg hlimit]
    simp [hroom, hm]
  · have hlimit : b.maxRetries ≤ (SlidingWindow.recent b.withinTimeRangeMs now past).length := by
      omega
    rw [if_pos hlimit]
    simp [hroom, hm]

end RestartBudget

end ActorTs.Actor
