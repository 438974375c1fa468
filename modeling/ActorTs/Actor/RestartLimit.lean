import ActorTs.Actor.ActorCell

/-!
# The restart limit

A cell restarts the children that fail while its budget lasts. The budget forgets what is
older than the window of the strategy, so a budget that is kept bounds the restarts within
every stretch of that length. It is kept only as long as the failures are answered by one
strategy object: an equal strategy in another object starts a new count.
-/

open List Option

namespace ActorTs.Actor

open Machine SlidingWindow Cell

namespace SystemCommand

variable {E : Type}

def isRecreate : SystemCommand E → Bool
  | .recreate _ => true
  | _ => false

end SystemCommand

namespace Effect

variable {E : Type}

/-- A child is told to restart. -/
def isRecreate : Effect E → Bool
  | .tellChild _ command => command.isRecreate
  | _ => false

end Effect

namespace Cell

variable {E : Type} {config : CellConfig} {conduct : Conduct E}

/-- The budget is as it was, and no child was told to restart. -/
structure Quiet (c d : Cell E) : Prop where
  budget : d.restartBudget = c.restartBudget
  effects : ∃ new, d.effects = c.effects ++ new ∧ ∀ e ∈ new, Effect.isRecreate e = false

namespace Quiet

variable {c d : Cell E} {command : SystemCommand E} {e : Cell E}

lemma of_effects_eq (hbudget : d.restartBudget = c.restartBudget)
    (heffects : d.effects = c.effects) : Quiet c d :=
  ⟨hbudget, [], by simp [heffects], by simp⟩

lemma refl (c : Cell E) : Quiet c c := of_effects_eq rfl rfl

section

variable (h : Quiet c d)
include h

lemma trans (h' : Quiet d e) : Quiet c e := by
  obtain ⟨new, hnew, hquiet⟩ := h.effects
  obtain ⟨more, hmore, hquiet'⟩ := h'.effects
  refine ⟨h'.budget.trans h.budget, new ++ more, by rw [hmore, hnew, append_assoc], ?_⟩
  exact fun x hx => (mem_append.1 hx).elim (hquiet x) (hquiet' x)

lemma changed (hbudget : e.restartBudget = d.restartBudget)
    (heffects : e.effects = d.effects) : Quiet c e :=
  h.trans (of_effects_eq hbudget heffects)

lemma setState (state : CellState) : Quiet c (d.setState state) :=
  h.changed rfl rfl

lemma resumeMailbox : Quiet c d.resumeMailbox := h.changed rfl rfl

lemma suspendSelf : Quiet c d.suspendSelf := by
  unfold Cell.suspendSelf
  dsimp only
  split <;> exact h.changed rfl rfl

lemma emit {x : Effect E} (hx : x.isRecreate = false) : Quiet c (d.emit x) :=
  h.trans ⟨rfl, [x], rfl, by simpa using hx⟩

lemma tellAll (children : List ActorName) (hcommand : command.isRecreate = false) :
    Quiet c (d.tellAll children command) := by
  refine h.trans ⟨rfl, _, rfl, fun x hx => ?_⟩
  obtain ⟨name, -, rfl⟩ := mem_map.1 hx
  exact hcommand

lemma tellChildren (hcommand : command.isRecreate = false) : Quiet c (d.tellChildren command) :=
  h.tellAll _ hcommand

lemma createChild (name : ActorName) (blueprint : Blueprint E) :
    Quiet c (d.createChild name blueprint) := by
  unfold Cell.createChild
  split
  · exact h
  · split
    · exact h
    · exact emit (changed h (by rfl) (by rfl)) (by rfl)

lemma perform (hook : Hook E) : Quiet c (d.perform hook) := by
  unfold Cell.perform
  induction hook.spawns generalizing d with
  | nil => exact h
  | cons spawn spawns ih => exact ih (h.createChild spawn.1 spawn.2)

lemma failToParent (cause : Failure E) : Quiet c (d.failToParent config cause) := by
  unfold Cell.failToParent
  split <;> exact emit (h.suspendSelf.tellChildren (by rfl)) (by rfl)

lemma onSuspend : Quiet c d.onSuspend := h.suspendSelf.tellChildren rfl

lemma onResume : Quiet c d.onResume := by
  unfold Cell.onResume
  dsimp only
  split
  · exact (h.resumeMailbox.setState _).tellChildren (by rfl)
  · exact h.resumeMailbox.tellChildren (by rfl)

lemma onCreate : Quiet c (d.onCreate config conduct) := by
  unfold Cell.onCreate
  split
  · exact h.failToParent _
  · dsimp only
    split
    · exact failToParent (perform (changed h (by rfl) (by rfl)) _) _
    · exact emit (perform (changed h (by rfl) (by rfl)) _) (by rfl)

lemma finalizeTermination : Quiet c (d.finalizeTermination config) := by
  unfold Cell.finalizeTermination
  split <;> exact emit (emit (changed h (by rfl) (by rfl)) (by rfl)) (by rfl)

lemma terminateFrom (order : List ActorName) : Quiet c (d.terminateFrom config order) := by
  induction order generalizing d with
  | nil =>
    unfold terminateFrom
    dsimp only
    split
    · exact (h.tellChildren (by rfl)).finalizeTermination
    · exact h.tellChildren (by rfl)
  | cons name order ih =>
    unfold terminateFrom
    dsimp only
    split
    · exact emit (changed h (by rfl) (by rfl)) (by rfl)
    · exact ih (changed h (by rfl) (by rfl))

lemma onTerminate : Quiet c (d.onTerminate config) := by
  unfold Cell.onTerminate
  split
  · exact h
  · dsimp only
    split
    · exact terminateFrom (changed h (by rfl) (by rfl)) _
    · split
      · exact finalizeTermination (tellChildren (changed h (by rfl) (by rfl)) (by rfl))
      · exact tellChildren (changed h (by rfl) (by rfl)) (by rfl)

lemma completeRecreate : Quiet c (d.completeRecreate config conduct) := by
  unfold Cell.completeRecreate
  split
  · exact h.failToParent _
  · dsimp only
    split
    · exact failToParent (perform (changed h (by rfl) (by rfl)) _) _
    · exact emit (setState (tellChildren (resumeMailbox (perform (changed h (by rfl) (by rfl)) _)) (by rfl)) _) (by rfl)

lemma onRecreate (cause : Failure E) : Quiet c (d.onRecreate config conduct cause) := by
  unfold Cell.onRecreate
  split
  · exact h
  · dsimp only
    split
    · exact tellChildren (changed (perform h _) (by rfl) (by rfl)) (by rfl)
    · exact (h.perform _).completeRecreate

lemma continueTermination : Quiet c (d.continueTermination config) := by
  unfold Cell.continueTermination
  split
  · exact h
  · split
    · exact h.terminateFrom _
    · split
      · exact h.finalizeTermination
      · exact h

lemma onChildTerminated (name : ActorName) :
    Quiet c (d.onChildTerminated config conduct name) := by
  unfold Cell.onChildTerminated
  dsimp only
  split
  · split
    · exact completeRecreate (changed h (by rfl) (by rfl))
    · exact continueTermination (changed h (by rfl) (by rfl))
  · exact continueTermination (changed h (by rfl) (by rfl))

lemma handleUserMessage (message : UserMessage) :
    Quiet c (d.handleUserMessage config conduct message) := by
  cases message with
  | poisonPill => exact h.onTerminate
  | kill => exact h.failToParent _
  | application =>
    unfold Cell.handleUserMessage
    dsimp only
    split
    · exact (h.perform _).failToParent _
    · exact h.perform _

lemma handle (input : Input E) (hinput : ∀ cause name, input ≠ .system (.failure cause name)) :
    Quiet c (d.handle config conduct input) := by
  cases input with
  | user message =>
    unfold Cell.handle
    dsimp only
    split
    · exact h.handleUserMessage message
    · exact h
  | system command =>
    cases command with
    | create => exact h.onCreate
    | terminate => exact h.onTerminate
    | recreate cause => exact h.onRecreate cause
    | suspend => exact h.onSuspend
    | resume => exact h.onResume
    | failure cause name => exact absurd rfl (hinput cause name)
    | childTerminated name => exact h.onChildTerminated name
    | watchNotify => exact h
    | receiveTimeout =>
      unfold Cell.handle Cell.handleSystemCommand Cell.onReceiveTimeout
      dsimp only
      split
      · exact h
      · exact h.handleUserMessage _

end

end Quiet

variable (config)

/-- An input that is the failure of a child of the cell, with the child. -/
def failing (c : Cell E) (input : Input E) : Option (Blueprint E) :=
  match input with
  | .system (.failure _ name) => if c.state = .terminated then none else c.children.get? name
  | _ => none

/-- Whether a step tells children to restart. -/
def restarts (c : Cell E) (input : Conduct E × Input E) : Bool :=
  (c.told config input).any Effect.isRecreate

/-- When a failure is answered with a restart. -/
def granted (c : Cell E) (input : Conduct E × Input E) : List ℚ :=
  if c.restarts config input then [input.1.now] else []

/-- A failure of a child is not answered with a restart. -/
def Refused (c : Cell E) (input : Conduct E × Input E) : Prop :=
  (c.failing input.2).isSome ∧ c.restarts config input = false

variable {config}

/-- The strategy in force restarts, at most `m` times within `w`. -/
def Limited (m : ℕ) (w : ℚ) (c : Cell E) (input : Conduct E × Input E) : Prop :=
  ∀ child, c.failing input.2 = some child →
    let strategy := c.strategyFor input.1 child
    strategy.maxRetries = m ∧ strategy.withinTimeRangeMs = w ∧
      ∀ cause, strategy.decider cause = .restart

/-- The strategy in force is in the object that the budget was made for. -/
def SameStrategy (c : Cell E) (input : Conduct E × Input E) : Prop :=
  ∀ child object budget, c.failing input.2 = some child →
    c.restartBudget = some (object, budget) → object = (c.strategyFor input.1 child).object

variable {c : Cell E} {input : Conduct E × Input E}

variable (config) in
lemma quiet_of_failing_eq_none (h : c.failing input.2 = none) :
    Quiet { c with effects := [] } (c.step config input) := by
  unfold step
  split
  · exact Quiet.of_effects_eq rfl rfl
  · next hstate =>
    obtain ⟨conduct, input⟩ := input
    by_cases hfailure : ∃ cause name, input = .system (.failure cause name)
    · obtain ⟨cause, name, rfl⟩ := hfailure
      have hnone : c.children.get? name = none := by simpa [failing, hstate] using h
      simp only [handle, handleSystemCommand, onFailure, hnone]
      exact Quiet.refl _
    · exact (Quiet.refl _).handle input fun cause name heq => hfailure ⟨cause, name, heq⟩

lemma restarts_eq_false_of_quiet (h : Quiet { c with effects := [] } (c.step config input)) :
    c.restarts config input = false := by
  obtain ⟨new, hnew, hquiet⟩ := h.effects
  have htold : c.told config input = new := hnew
  rw [restarts, htold]
  simpa using hquiet

/-- The budget that a strategy finds. -/
def budgetFor (c : Cell E) (strategy : SupervisorStrategy E) : RestartBudget :=
  match c.restartBudget with
  | some (object, budget) =>
    if object = strategy.object then budget else RestartBudget.ofStrategy strategy
  | none => RestartBudget.ofStrategy strategy

/-- The children that a decision about one of them reaches. -/
def affected (c : Cell E) (scope : SupervisionScope) (name : ActorName) : List ActorName :=
  match scope with
  | .allForOne => c.children.keys
  | .oneForOne => [name]

variable {child : Blueprint E}

lemma affected_ne_nil {scope : SupervisionScope} {name : ActorName}
    (h : c.children.get? name = some child) : c.affected scope name ≠ [] := by
  cases scope with
  | oneForOne => simp [affected]
  | allForOne => exact ne_nil_of_mem ((c.children.mem_keys_iff name).2 ⟨child, h⟩)

lemma onFailure_eq {cause : Failure E} {name : ActorName}
    (hchild : c.children.get? name = some child)
    (hrestart : (c.strategyFor conduct child).decider cause = .restart) :
    let strategy := c.strategyFor conduct child
    let answer := (c.budgetFor strategy).registerRestart conduct.now
    c.onFailure config conduct cause name =
      { c with restartBudget := some (strategy.object, answer.2) }.tellAll
        (c.affected strategy.scope name) (if answer.1 then .recreate cause else .terminate) := by
  simp only [onFailure, hchild, hrestart]
  rfl

lemma any_isRecreate_map {names : List ActorName} (h : names ≠ []) (granted : Bool)
    (cause : Failure E) :
    (names.map fun name => Effect.tellChild name
      (if granted then SystemCommand.recreate cause else .terminate)).any Effect.isRecreate =
        granted := by
  obtain ⟨name, names, rfl⟩ := exists_cons_of_ne_nil h
  cases granted <;> simp [Effect.isRecreate, SystemCommand.isRecreate]

variable (config) in
lemma step_failing (h : c.failing input.2 = some child)
    (hrestart : ∀ cause, (c.strategyFor input.1 child).decider cause = .restart) :
    let strategy := c.strategyFor input.1 child
    let answer := (c.budgetFor strategy).registerRestart input.1.now
    c.restarts config input = answer.1 ∧
      (c.step config input).restartBudget = some (strategy.object, answer.2) := by
  obtain ⟨conduct, input⟩ := input
  intro strategy answer
  match input with
  | .system (.failure cause name) =>
    have hstate : c.state ≠ .terminated := fun hstate => by simp [failing, hstate] at h
    have hchild : c.children.get? name = some child := by simpa [failing, hstate] using h
    have hstep : c.step config (conduct, .system (.failure cause name)) =
        { c with restartBudget := some (strategy.object, answer.2), effects := [] }.tellAll
          (c.affected strategy.scope name) (if answer.1 then .recreate cause else .terminate) := by
      rw [step, if_neg hstate]
      exact onFailure_eq (c := { c with effects := [] }) hchild (hrestart cause)
    refine ⟨?_, by rw [hstep]; rfl⟩
    rw [restarts, told, hstep]
    exact any_isRecreate_map (affected_ne_nil hchild) answer.1 cause

/-- A budget of at most `m` within `w` that counts the past, as far as it matters from a time
on. -/
structure Counts (m : ℕ) (w clock : ℚ) (past : List ℚ) (budget : RestartBudget) : Prop where
  maxRetries : budget.maxRetries = m
  withinTimeRangeMs : budget.withinTimeRangeMs = w
  failureTimes : ∀ now, clock ≤ now →
    SlidingWindow.recent w now budget.failureTimes = SlidingWindow.recent w now past

/-- What was granted is within the limit, and the budget of the cell counts it. -/
structure Counted (m : ℕ) (w clock : ℚ) (past : List ℚ) (c : Cell E) : Prop where
  spaced : SlidingWindow.Spaced m w past
  budget : ∀ object budget, c.restartBudget = some (object, budget) → Counts m w clock past budget
  fresh : c.restartBudget = none → past = []

variable {clock : ℚ} {past : List ℚ} {m : ℕ}

lemma Counts.mono {w later : ℚ} {budget : RestartBudget} (h : Counts m w clock past budget)
    (hlater : clock ≤ later) : Counts m w later past budget :=
  ⟨h.maxRetries, h.withinTimeRangeMs, fun now hnow => h.failureTimes now (hlater.trans hnow)⟩

lemma Counts.registerRestart {w now : ℚ} {budget : RestartBudget}
    (h : Counts m w clock past budget) (hpos : 0 < w) (hnow : clock ≤ now) :
    let answer := budget.registerRestart now
    answer.1 = decide ((SlidingWindow.recent w now past).length < m) ∧
      Counts m w now (past ++ if answer.1 then [now] else []) answer.2 := by
  obtain ⟨hanswer, hm, hw, htimes⟩ := RestartBudget.registerRestart_spec h.maxRetries
    h.withinTimeRangeMs hpos (h.failureTimes now hnow)
  refine ⟨hanswer, hm, hw, fun later hlater => ?_⟩
  rw [htimes, SlidingWindow.recent_append, SlidingWindow.recent_append,
    SlidingWindow.recent_recent hlater]

variable {w : ℚ}

lemma Counted.budgetFor {strategy : SupervisorStrategy E} (h : Counted m w clock past c)
    (hm : strategy.maxRetries = m) (hw : strategy.withinTimeRangeMs = w)
    (hsame : ∀ object budget, c.restartBudget = some (object, budget) →
      object = strategy.object) : Counts m w clock past (c.budgetFor strategy) := by
  unfold Cell.budgetFor
  split
  · next object budget heq =>
    rw [if_pos (hsame object budget heq)]
    exact h.budget object budget heq
  · next heq =>
    exact ⟨hm, hw, fun now _ => by rw [h.fresh heq]; rfl⟩

variable (config) in
lemma Counted.after (h : Counted m w clock past c) (hpos : 0 < w) (hclock : clock ≤ input.1.now)
    (hlimited : Limited m w c input) (hsame : SameStrategy c input) :
    Counted m w input.1.now (past ++ c.granted config input) (c.step config input) ∧
      (c.Refused config input → m ≤ (SlidingWindow.recent w input.1.now past).length) := by
  cases hfailing : c.failing input.2 with
  | none =>
    have hquiet := quiet_of_failing_eq_none config hfailing
    have hgranted : c.granted config input = [] := by
      rw [granted, restarts_eq_false_of_quiet hquiet, if_neg Bool.false_ne_true]
    rw [hgranted, append_nil]
    refine ⟨⟨h.spaced, ?_, fun hnone => h.fresh (hquiet.budget ▸ hnone)⟩, ?_⟩
    · exact fun object budget heq => (h.budget object budget (hquiet.budget ▸ heq)).mono hclock
    · exact fun hrefused => by simp [Refused, hfailing] at hrefused
  | some child =>
    obtain ⟨hm, hw, hrestart⟩ := hlimited child hfailing
    obtain ⟨hrestarts, hbudget⟩ := step_failing config hfailing hrestart
    have hcounts := h.budgetFor hm hw fun object budget => hsame child object budget hfailing
    obtain ⟨hanswer, hkept⟩ := hcounts.registerRestart hpos hclock
    rw [← hrestarts] at hanswer hkept
    refine ⟨⟨?_, ?_, by simp [hbudget]⟩, fun hrefused => ?_⟩
    · rw [granted]
      split
      · next htrue => exact h.spaced.concat (of_decide_eq_true (hanswer.symm.trans htrue))
      · rw [append_nil]
        exact h.spaced
    · intro object budget heq
      obtain ⟨-, rfl⟩ := Prod.mk.inj (some.inj (hbudget.symm.trans heq))
      exact hkept
    · exact not_lt.1 (of_decide_eq_false (hanswer.symm.trans hrefused.2))

lemma Counted.init (m : ℕ) (w clock : ℚ) : Counted m w clock [] ({} : Cell E) :=
  ⟨spaced_nil m w, fun _ _ h => (some_ne_none _ h.symm).elim, fun _ => rfl⟩

variable (config) in
lemma Counted.run {inputs : List (Conduct E × Input E)} (h : Counted m w clock past c)
    (hpos : 0 < w) (hclock : ∀ input ∈ inputs, clock ≤ input.1.now)
    (htimes : inputs.Pairwise fun input later => input.1.now ≤ later.1.now)
    (hlimited : Machine.Along (step config) (Limited m w) c inputs)
    (hsame : Machine.Along (step config) SameStrategy c inputs) :
    Spaced m w (past ++ log (step config) (granted config) c inputs) ∧
      ∀ earlier input later, inputs = earlier ++ input :: later →
        (run (step config) c earlier).Refused config input →
        m ≤ (SlidingWindow.recent w input.1.now
          (past ++ log (step config) (granted config) c earlier)).length := by
  induction inputs generalizing c past clock with
  | nil =>
    refine ⟨by simpa using h.spaced, fun earlier input later heq => ?_⟩
    exact absurd heq (by simp)
  | cons first inputs ih =>
    obtain ⟨hfirst, hrest⟩ := pairwise_cons.1 htimes
    obtain ⟨hstep, hrefused⟩ :=
      h.after config hpos (hclock first mem_cons_self) hlimited.1 hsame.1
    obtain ⟨hspaced, hlater⟩ := ih hstep hfirst hrest hlimited.2 hsame.2
    refine ⟨by rw [log_cons, ← append_assoc]; exact hspaced, ?_⟩
    intro earlier input later heq
    cases earlier with
    | nil =>
      obtain ⟨rfl, rfl⟩ := cons.inj heq
      simpa using hrefused
    | cons start earlier =>
      obtain ⟨rfl, rfl⟩ := cons.inj heq
      rw [run_cons, log_cons, ← append_assoc]
      exact hlater earlier input later rfl

/-- A cell whose failures are all answered by one strategy object restarts children at most
`m` times within any closed stretch of length `w`, and refuses only where it has. -/
theorem restarts_limited (config : CellConfig) (m : ℕ) (w : ℚ) (hpos : 0 < w)
    (inputs : List (Conduct E × Input E))
    (htimes : inputs.Pairwise fun input later => input.1.now ≤ later.1.now)
    (hlimited : Machine.Along (step config) (Limited m w) {} inputs)
    (hsame : Machine.Along (step config) SameStrategy {} inputs) :
    Spaced m w (log (step config) (granted config) {} inputs) ∧
      ∀ earlier input later, inputs = earlier ++ input :: later →
        (run (step config) {} earlier).Refused config input →
        m ≤ (SlidingWindow.recent w input.1.now
          (log (step config) (granted config) {} earlier)).length := by
  obtain ⟨start, hstart⟩ : ∃ start : ℚ, ∀ input ∈ inputs, start ≤ input.1.now := by
    cases inputs with
    | nil => exact ⟨0, by simp⟩
    | cons first inputs =>
      refine ⟨first.1.now, fun input hinput => ?_⟩
      rcases mem_cons.1 hinput with rfl | hinput
      · exact le_rfl
      · exact (pairwise_cons.1 htimes).1 input hinput
  exact (Counted.init m w start).run config hpos hstart htimes hlimited hsame

/-- At most one restart within a second, in an object of its own. -/
def oncePerSecond (object : ℕ) : SupervisorStrategy Unit where
  object := object
  decider := fun _ => .restart
  maxRetries := 1
  withinTimeRangeMs := 1000

/-- A cell starts a child, which fails once for each of the strategies, all at one time. -/
def failures (objects : List ℕ) : List (Conduct Unit × Input Unit) :=
  ({ preStart := { spawns := [("child", {})] } }, .system .create) ::
    objects.map fun object =>
      ({ supervisorStrategy := oncePerSecond object }, .system (.failure .killed "child"))

def parentConfig : CellConfig where
  name := "parent"

/-- Where the strategy is in the object of the last failure, the limit holds. -/
theorem restarts_limited_oneObject :
    Spaced 1 1000
      (Machine.log (step parentConfig) (granted parentConfig) {} (failures [1, 1])) := by
  refine (restarts_limited parentConfig 1 1000 (by decide) (failures [1, 1]) ?_ ?_ ?_).1
  · simp [failures]
  · refine ⟨fun _ h => (by cases h), fun child h => ?_, fun child h => ?_, trivial⟩
    all_goals
      obtain rfl : {} = child := some.inj h
      exact ⟨rfl, rfl, fun _ => rfl⟩
  · refine ⟨fun _ _ _ h => (by cases h), fun child _ _ h hb => ?_, fun child _ _ h hb => ?_, trivial⟩
    · cases hb
    · obtain rfl : {} = child := some.inj h
      obtain ⟨rfl, -⟩ := Prod.mk.inj (some.inj hb)
      rfl

/-- An equal strategy in another object starts a new count, and the limit is none. -/
theorem not_restarts_limited :
    ¬ ∀ (config : CellConfig) (m : ℕ) (w : ℚ) (inputs : List (Conduct Unit × Input Unit)), 0 < w →
      inputs.Pairwise (fun input later => input.1.now ≤ later.1.now) →
      Machine.Along (step config) (Limited m w) {} inputs →
      Spaced m w (log (step config) (granted config) {} inputs) := by
  intro h
  have hspaced := h parentConfig 1 1000 (failures [1, 2]) (by decide) (by simp [failures]) ?_
  · have htwo : log (step parentConfig) (granted parentConfig) {} (failures [1, 2]) =
        [0, 0] := by decide +kernel
    have hle := hspaced 0
    exact absurd hle (by decide +kernel)
  · refine ⟨fun _ h => (by cases h), fun child h => ?_, fun child h => ?_, trivial⟩
    all_goals
      obtain rfl : {} = child := some.inj h
      exact ⟨rfl, rfl, fun _ => rfl⟩

end Cell

end ActorTs.Actor
