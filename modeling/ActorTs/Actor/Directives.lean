import ActorTs.Actor.ActorCell

/-!
# What a cell tells one of its children

A child hears of its parent that it was made, and then directives: to suspend, to resume,
to restart and to stop. A cell that runs has never told a child to suspend last, and a cell
that begins to run again has told each child that it had. The failure of a child is always
answered.
-/

open List Option

namespace ActorTs.Actor

variable {E : Type}

/-- What a cell may tell a child that was made. -/
def SystemCommand.isDirective : SystemCommand E → Bool
  | .terminate | .recreate _ | .suspend | .resume => true
  | _ => false

/-- The last directive among the commands for a cell. -/
def lastDirective (commands : List (SystemCommand E)) : Option (SystemCommand E) :=
  commands.reverse.find? SystemCommand.isDirective

lemma lastDirective_append (commands later : List (SystemCommand E)) :
    lastDirective (commands ++ later) = (lastDirective later).or (lastDirective commands) := by
  rw [lastDirective, reverse_append, find?_append]
  rfl

lemma lastDirective_cons (command : SystemCommand E) (later : List (SystemCommand E)) :
    lastDirective (command :: later) =
      (lastDirective later).or (if command.isDirective then some command else none) := by
  cases hcommand : command.isDirective <;> simp [lastDirective, hcommand]

lemma lastDirective_eq_none_iff {commands : List (SystemCommand E)} :
    lastDirective commands = none ↔ ∀ x ∈ commands, x.isDirective = false := by
  simp [lastDirective]

lemma mem_of_lastDirective {commands : List (SystemCommand E)} {command : SystemCommand E}
    (h : lastDirective commands = some command) : command ∈ commands :=
  mem_reverse.1 (mem_of_find?_eq_some h)

lemma lastDirective_append_replicate (commands : List (SystemCommand E))
    {command : SystemCommand E} (hcommand : command.isDirective = true) {k : ℕ} (hk : 0 < k) :
    lastDirective (commands ++ List.replicate k command) = some command := by
  obtain ⟨k, rfl⟩ : ∃ j, k = j + 1 := ⟨k - 1, by omega⟩
  simp [lastDirective, hcommand]

/-- What an effect of a cell is to a child. -/
def Effect.heardBy (n : ActorName) : Effect E → Option (SystemCommand E)
  | .spawned name _ => if name = n then some .create else none
  | .tellChild name command => if name = n then some command else none
  | _ => none

/-- What a child hears of the effects of a cell. -/
def heard (n : ActorName) (effects : List (Effect E)) : List (SystemCommand E) :=
  effects.filterMap (Effect.heardBy n)

lemma heard_append (n : ActorName) (past new : List (Effect E)) :
    heard n (past ++ new) = heard n past ++ heard n new :=
  filterMap_append

lemma heard_tellAll (n : ActorName) (names : List ActorName) (command : SystemCommand E) :
    heard n (names.map fun name => .tellChild name command) =
      List.replicate (names.count n) command := by
  induction names with
  | nil => rfl
  | cons name names ih =>
    by_cases hname : name = n
    · rw [hname, count_cons_self, replicate_succ, ← ih]
      simp [Effect.heardBy, heard]
    · rw [count_cons_of_ne hname, ← ih]
      simp [Effect.heardBy, hname, heard]

namespace Cell

variable {config : CellConfig} {conduct : Conduct E} {n : ActorName} {names : List ActorName}
  {x : Effect E}

lemma lastDirective_tellAll (c : Cell E) (hn : n ∈ names) (command : SystemCommand E)
    (hcommand : command.isDirective = true) :
    lastDirective (heard n (c.tellAll names command).effects) = some command := by
  rw [Cell.tellAll, heard_append, heard_tellAll]
  exact lastDirective_append_replicate _ hcommand (count_pos_iff.2 hn)

/-! ### Whom a cell tells -/

/-- During a step, a child that was there is there still, and hears no `create`; one that
was not there hears nothing, or is made and hears its `create` first. -/
structure Tells (n : ActorName) (here : Prop) (c : Cell E) : Prop where
  stays : here → n ∈ c.children.keys ∧ .create ∉ heard n c.effects
  new : ¬here → n ∉ c.children.keys ∧ heard n c.effects = [] ∨
    n ∈ c.children.keys ∧ ∃ rest, heard n c.effects = .create :: rest ∧ .create ∉ rest

namespace Tells

variable {here : Prop} {c d : Cell E} {command : SystemCommand E}

section

variable (h : Tells n here c)
include h

lemma same (hkeys : n ∈ d.children.keys ↔ n ∈ c.children.keys)
    (hheard : heard n d.effects = heard n c.effects) : Tells n here d :=
  ⟨by rw [hkeys, hheard]; exact h.stays, by rw [hkeys, hheard]; exact h.new⟩

lemma changed (hchildren : d.children = c.children)
    (heffects : d.effects = c.effects) : Tells n here d :=
  h.same (by rw [hchildren]) (by rw [heffects])

lemma heardMore (commands : List (SystemCommand E)) (hcommands : .create ∉ commands)
    (habsent : n ∉ c.children.keys → commands = []) (hchildren : d.children = c.children)
    (heffects : heard n d.effects = heard n c.effects ++ commands) : Tells n here d := by
  refine ⟨fun hhere => ?_, fun hnot => ?_⟩
  · obtain ⟨hmem, hnone⟩ := h.stays hhere
    rw [hchildren, heffects]
    refine ⟨hmem, fun hmem => ?_⟩
    exact (mem_append.1 hmem).elim hnone hcommands
  · rw [hchildren, heffects]
    rcases h.new hnot with ⟨hmem, hnil⟩ | ⟨hmem, rest, hrest, hnone⟩
    · exact .inl ⟨hmem, by rw [hnil, habsent hmem, append_nil]⟩
    · refine .inr ⟨hmem, rest ++ commands, by rw [hrest, cons_append], fun hmem => ?_⟩
      exact (mem_append.1 hmem).elim hnone hcommands

lemma absent (hn : n ∉ c.children.keys) : heard n c.effects = [] := by
  by_cases hhere : here
  · exact absurd (h.stays hhere).1 hn
  · rcases h.new hhere with ⟨-, hnil⟩ | ⟨hmem, -⟩
    · exact hnil
    · exact absurd hmem hn

lemma emit (hx : x.heardBy n = none) : Tells n here (c.emit x) := by
  refine h.heardMore [] not_mem_nil (fun _ => rfl) rfl ?_
  have hnone : heard n [x] = [] := by simp [heard, hx]
  rw [Cell.emit, heard_append, hnone]

lemma tellAll (hnames : n ∈ names → n ∈ c.children.keys)
    (hcommand : command.isDirective = true) : Tells n here (c.tellAll names command) := by
  refine h.heardMore (List.replicate (names.count n) command) ?_ ?_ rfl ?_
  · intro hmem
    rw [← eq_of_mem_replicate hmem] at hcommand
    exact Bool.false_ne_true hcommand
  · intro hmem
    rw [count_eq_zero.2 fun hn => hmem (hnames hn), replicate_zero]
  · rw [Cell.tellAll, heard_append, heard_tellAll]

lemma tellChildren (hcommand : command.isDirective = true) :
    Tells n here (c.tellChildren command) :=
  h.tellAll id hcommand

lemma createChild (name : ActorName) (blueprint : Blueprint E) :
    Tells n here (c.createChild name blueprint) := by
  unfold Cell.createChild
  split
  · exact h
  · split
    · exact h
    · next hhas =>
      by_cases hname : name = n
      · subst hname
        have hmem : name ∉ c.children.keys := fun hmem => hhas ((c.children.has_iff name).2 hmem)
        have hhere : ¬here := fun hhere => hmem (h.stays hhere).1
        obtain ⟨-, hnil⟩ := (h.new hhere).resolve_right fun hright => hmem hright.1
        refine ⟨fun hyes => absurd hyes hhere, fun _ => .inr ⟨?_, [], ?_, not_mem_nil⟩⟩
        · exact (c.children.mem_keys_set name name blueprint).2 (.inl rfl)
        · change heard name (c.effects ++ [.spawned name blueprint]) = _
          rw [heard_append, hnil]
          simp [heard, Effect.heardBy]
      · refine h.same ?_ ?_
        · change n ∈ (c.children.set name blueprint).keys ↔ _
          rw [c.children.mem_keys_set]
          simp [Ne.symm hname]
        · change heard n (c.effects ++ [.spawned name blueprint]) = _
          simp [heard, Effect.heardBy, hname]

lemma perform (hook : Hook E) : Tells n here (c.perform hook) := by
  unfold Cell.perform
  induction hook.spawns generalizing c with
  | nil => exact h
  | cons spawn spawns ih => exact ih (h.createChild _ _)

end

end Tells

/-! ### What a running cell has told -/

lemma suspendSelf_state (c : Cell E) : c.suspendSelf.state ≠ .running := by
  unfold suspendSelf
  dsimp only
  split
  · exact fun h => nomatch h
  · next hstate => exact hstate

/-- During a step, moreover, a child was told to suspend last only where the cell does not
run, and one that heard no directive only where the cell does not run anew. -/
structure Tends (n : ActorName) (here ran : Prop) (c : Cell E) : Prop extends Tells n here c where
  suspended : lastDirective (heard n c.effects) = some .suspend → c.state ≠ .running
  silent : here → lastDirective (heard n c.effects) = none → c.state = .running → ran

namespace Tends

variable {here ran : Prop} {c d : Cell E}

lemma start (heffects : c.effects = []) :
    Tends n (n ∈ c.children.keys) (c.state = .running) c := by
  have hnil : heard n c.effects = [] := by rw [heffects]; rfl
  refine ⟨⟨fun hhere => ⟨hhere, ?_⟩, fun hnot => .inl ⟨hnot, hnil⟩⟩, fun hlast => ?_,
    fun _ _ hstate => hstate⟩
  · rw [hnil]
    exact not_mem_nil
  · rw [hnil] at hlast
    exact nomatch hlast

lemma startWithout (heffects : c.effects = []) (hn : n ∉ c.children.keys) :
    Tends n False ran c := by
  have hnil : heard n c.effects = [] := by rw [heffects]; rfl
  refine ⟨⟨False.elim, fun _ => .inl ⟨hn, hnil⟩⟩, fun hlast => ?_, False.elim⟩
  rw [hnil] at hlast
  exact nomatch hlast

lemma of_idle (h : Tells n here c) (hstate : c.state ≠ .running) : Tends n here ran c :=
  ⟨h, fun _ => hstate, fun _ _ hrunning => absurd hrunning hstate⟩

lemma of_told (h : Tells n here c) (command : SystemCommand E)
    (hcommand : command.isDirective = true) (hne : command ≠ .suspend)
    (hchildren : d.children = c.children)
    (heffects : d.effects = (c.tellChildren command).effects) : Tends n here ran d := by
  have htells : Tells n here d := (h.tellChildren hcommand).changed hchildren heffects
  have hlast : n ∈ d.children.keys → lastDirective (heard n d.effects) = some command := by
    intro hmem
    rw [hchildren] at hmem
    rw [heffects]
    exact c.lastDirective_tellAll hmem _ hcommand
  refine ⟨htells, fun hsuspend => ?_, fun hhere hnone => ?_⟩
  · by_cases hmem : n ∈ d.children.keys
    · rw [hlast hmem] at hsuspend
      exact absurd (some.inj hsuspend) hne
    · rw [htells.absent hmem] at hsuspend
      exact nomatch hsuspend
  · rw [hlast (htells.stays hhere).1] at hnone
    exact nomatch hnone

section

variable (h : Tends n here ran c)
include h

lemma same (hstate : d.state = c.state) (hkeys : n ∈ d.children.keys ↔ n ∈ c.children.keys)
    (hheard : heard n d.effects = heard n c.effects) : Tends n here ran d :=
  ⟨h.toTells.same hkeys hheard, by rw [hheard, hstate]; exact h.suspended,
    by rw [hheard, hstate]; exact h.silent⟩

lemma changed (hstate : d.state = c.state) (hchildren : d.children = c.children)
    (heffects : d.effects = c.effects) : Tends n here ran d :=
  h.same hstate (by rw [hchildren]) (by rw [heffects])

lemma emit (hx : x.heardBy n = none) : Tends n here ran (c.emit x) := by
  refine h.same rfl Iff.rfl ?_
  have hnone : heard n [x] = [] := by simp [heard, hx]
  rw [Cell.emit, heard_append, hnone, append_nil]

lemma tellAll (hnames : n ∈ names → n ∈ c.children.keys) {command : SystemCommand E}
    (hcommand : command.isDirective = true) (hne : command ≠ .suspend) :
    Tends n here ran (c.tellAll names command) := by
  have htells : Tells n here (c.tellAll names command) := h.toTells.tellAll hnames hcommand
  by_cases hmem : n ∈ names
  · have hlast := c.lastDirective_tellAll hmem _ hcommand
    refine ⟨htells, fun hsuspend => ?_, fun _ hnone => ?_⟩
    · rw [hlast] at hsuspend
      exact absurd (some.inj hsuspend) hne
    · rw [hlast] at hnone
      exact nomatch hnone
  · refine h.same rfl Iff.rfl ?_
    rw [Cell.tellAll, heard_append, heard_tellAll, count_eq_zero.2 hmem, replicate_zero, append_nil]

lemma createChild (name : ActorName) (blueprint : Blueprint E) :
    Tends n here ran (c.createChild name blueprint) := by
  have htells := h.toTells.createChild name blueprint
  by_cases hsame : c.createChild name blueprint = c
  · rw [hsame]
    exact h
  · have hcreated : c.createChild name blueprint =
        { c with children := c.children.set name blueprint }.emit (.spawned name blueprint) := by
      unfold Cell.createChild at hsame ⊢
      split at hsame
      · exact absurd rfl hsame
      · next hstate =>
        rw [if_neg hstate]
        split at hsame
        · exact absurd rfl hsame
        · next hhas => rw [if_neg hhas]
    have hlast : lastDirective (heard n (c.createChild name blueprint).effects) =
        lastDirective (heard n c.effects) := by
      rw [hcreated, Cell.emit, heard_append, lastDirective_append]
      by_cases hname : name = n <;>
        simp [heard, Effect.heardBy, hname, lastDirective, SystemCommand.isDirective]
    have hstate : (c.createChild name blueprint).state = c.state := by rw [hcreated]; rfl
    refine ⟨htells, ?_, ?_⟩
    · rw [hlast, hstate]
      exact h.suspended
    · rw [hlast, hstate]
      exact h.silent

lemma perform (hook : Hook E) : Tends n here ran (c.perform hook) := by
  unfold Cell.perform
  induction hook.spawns generalizing c with
  | nil => exact h
  | cons spawn spawns ih => exact ih (h.createChild _ _)

end

/-! ### The handlers of a cell -/

lemma failToParent (h : Tells n here c) (cause : Failure E) :
    Tends n here ran (c.failToParent config cause) := by
  have hsuspended : Tells n here (c.suspendSelf.tellChildren .suspend) := by
    refine Tells.tellChildren ?_ rfl
    unfold Cell.suspendSelf
    dsimp only
    split <;> exact h.changed rfl rfl
  have hidle : (c.suspendSelf.tellChildren .suspend).state ≠ .running := c.suspendSelf_state
  unfold Cell.failToParent
  split <;> exact of_idle (hsuspended.emit rfl) hidle

lemma onSuspend (h : Tells n here c) : Tends n here ran c.onSuspend := by
  refine of_idle (Tells.tellChildren ?_ rfl) c.suspendSelf_state
  unfold Cell.suspendSelf
  dsimp only
  split <;> exact h.changed rfl rfl

lemma onResume (h : Tells n here c) : Tends n here ran c.onResume := by
  unfold Cell.onResume
  dsimp only
  split
  · exact of_told h .resume rfl (by simp) rfl rfl
  · exact of_told h .resume rfl (by simp) rfl rfl

lemma onCreate (h : Tends n False ran c) (hn : n ∉ c.children.keys) :
    Tends n False ran (c.onCreate config conduct) := by
  have hstarted : Tends n False ran
      { c with instances := c.instances + 1, state := .running } := by
    have htells : Tells n False { c with instances := c.instances + 1, state := .running } :=
      h.toTells.changed rfl rfl
    refine ⟨htells, fun hlast => ?_, False.elim⟩
    rw [htells.absent hn] at hlast
    exact nomatch hlast
  unfold Cell.onCreate
  split
  · exact failToParent h.toTells _
  · dsimp only
    split
    · exact failToParent (hstarted.perform _).toTells _
    · exact (hstarted.perform _).emit rfl

lemma finalizeTermination (h : Tells n here c) :
    Tends n here ran (c.finalizeTermination config) := by
  have hdone : Tends n here ran ((c.setState .terminated).emit (.published .stopped)) :=
    of_idle (Tells.emit (Tells.changed h (by rfl) (by rfl)) (by rfl)) (fun h => nomatch h)
  unfold Cell.finalizeTermination
  split <;> exact hdone.emit rfl

lemma terminateFrom (h : Tells n here c) (hstate : c.state = .terminating)
    (order : List ActorName) : Tends n here ran (c.terminateFrom config order) := by
  have hidle : c.state ≠ .running := by rw [hstate]; exact fun h => nomatch h
  induction order generalizing c with
  | nil =>
    unfold Cell.terminateFrom
    dsimp only
    split
    · exact finalizeTermination (h.tellChildren rfl)
    · exact of_idle (h.tellChildren rfl) hidle
  | cons name order ih =>
    unfold Cell.terminateFrom
    dsimp only
    split
    · next hhas =>
      have hnames : n ∈ [name] → n ∈ c.children.keys := by
        intro hmem
        rw [mem_singleton.1 hmem]
        exact (c.children.has_iff name).1 hhas
      exact of_idle (Tells.changed (h.tellAll hnames rfl) rfl rfl) hidle
    · exact ih (h.changed rfl rfl) hstate hidle

lemma mem_keys_of_mem_scope {name : ActorName} (hname : name ∈ c.children.keys)
    (scope : SupervisionScope)
    (hmem : n ∈ (match scope with | .allForOne => c.children.keys | .oneForOne => [name])) :
    n ∈ c.children.keys := by
  cases scope with
  | allForOne => exact hmem
  | oneForOne => exact mem_singleton.1 hmem ▸ hname

section

variable (h : Tends n here ran c)
include h

lemma onTerminate : Tends n here ran (c.onTerminate config) := by
  have hstopping : Tells n here (c.setState .terminating) := h.toTells.changed rfl rfl
  unfold Cell.onTerminate
  split
  · exact h
  · dsimp only
    split
    · exact terminateFrom hstopping rfl _
    · split
      · exact finalizeTermination (hstopping.tellChildren rfl)
      · exact of_idle (hstopping.tellChildren rfl) (fun h => nomatch h)

lemma continueTermination : Tends n here ran (c.continueTermination config) := by
  unfold Cell.continueTermination
  split
  · exact h
  · next hstate =>
    split
    · exact terminateFrom h.toTells (not_not.1 hstate) _
    · split
      · exact finalizeTermination h.toTells
      · exact h

lemma completeRecreate : Tends n here ran (c.completeRecreate config conduct) := by
  have hmade : Tells n here ({ c with instances := c.instances + 1 }.perform conduct.postRestart) :=
    Tells.perform (Tells.changed h.toTells (by rfl) (by rfl)) _
  unfold Cell.completeRecreate
  split
  · exact failToParent h.toTells _
  · dsimp only
    split
    · exact failToParent hmade _
    · exact emit (of_told hmade .resume rfl (by simp) (by rfl) (by rfl)) (by rfl)

lemma onRecreate (cause : Failure E) : Tends n here ran (c.onRecreate config conduct cause) := by
  unfold Cell.onRecreate
  split
  · exact h
  · dsimp only
    split
    · exact tellAll (changed (h.perform _) (by rfl) (by rfl) (by rfl)) id rfl (by simp)
    · exact completeRecreate (h.perform _)

lemma onFailure (cause : Failure E) (name : ActorName) :
    Tends n here ran (c.onFailure config conduct cause name) := by
  unfold Cell.onFailure
  split
  · exact h
  · next child hchild =>
    have haffected := @mem_keys_of_mem_scope E n c _ ((c.children.mem_keys_iff name).2 ⟨_, hchild⟩)
    have hanswer : ∀ granted : Bool,
        (if granted then .recreate cause else .terminate : SystemCommand E).isDirective = true ∧
          (if granted then .recreate cause else .terminate : SystemCommand E) ≠ .suspend := by
      intro granted
      cases granted <;> exact ⟨rfl, by simp⟩
    have hregistered : Tends n here ran
        (c.registerRestart (c.strategyFor conduct child) conduct.now).2 := h.changed rfl rfl rfl
    dsimp only
    split
    · exact h.tellAll (haffected _) rfl (by simp)
    · exact hregistered.tellAll (haffected _) (hanswer _).1 (hanswer _).2
    · exact h.tellAll (haffected _) rfl (by simp)
    · exact failToParent h.toTells _

end

lemma onChildTerminated {name : ActorName}
    (h : Tends n here ran { c with children := c.children.delete name }) :
    Tends n here ran (c.onChildTerminated config conduct name) := by
  unfold Cell.onChildTerminated
  dsimp only
  split
  · split
    · exact completeRecreate (changed h rfl rfl rfl)
    · exact continueTermination (changed h rfl rfl rfl)
  · exact continueTermination h

lemma handleUserMessage (h : Tends n here ran c) (message : UserMessage) :
    Tends n here ran (c.handleUserMessage config conduct message) := by
  cases message with
  | poisonPill => exact h.onTerminate
  | kill => exact failToParent h.toTells _
  | application =>
    unfold Cell.handleUserMessage
    dsimp only
    split
    · exact failToParent (h.perform _).toTells _
    · exact h.perform _

end Tends

/-! ### A step -/

variable {c : Cell E}

lemma step_of_live (hlive : c.state ≠ .terminated) (input : Conduct E × Input E) :
    c.step config input = { c with effects := [] }.handle config input.1 input.2 :=
  if_neg hlive

lemma tends_step (hlive : c.state ≠ .terminated) (input : Conduct E × Input E)
    (hcreate : input.2 = .system .create → n ∉ c.children.keys)
    (hgone : input.2 ≠ .system (.childTerminated n)) :
    Tends n (n ∈ c.children.keys) (c.state = .running) (c.step config input) := by
  obtain ⟨conduct, input⟩ := input
  have hstart : Tends n (n ∈ c.children.keys) (c.state = .running) { c with effects := [] } :=
    Tends.start (c := { c with effects := [] }) rfl
  rw [step_of_live hlive]
  cases input with
  | user message =>
    change Tends n _ _ (if _ then _ else _)
    split
    · exact hstart.handleUserMessage message
    · exact hstart
  | system command =>
    cases command with
    | create =>
      have hn : n ∉ c.children.keys := hcreate rfl
      have hwithout : Tends n False (c.state = .running) { c with effects := [] } :=
        Tends.startWithout rfl hn
      rw [eq_false hn]
      exact hwithout.onCreate hn
    | terminate => exact hstart.onTerminate
    | recreate cause => exact hstart.onRecreate cause
    | suspend => exact Tends.onSuspend hstart.toTells
    | resume => exact Tends.onResume hstart.toTells
    | failure cause child => exact hstart.onFailure cause child
    | childTerminated name =>
      have hname : name ≠ n := fun h => hgone (by rw [h])
      refine Tends.onChildTerminated (hstart.same rfl ?_ rfl)
      rw [c.children.mem_keys_delete]
      simp [hname]
    | watchNotify => exact hstart
    | receiveTimeout =>
      change Tends n _ _ (onReceiveTimeout _ _ _)
      unfold onReceiveTimeout
      split
      · exact hstart
      · exact hstart.handleUserMessage .application

/-- What a step tells a child that it takes for gone: nothing, or one of the same name is made. -/
lemma tends_childTerminated (hlive : c.state ≠ .terminated) (conduct : Conduct E) (ran : Prop) :
    Tends n False ran (c.step config (conduct, .system (.childTerminated n))) := by
  rw [step_of_live hlive]
  refine Tends.onChildTerminated (Tends.startWithout rfl ?_)
  rw [OrderedMap.mem_keys_delete]
  exact fun h => h.2 rfl

/-! ### The answer to a failure -/

/-- The cell decides that the child is to stop, or grants it no restart. -/
def AnswersByStop (c : Cell E) (conduct : Conduct E) (cause : Failure E) (name : ActorName) :
    Prop :=
  ∀ child, c.children.get? name = some child →
    let strategy := c.strategyFor conduct child
    strategy.decider cause = .stop ∨
      strategy.decider cause = .restart ∧ (c.registerRestart strategy conduct.now).1 = false

lemma mem_scope (hn : n ∈ c.children.keys) (scope : SupervisionScope) :
    n ∈ (match scope with | .allForOne => c.children.keys | .oneForOne => [n]) := by
  cases scope with
  | allForOne => exact hn
  | oneForOne => exact mem_singleton.2 rfl

/-- The failure of a child that is there is answered with a directive, and with the order to
stop where the cell decides so. -/
lemma heard_onFailure (hn : n ∈ c.children.keys) (cause : Failure E) :
    lastDirective (heard n (c.onFailure config conduct cause n).effects) ≠ none ∧
      (c.AnswersByStop conduct cause n →
        .terminate ∈ heard n (c.onFailure config conduct cause n).effects) := by
  obtain ⟨child, hchild⟩ := (c.children.mem_keys_iff n).1 hn
  have hmem := mem_scope hn (c.strategyFor conduct child).scope
  have hfail : lastDirective (heard n (c.failToParent config cause).effects) = some .suspend := by
    have hkeys : n ∈ c.suspendSelf.children.keys := by
      unfold suspendSelf
      dsimp only
      split <;> exact hn
    have hsuspended := c.suspendSelf.lastDirective_tellAll hkeys .suspend rfl
    unfold failToParent
    split <;>
    · rw [emit, heard_append]
      exact (congrArg lastDirective (append_nil _)).trans hsuspended
  unfold onFailure AnswersByStop
  rw [hchild]
  dsimp only
  cases hdecision : (c.strategyFor conduct child).decider cause with
  | resume =>
    have htold := c.lastDirective_tellAll hmem .resume rfl
    refine ⟨fun hnone => Option.some_ne_none _ (htold.symm.trans hnone), fun hanswer => ?_⟩
    exact absurd (hanswer child rfl) (by simp [hdecision])
  | restart =>
    cases hgranted : (c.registerRestart (c.strategyFor conduct child) conduct.now).1 with
    | true =>
      have htold := (c.registerRestart (c.strategyFor conduct child) conduct.now).2
        |>.lastDirective_tellAll hmem (.recreate cause) rfl
      refine ⟨fun hnone => Option.some_ne_none _ (htold.symm.trans hnone), fun hanswer => ?_⟩
      exact absurd (hanswer child rfl) (by simp [hdecision, hgranted])
    | false =>
      have htold := (c.registerRestart (c.strategyFor conduct child) conduct.now).2
        |>.lastDirective_tellAll hmem .terminate rfl
      exact ⟨fun hnone => Option.some_ne_none _ (htold.symm.trans hnone), fun _ => mem_of_lastDirective htold⟩
  | stop =>
    have htold := c.lastDirective_tellAll hmem .terminate rfl
    exact ⟨fun hnone => Option.some_ne_none _ (htold.symm.trans hnone), fun _ => mem_of_lastDirective htold⟩
  | escalate =>
    refine ⟨fun hnone => Option.some_ne_none _ (hfail.symm.trans hnone), fun hanswer => ?_⟩
    exact absurd (hanswer child rfl) (by simp [hdecision])

end Cell

end ActorTs.Actor
