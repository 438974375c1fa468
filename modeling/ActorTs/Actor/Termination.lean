import ActorTs.Actor.ActorCell

/-!
# A cell that was told to stop

A cell that was told to stop waits for its children, and stops when the last one is gone.
While it waits it has a child that was told to stop too, so it goes on as long as children
do as they are told. What revives it is a restart that arrives in the meantime, of an
instance that keeps its children.
-/

open List Option Nat

namespace ActorTs.Actor

open Machine

namespace Effect

variable {E : Type}

/-- A cell announces that it has stopped. -/
def isStopped : Effect E → Bool
  | .published .stopped => true
  | _ => false

end Effect

/-- How often a cell has stopped. -/
def stops {E : Type} (past : List (Effect E)) : ℕ := past.countP Effect.isStopped

/-- A child was told to stop. -/
def ToldToStop {E : Type} (past : List (Effect E)) (name : ActorName) : Prop :=
  Effect.tellChild name .terminate ∈ past

lemma stops_append {E : Type} (past new : List (Effect E)) :
    stops (past ++ new) = stops past + stops new :=
  countP_append

lemma ToldToStop.append {E : Type} {past : List (Effect E)} {name : ActorName}
    (h : ToldToStop past name) (new : List (Effect E)) : ToldToStop (past ++ new) name :=
  mem_append_left _ h

namespace Cell

variable {E : Type} {config : CellConfig} {conduct : Conduct E}

/-- The cell has the state, the instances and the children that it had, and has not stopped. -/
structure Steady (c d : Cell E) : Prop where
  state : d.state = c.state
  instances : d.instances = c.instances
  children : d.children = c.children
  effects : ∃ new, d.effects = c.effects ++ new ∧ stops new = 0

namespace Steady

variable {c d : Cell E}

lemma refl (c : Cell E) : Steady c c := ⟨rfl, rfl, rfl, [], by simp, rfl⟩

lemma changed {e : Cell E} (h : Steady c d) (hstate : e.state = d.state)
    (hinstances : e.instances = d.instances)
    (hchildren : e.children = d.children)
    (heffects : e.effects = d.effects) : Steady c e :=
  ⟨hstate.trans h.state, hinstances.trans h.instances, hchildren.trans h.children,
    heffects ▸ h.effects⟩

lemma emit (h : Steady c d) {x : Effect E} (hx : x.isStopped = false) :
    Steady c (d.emit x) := by
  obtain ⟨new, hnew, hstops⟩ := h.effects
  refine ⟨h.state, h.instances, h.children, new ++ [x], ?_, ?_⟩
  · rw [Cell.emit, hnew, append_assoc]
  · rw [stops_append, hstops, stops, countP_singleton, hx]
    rfl

lemma tellAll (h : Steady c d) (children : List ActorName) (command : SystemCommand E) :
    Steady c (d.tellAll children command) := by
  obtain ⟨new, hnew, hstops⟩ := h.effects
  refine ⟨h.state, h.instances, h.children, _, by rw [Cell.tellAll, hnew, append_assoc], ?_⟩
  rw [stops_append, hstops, zero_add, stops, countP_eq_zero]
  intro x hx
  obtain ⟨name, -, rfl⟩ := mem_map.1 hx
  exact Bool.false_ne_true

lemma tellChildren (h : Steady c d) (command : SystemCommand E) :
    Steady c (d.tellChildren command) :=
  h.tellAll _ command

lemma suspendSelf (h : Steady c d) (hd : d.state ≠ .running) : Steady c d.suspendSelf := by
  unfold Cell.suspendSelf
  rw [if_neg hd]
  exact h.changed rfl rfl rfl rfl

lemma failToParent (h : Steady c d) (hd : d.state ≠ .running) (cause : Failure E) :
    Steady c (d.failToParent config cause) := by
  unfold Cell.failToParent
  split <;> exact emit ((h.suspendSelf hd).tellChildren _) rfl

lemma onFailure (h : Steady c d) (hd : d.state ≠ .running) (cause : Failure E)
    (name : ActorName) : Steady c (d.onFailure config conduct cause name) := by
  unfold Cell.onFailure
  split
  · exact h
  · dsimp only
    split
    · exact h.tellAll _ _
    · exact tellAll (changed h (by rfl) (by rfl) (by rfl) (by rfl)) _ _
    · exact h.tellAll _ _
    · exact h.failToParent hd cause

end Steady

variable {c : Cell E}

lemma perform_of_stopping (h : c.state = .terminating ∨ c.state = .terminated) (hook : Hook E) :
    c.perform hook = c := by
  unfold perform
  induction hook.spawns with
  | nil => rfl
  | cons spawn spawns ih =>
    have hrefused : c.createChild spawn.1 spawn.2 = c := if_pos h.symm
    rw [foldl_cons, hrefused, ih]

variable (config) in
/-- The cell waits for its children, one of which at least was told to stop, or it has
stopped, once. -/
inductive Ending (instances : ℕ) (past : List (Effect E)) (c : Cell E) : Prop where
  | waiting (hstate : c.state = .terminating) (hinstances : c.instances = instances)
      (hstops : stops past = 0)
      (htold : ∃ name ∈ c.children.keys, ToldToStop past name)
      (hall : config.terminationOrder = none →
        ∀ name ∈ c.children.keys, ToldToStop past name)
  | done (hstate : c.state = .terminated) (hinstances : c.instances = instances)
      (hstops : stops past = 1) (hchildren : c.children.size = 0)

variable {instances : ℕ}

lemma Ending.steady {past : List (Effect E)} {c d : Cell E} (h : Ending config instances past c)
    (hsteady : Steady { c with effects := [] } d) :
    Ending config instances (past ++ d.effects) d := by
  obtain ⟨new, hnew, hstops⟩ := hsteady.effects
  rw [nil_append] at hnew
  rw [hnew]
  cases h with
  | waiting hstate hinstances hzero htold hall =>
    obtain ⟨name, hname, htold⟩ := htold
    refine .waiting (hsteady.state.trans hstate) (hsteady.instances.trans hinstances) ?_
      ⟨name, by rw [hsteady.children]; exact hname, htold.append new⟩ ?_
    · rw [stops_append, hzero, hstops]
    · intro horder name hname
      rw [hsteady.children] at hname
      exact (hall horder name hname).append new
  | done hstate hinstances hone hchildren =>
    refine .done (hsteady.state.trans hstate) (hsteady.instances.trans hinstances) ?_ ?_
    · rw [stops_append, hone, hstops]
    · rw [hsteady.children]
      exact hchildren

lemma stops_tellChildren (c : Cell E) (hc : c.effects = []) (command : SystemCommand E) :
    stops (c.tellChildren command).effects = 0 := by
  obtain ⟨new, hnew, hstops⟩ := ((Steady.refl c).tellChildren command).effects
  rw [hnew, hc, nil_append]
  exact hstops

lemma toldToStop_tellChildren (c : Cell E) (past : List (Effect E)) {name : ActorName}
    (h : name ∈ c.children.keys) :
    ToldToStop (past ++ (c.tellChildren .terminate).effects) name :=
  mem_append_right _ (mem_append_right _ (mem_map_of_mem h))

lemma Ending.finalize {past : List (Effect E)} (hinstances : c.instances = instances)
    (hstops : stops past = 0) (hquiet : stops c.effects = 0) (hsize : c.children.size = 0) :
    Ending config instances (past ++ (c.finalizeTermination config).effects)
      (c.finalizeTermination config) := by
  have hlast : ∀ d : Cell E, d.state = .terminated → d.instances = instances →
      d.children = c.children → stops d.effects = 1 →
      Ending config instances (past ++ d.effects) d := fun d hstate hsame hchildren hone =>
    .done hstate hsame (by rw [stops_append, hstops, hone]) (by rw [hchildren, hsize])
  have hone : stops (c.effects ++ [.published .stopped]) = 1 := by rw [stops_append, hquiet]; rfl
  unfold finalizeTermination
  split
  · exact hlast _ rfl hinstances rfl ((stops_append _ _).trans (congrArg (· + 0) hone))
  · exact hlast _ rfl hinstances rfl ((stops_append _ _).trans (congrArg (· + 0) hone))

lemma Ending.tellRest {past : List (Effect E)} (hstate : c.state = .terminating)
    (hinstances : c.instances = instances) (heffects : c.effects = []) (hstops : stops past = 0) :
    Ending config instances (past ++ (if (c.tellChildren .terminate).children.size = 0 then
        (c.tellChildren .terminate).finalizeTermination config
        else c.tellChildren .terminate).effects)
      (if (c.tellChildren .terminate).children.size = 0 then
        (c.tellChildren .terminate).finalizeTermination config
        else c.tellChildren .terminate) := by
  split
  · next hsize => exact .finalize hinstances hstops (stops_tellChildren c heffects _) hsize
  · next hsize =>
    have hall : ∀ name ∈ c.children.keys,
        ToldToStop (past ++ (c.tellChildren .terminate).effects) name :=
      fun name hname => c.toldToStop_tellChildren past hname
    obtain ⟨name, hname⟩ : ∃ name, name ∈ c.children.keys :=
      exists_mem_of_length_pos (by rw [c.children.length_keys]; exact pos_of_ne_zero hsize)
    refine .waiting hstate hinstances ?_ ⟨name, hname, hall name hname⟩ fun _ => hall
    rw [stops_append, hstops, stops_tellChildren c heffects]

lemma Ending.terminateFrom {past : List (Effect E)} (hordered : config.terminationOrder ≠ none)
    (hstate : c.state = .terminating) (hinstances : c.instances = instances)
    (heffects : c.effects = []) (hstops : stops past = 0) (order : List ActorName) :
    Ending config instances (past ++ (c.terminateFrom config order).effects)
      (c.terminateFrom config order) := by
  induction order generalizing c with
  | nil => exact .tellRest hstate hinstances heffects hstops
  | cons name order ih =>
    unfold Cell.terminateFrom
    dsimp only
    split
    · next hhas =>
      refine .waiting hstate hinstances ?_
        ⟨name, (c.children.has_iff name).1 hhas, ?_⟩ fun hnone => absurd hnone hordered
      · change stops (past ++ (c.effects ++ [_])) = 0
        rw [heffects, stops_append, hstops]
        rfl
      · exact mem_append_right _ (mem_append_right _ (mem_singleton.2 rfl))
    · exact ih hstate hinstances heffects

lemma Ending.onTerminate (hstate : c.state ≠ .terminating ∧ c.state ≠ .terminated)
    (hinstances : c.instances = instances) (heffects : c.effects = []) :
    Ending config instances (c.onTerminate config).effects (c.onTerminate config) := by
  have hnone : stops ([] : List (Effect E)) = 0 := rfl
  unfold Cell.onTerminate
  rw [if_neg (by simp [hstate])]
  split
  · next hordered =>
    exact Ending.terminateFrom (c := c.setState .terminating)
      (isSome_iff_ne_none.1 hordered) rfl hinstances heffects hnone _
  · exact Ending.tellRest (c := c.setState .terminating) rfl hinstances heffects hnone

lemma Ending.continueTermination {past : List (Effect E)} (hstate : c.state = .terminating)
    (hinstances : c.instances = instances) (heffects : c.effects = []) (hstops : stops past = 0)
    (hall : config.terminationOrder = none → ∀ name ∈ c.children.keys, ToldToStop past name) :
    Ending config instances (past ++ (c.continueTermination config).effects)
      (c.continueTermination config) := by
  unfold Cell.continueTermination
  rw [if_neg (by simp [hstate])]
  split
  · next hordered =>
    exact Ending.terminateFrom (isSome_iff_ne_none.1 hordered) hstate hinstances heffects hstops _
  · next hordered =>
    split
    · next hsize =>
      exact Ending.finalize hinstances hstops (by rw [heffects]; rfl) hsize
    · next hsize =>
      have hnone : config.terminationOrder = none := by simpa using hordered
      obtain ⟨name, hname⟩ : ∃ name, name ∈ c.children.keys :=
        exists_mem_of_length_pos (by rw [c.children.length_keys]; exact pos_of_ne_zero hsize)
      rw [heffects, append_nil]
      exact .waiting hstate hinstances hstops ⟨name, hname, hall hnone name hname⟩ hall

/-- While the cell stops it is not made anew: its `create` was its first command, and a
restart waits for children that are on their way out, or finds no instance. -/
def Undisturbed (c : Cell E) (input : Conduct E × Input E) : Prop :=
  c.state = .terminating →
    match input.2 with
    | .system .create => False
    | .system (.recreate _) => c.instances = 0 ∨ input.1.stopChildrenOnRestart = true
    | _ => True

lemma steady_onRecreate (hstate : c.state = .terminating) (cause : Failure E)
    (hsize : 0 < c.children.size) (h : c.instances = 0 ∨ conduct.stopChildrenOnRestart = true) :
    Steady c (c.onRecreate config conduct cause) := by
  unfold onRecreate
  split
  · exact .refl c
  · next hinstances =>
    rw [perform_of_stopping (.inl hstate)]
    rw [if_pos ⟨h.resolve_left hinstances, hsize⟩]
    exact ((Steady.refl c).changed (by rfl) (by rfl) (by rfl) (by rfl)).tellChildren _

lemma steady_onResume (hstate : c.state = .terminating) : Steady c c.onResume := by
  have hsuspended : ({ c with mailboxSuspended := false } : Cell E).state ≠ .suspended :=
    fun h => absurd (h.symm.trans hstate) (by simp)
  unfold onResume resumeMailbox
  dsimp only
  rw [if_neg hsuspended]
  exact ((Steady.refl c).changed (by rfl) (by rfl) (by rfl) (by rfl)).tellChildren _

lemma steady_handle (hstate : c.state = .terminating) (hsize : 0 < c.children.size)
    (input : Input E) (hinput : ∀ name, input ≠ .system (.childTerminated name))
    (h : c.Undisturbed (conduct, input)) : Steady c (c.handle config conduct input) := by
  have hrunning : c.state ≠ .running := fun h => absurd (h.symm.trans hstate) (by simp)
  cases input with
  | user message =>
    have hnot : ¬ (c.state = .running ∧ c.mailboxSuspended = false) := fun h => hrunning h.1
    change Steady c (if _ then _ else c)
    rw [if_neg hnot]
    exact .refl c
  | system command =>
    cases command with
    | create => exact (h hstate).elim
    | terminate =>
      change Steady c (c.onTerminate config)
      unfold onTerminate
      rw [if_pos (.inr hstate)]
      exact .refl c
    | recreate cause => exact steady_onRecreate hstate cause hsize (h hstate)
    | suspend => exact ((Steady.refl c).suspendSelf hrunning).tellChildren _
    | resume => exact steady_onResume hstate
    | failure cause child => exact (Steady.refl c).onFailure hrunning cause child
    | childTerminated name => exact absurd rfl (hinput name)
    | watchNotify => exact .refl c
    | receiveTimeout =>
      change Steady c (c.onReceiveTimeout config conduct)
      unfold onReceiveTimeout
      rw [if_pos hrunning]
      exact .refl c

lemma Ending.onChildTerminated {past : List (Effect E)} (hstate : c.state = .terminating)
    (hinstances : c.instances = instances) (heffects : c.effects = []) (hstops : stops past = 0)
    (hall : config.terminationOrder = none → ∀ name ∈ c.children.keys, ToldToStop past name)
    (name : ActorName) :
    Ending config instances (past ++ (c.onChildTerminated config conduct name).effects)
      (c.onChildTerminated config conduct name) := by
  have hleft : config.terminationOrder = none →
      ∀ other ∈ (c.children.delete name).keys, ToldToStop past other := fun hnone other hother =>
    hall hnone other ((c.children.mem_keys_delete name other).1 hother).1
  unfold Cell.onChildTerminated
  dsimp only
  split
  · rw [if_neg (fun h => h.1 hstate)]
    exact .continueTermination hstate hinstances heffects hstops hleft
  · exact .continueTermination hstate hinstances heffects hstops hleft

lemma children_finalizeTermination (c : Cell E) :
    (c.finalizeTermination config).children = c.children := by
  unfold finalizeTermination
  split <;> rfl

lemma children_terminateFrom (c : Cell E) (order : List ActorName) :
    (c.terminateFrom config order).children = c.children := by
  induction order generalizing c with
  | nil =>
    unfold terminateFrom
    dsimp only
    split
    · exact children_finalizeTermination _
    · rfl
  | cons name order ih =>
    unfold terminateFrom
    dsimp only
    split
    · rfl
    · exact ih _

lemma children_continueTermination (c : Cell E) :
    (c.continueTermination config).children = c.children := by
  unfold continueTermination
  split
  · rfl
  · split
    · exact children_terminateFrom c _
    · split
      · exact children_finalizeTermination c
      · rfl

lemma children_onChildTerminated (hstate : c.state = .terminating) (name : ActorName) :
    (c.onChildTerminated config conduct name).children = c.children.delete name := by
  unfold onChildTerminated
  dsimp only
  split
  · rw [if_neg (fun h => h.1 hstate)]
    exact children_continueTermination _
  · exact children_continueTermination _

variable {input : Conduct E × Input E}

lemma step_of_terminating (hstate : c.state = .terminating) (hsize : 0 < c.children.size)
    (hinput : c.Undisturbed input) :
    (∃ name, input.2 = .system (.childTerminated name) ∧ c.step config input =
      { c with effects := [] }.onChildTerminated config input.1 name) ∨
    (∀ name, input.2 ≠ .system (.childTerminated name)) ∧
      Steady { c with effects := [] } (c.step config input) := by
  have hstep : c.step config input = { c with effects := [] }.handle config input.1 input.2 :=
    if_neg (fun h => absurd (h.symm.trans hstate) (by simp))
  rw [hstep]
  by_cases hchild : ∃ name, input.2 = .system (.childTerminated name)
  · obtain ⟨name, hname⟩ := hchild
    exact .inl ⟨name, hname, by rw [hname]; rfl⟩
  · rw [not_exists] at hchild
    exact .inr ⟨hchild,
      steady_handle (c := { c with effects := [] }) hstate hsize input.2 hchild hinput⟩

variable (config) in
lemma Ending.after {past : List (Effect E)} (hinput : c.Undisturbed input)
    (h : Ending config instances past c) :
    Ending config instances (past ++ c.told config input) (c.step config input) := by
  have hending := h
  cases h with
  | done hstate =>
    have hstep : c.step config input = { c with effects := [] } := if_pos hstate
    unfold told
    rw [hstep]
    exact hending.steady (.refl _)
  | waiting hstate hinstances hstops htold hall =>
    obtain ⟨name, hname, -⟩ := htold
    have hsize : 0 < c.children.size := by
      rw [← c.children.length_keys]
      exact length_pos_of_mem hname
    unfold told
    rcases step_of_terminating hstate hsize hinput with ⟨child, -, hstep⟩ | ⟨-, hsteady⟩
    · rw [hstep]
      exact Ending.onChildTerminated (c := { c with effects := [] }) hstate hinstances rfl hstops
        hall child
    · exact hending.steady hsteady

variable (config) in
lemma Ending.notMem_keys {past : List (Effect E)} (hinput : c.Undisturbed input)
    (h : Ending config instances past c) {name : ActorName}
    (hname : name ∉ c.children.keys ∨ input.2 = .system (.childTerminated name)) :
    name ∉ (c.step config input).children.keys := by
  cases h with
  | done hstate _ _ hchildren =>
    have hstep : c.step config input = { c with effects := [] } := if_pos hstate
    have hkeys : c.children.keys = [] :=
      eq_nil_of_length_eq_zero (by rw [c.children.length_keys, hchildren])
    rw [hstep]
    exact hkeys ▸ not_mem_nil
  | waiting hstate _ _ htold _ =>
    obtain ⟨other, hother, -⟩ := htold
    have hsize : 0 < c.children.size := by
      rw [← c.children.length_keys]
      exact length_pos_of_mem hother
    rcases step_of_terminating hstate hsize hinput with
      ⟨child, hchild, hstep⟩ | ⟨hnone, hsteady⟩
    · rw [hstep, children_onChildTerminated (c := { c with effects := [] }) hstate,
        OrderedMap.mem_keys_delete]
      rintro ⟨hmem, hne⟩
      rcases hname with hgone | hreport
      · exact hgone hmem
      · rw [hchild] at hreport
        injection hreport with hreport
        injection hreport with hreport
        exact hne hreport
    · rw [hsteady.children]
      exact hname.resolve_right (hnone name)

variable (config) in
lemma Ending.notMem_keys_run {past : List (Effect E)} {inputs : List (Conduct E × Input E)}
    (hinputs : Machine.Along (step config) Undisturbed c inputs)
    (h : Ending config instances past c) {name : ActorName} (hname : name ∉ c.children.keys ∨
      ∃ conduct, (conduct, .system (.childTerminated name)) ∈ inputs) :
    name ∉ (run (step config) c inputs).children.keys := by
  induction inputs generalizing c past with
  | nil => exact hname.resolve_right fun ⟨_, hmem⟩ => absurd hmem not_mem_nil
  | cons input inputs ih =>
    refine ih hinputs.2 (h.after config hinputs.1) ?_
    rcases hname with hgone | ⟨conduct, hmem⟩
    · exact .inl (h.notMem_keys config hinputs.1 (.inl hgone))
    · rcases mem_cons.1 hmem with heq | hmem
      · exact .inl (h.notMem_keys config hinputs.1 (.inr (by rw [← heq])))
      · exact .inr ⟨conduct, hmem⟩

def OrdersStop (c : Cell E) : Input E → Prop
  | .system .terminate => True
  | .user .poisonPill => c.state = .running ∧ c.mailboxSuspended = false
  | _ => False

lemma step_of_ordersStop {stop : Conduct E × Input E}
    (hstate : c.state ≠ .terminating ∧ c.state ≠ .terminated) (hstop : c.OrdersStop stop.2) :
    c.step config stop = { c with effects := [] }.onTerminate config := by
  have hstep : c.step config stop = { c with effects := [] }.handle config stop.1 stop.2 :=
    if_neg hstate.2
  rw [hstep]
  match hinput : stop.2, hstop with
  | .system .terminate, _ => rfl
  | .user .poisonPill, hstop => exact if_pos hstop

/-- A cell that was told to stop only stops: it makes no instance, is done when its last child is
gone, and says so once. -/
theorem stops_once (config : CellConfig) (c : Cell E) (stop : Conduct E × Input E)
    (later : List (Conduct E × Input E))
    (hstate : c.state ≠ .terminating ∧ c.state ≠ .terminated) (hstop : c.OrdersStop stop.2)
    (hlater : Machine.Along (step config) Undisturbed (c.step config stop) later) :
    let d := run (step config) c (stop :: later)
    let past := log (step config) (told config) c (stop :: later)
    (d.state = .terminating ∨ d.state = .terminated) ∧ d.instances = c.instances ∧
      stops past = (if d.state = .terminated then 1 else 0) ∧
      (d.state = .terminated ↔ d.children.size = 0) ∧
      ((∀ name, ToldToStop past name →
        ∃ conduct, (conduct, .system (.childTerminated name)) ∈ later) →
        d.state = .terminated) := by
  intro d past
  have hstart : Ending config c.instances (c.told config stop) (c.step config stop) := by
    unfold told
    rw [step_of_ordersStop hstate hstop]
    exact .onTerminate hstate rfl rfl
  have hend : Ending config c.instances past d :=
    invariant_log (I := Ending config c.instances)
      (fun _ _ _ hinput h => h.after config hinput) hlater hstart
  cases hend with
  | done hdone hinstances hstops hchildren =>
    exact ⟨.inr hdone, hinstances, by rw [hstops, if_pos hdone], by simp [hdone, hchildren],
      fun _ => hdone⟩
  | waiting hwaiting hinstances hstops htold hall =>
    have hnot : d.state ≠ .terminated := fun h => absurd (h.symm.trans hwaiting) (by simp)
    obtain ⟨name, hname, htold⟩ := htold
    have hsize : d.children.size ≠ 0 := by
      rw [← d.children.length_keys]
      exact (length_pos_of_mem hname).ne'
    refine ⟨.inl hwaiting, hinstances, by rw [hstops, if_neg hnot], by simp [hnot, hsize],
      fun hreported => ?_⟩
    exact absurd hname (hstart.notMem_keys_run config hlater (.inr (hreported name htold)))

/-- A cell that has started with one child. -/
def started (config : CellConfig) : Cell Unit :=
  ({} : Cell Unit).step config ({ preStart := { spawns := [("child", {})] } }, .system .create)

/-- A restart, as one that was granted for a sibling, behind the order to stop. -/
def restart (stopChildrenOnRestart : Bool) : Conduct Unit × Input Unit :=
  ({ stopChildrenOnRestart := stopChildrenOnRestart }, .system (.recreate .killed))

def serviceConfig : CellConfig where
  name := "service"

/-- A restart that waits for the children is over when the last one is gone, and so is the
cell. -/
theorem stops_once_restart :
    (run (step serviceConfig) (started serviceConfig) [({}, .system .terminate), restart true,
        ({}, .system (.childTerminated "child"))]).state = .terminated := by
  refine (stops_once serviceConfig (started serviceConfig) ({}, .system .terminate)
    [restart true, ({}, .system (.childTerminated "child"))] (by decide +kernel) trivial
    ⟨fun _ => .inr rfl, fun _ => trivial, trivial⟩).2.2.2.2 ?_
  intro name htold
  have hname : name = "child" := by
    have heffects : log (step serviceConfig) (told serviceConfig) (started serviceConfig)
        [({}, .system .terminate), restart true, ({}, .system (.childTerminated "child"))] =
        [.tellChild "child" .terminate, .tellChild "child" .terminate,
          .published .stopped, .tellParent (.childTerminated "service")] := rfl
    rw [ToldToStop, heffects] at htold
    simpa using htold
  exact ⟨{}, by rw [hname]; simp⟩

/-- A restart of an instance that keeps its children revives a cell that was told to stop. -/
theorem not_stops_once :
    ¬ ∀ (config : CellConfig) (c : Cell Unit) (stop : Conduct Unit × Input Unit)
      (later : List (Conduct Unit × Input Unit)),
      c.state ≠ .terminating ∧ c.state ≠ .terminated → c.OrdersStop stop.2 →
      (run (step config) c (stop :: later)).state = .terminating ∨
        (run (step config) c (stop :: later)).state = .terminated := by
  intro h
  have hrun := h serviceConfig (started serviceConfig) ({}, .system .terminate) [restart false]
    (by decide +kernel) trivial
  exact absurd hrun (by decide +kernel)

end Cell

end ActorTs.Actor
