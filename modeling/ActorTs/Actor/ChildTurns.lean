import ActorTs.Actor.Termination

/-!
# What becomes of a cell in a step

A cell that is given one input ends, or reports a failure to its parent, or goes on. It is
suspended without having reported a failure only where it was before, or was told to, or
waits with a restart for its children to stop; and it is without an instance only where it
was before.
-/

open List Nat

namespace ActorTs.Actor

variable {E : Type}

/-- The commands that a cell gives its parent. -/
def reported (effects : List (Effect E)) : List (SystemCommand E) :=
  effects.filterMap fun
    | .tellParent command => some command
    | _ => none

/-- The children that a cell tells to stop. -/
def ordered (effects : List (Effect E)) : List ActorName :=
  effects.filterMap fun
    | .tellChild child .terminate => some child
    | _ => none

lemma reported_append (past new : List (Effect E)) :
    reported (past ++ new) = reported past ++ reported new :=
  filterMap_append

lemma ordered_append (past new : List (Effect E)) :
    ordered (past ++ new) = ordered past ++ ordered new :=
  filterMap_append

lemma reported_tellAll (names : List ActorName) (command : SystemCommand E) :
    reported (names.map fun name => .tellChild name command) = [] := by
  rw [reported, filterMap_map]
  exact filterMap_eq_nil_iff.2 fun _ _ => rfl

lemma mem_ordered_tellAll {names : List ActorName} {name : ActorName} (h : name ∈ names) :
    name ∈ ordered (names.map fun name => .tellChild name (.terminate : SystemCommand E)) :=
  mem_filterMap.2 ⟨_, mem_map_of_mem h, rfl⟩

namespace Cell

variable {n : ActorName} {conduct : Conduct E} {base : List ActorName}

/-- All children that the cell has were told to stop, in this step or before. -/
def AllOrdered (base : List ActorName) (c : Cell E) : Prop :=
  c.children.size ≠ 0 ∧ ∀ name ∈ c.children.keys, name ∈ base ++ ordered c.effects

/-- A restart waits for children that were all told to stop. -/
def Parked (base : List ActorName) (c : Cell E) : Prop :=
  c.pendingRecreate.isSome ∧ c.AllOrdered base

/-- What holds of a cell between its steps. -/
structure Sound (base : List ActorName) (c : Cell E) : Prop where
  running : c.state = .running → c.mailboxSuspended = false
  made : c.state = .running ∨ c.state = .suspended → c.instances ≠ 0
  creating : c.state = .creating →
    c.instances = 0 ∧ c.children.keys = [] ∧ c.pendingRecreate = none
  terminating : c.state = .terminating → c.AllOrdered base

/-- The cell is as it was, and has told its parent nothing. -/
structure Held (c d : Cell E) : Prop where
  state : d.state = c.state
  instances : d.instances = c.instances
  children : d.children = c.children
  effects : ∃ new, d.effects = c.effects ++ new ∧ reported new = []

namespace Held

variable {c d : Cell E}

lemma refl (c : Cell E) : Held c c := ⟨rfl, rfl, rfl, [], by simp, rfl⟩

lemma changed {e : Cell E} (h : Held c d) (hstate : e.state = d.state)
    (hinstances : e.instances = d.instances)
    (hchildren : e.children = d.children)
    (heffects : e.effects = d.effects) : Held c e :=
  ⟨hstate.trans h.state, hinstances.trans h.instances, hchildren.trans h.children,
    heffects ▸ h.effects⟩

lemma tellAll (h : Held c d) (names : List ActorName) (command : SystemCommand E) :
    Held c (d.tellAll names command) := by
  obtain ⟨new, hnew, hreported⟩ := h.effects
  refine ⟨h.state, h.instances, h.children, _, by rw [Cell.tellAll, hnew, append_assoc], ?_⟩
  rw [reported_append, hreported, reported_tellAll, append_nil]

lemma tellChildren (h : Held c d) (command : SystemCommand E) :
    Held c (d.tellChildren command) :=
  h.tellAll _ command

lemma reported_eq (h : Held c d) : reported d.effects = reported c.effects := by
  obtain ⟨new, hnew, hreported⟩ := h.effects
  rw [hnew, reported_append, hreported, append_nil]

lemma allOrdered (h : Held c d) (hc : c.AllOrdered base) : d.AllOrdered base := by
  obtain ⟨new, hnew, -⟩ := h.effects
  refine ⟨by rw [h.children]; exact hc.1, fun name hname => ?_⟩
  rw [h.children] at hname
  rw [hnew, ordered_append, ← append_assoc]
  exact mem_append_left _ (hc.2 name hname)

lemma parked (h : Held c d) (hpending : d.pendingRecreate = c.pendingRecreate)
    (hc : c.Parked base) : d.Parked base :=
  ⟨hpending ▸ hc.1, h.allOrdered hc.2⟩

lemma sound (h : Held c d) (hc : c.Sound base)
    (hmailbox : d.state = .running → d.mailboxSuspended = false)
    (hpending : d.pendingRecreate = c.pendingRecreate) : d.Sound base := by
  refine ⟨hmailbox, ?_, ?_, ?_⟩
  · rw [h.state, h.instances]
    exact hc.made
  · rw [h.state, h.instances, h.children, hpending]
    exact hc.creating
  · rw [h.state]
    exact fun hstate => h.allOrdered (hc.terminating hstate)

end Held

lemma Sound.awake {c : Cell E} (hstate : c.state = .running ∨ c.state = .suspended)
    (hmailbox : c.state = .running → c.mailboxSuspended = false) (hmade : c.instances ≠ 0) :
    c.Sound base := by
  refine ⟨hmailbox, fun _ => hmade, fun h => ?_, fun h => ?_⟩
  · rw [h] at hstate
    exact absurd hstate (by simp)
  · rw [h] at hstate
    exact absurd hstate (by simp)

lemma perform_frame (c : Cell E) (hook : Hook E) :
    (c.perform hook).state = c.state ∧ (c.perform hook).instances = c.instances ∧
      (c.perform hook).mailboxSuspended = c.mailboxSuspended ∧
      reported (c.perform hook).effects = reported c.effects := by
  unfold perform
  induction hook.spawns generalizing c with
  | nil => exact ⟨rfl, rfl, rfl, rfl⟩
  | cons spawn spawns ih =>
    have hone : (c.createChild spawn.1 spawn.2).state = c.state ∧
        (c.createChild spawn.1 spawn.2).instances = c.instances ∧
        (c.createChild spawn.1 spawn.2).mailboxSuspended = c.mailboxSuspended ∧
        reported (c.createChild spawn.1 spawn.2).effects = reported c.effects := by
      unfold createChild
      split
      · exact ⟨rfl, rfl, rfl, rfl⟩
      · split
        · exact ⟨rfl, rfl, rfl, rfl⟩
        · refine ⟨rfl, rfl, rfl, ?_⟩
          rw [emit, reported_append]
          exact append_nil _
    obtain ⟨hstate, hinstances, hmailbox, hreported⟩ := ih (c.createChild spawn.1 spawn.2)
    exact ⟨hstate.trans hone.1, hinstances.trans hone.2.1, hmailbox.trans hone.2.2.1,
      hreported.trans hone.2.2.2⟩

lemma Sound.perform {c : Cell E} (h : c.Sound base) (hstate : c.state ≠ .creating)
    (hook : Hook E) : (c.perform hook).Sound base := by
  obtain ⟨hsame, hinstances, hmailbox, -⟩ := c.perform_frame hook
  by_cases hstopping : c.state = .terminating ∨ c.state = .terminated
  · rw [perform_of_stopping hstopping]
    exact h
  · have hawake : c.state = .running ∨ c.state = .suspended := by
      cases hc : c.state <;> simp_all
    refine Sound.awake (by rw [hsame]; exact hawake) ?_ ?_
    · rw [hsame, hmailbox]
      exact h.running
    · rw [hinstances]
      exact h.made hawake

/-- A cell has ended, or reported a failure, or goes on. Where it goes on suspended or
without an instance, this is accounted for. -/
inductive Outcome (n : ActorName) (base : List ActorName) (idle unmade : Prop) (d : Cell E) :
    Prop where
  | ended (hstate : d.state = .terminated) (hreports : reported d.effects = [.childTerminated n])
  | failed (cause : Failure E) (hsound : d.Sound base) (hlive : d.state ≠ .terminated)
      (hreports : reported d.effects = [.failure cause n])
  | goesOn (hsound : d.Sound base) (hlive : d.state ≠ .terminated)
      (hreports : reported d.effects = [])
      (hsuspended : d.state = .suspended → idle ∨ d.Parked base)
      (hcreating : d.state = .creating → unmade)

variable {idle unmade : Prop} {c : Cell E}

lemma AllOrdered.emit (h : c.AllOrdered base) (x : Effect E) : (c.emit x).AllOrdered base := by
  refine ⟨h.1, fun name hname => ?_⟩
  change name ∈ base ++ ordered (c.effects ++ [x])
  rw [ordered_append, ← append_assoc]
  exact mem_append_left _ (h.2 name hname)

lemma Sound.emit (h : c.Sound base) (x : Effect E) : (c.emit x).Sound base :=
  ⟨h.running, h.made, h.creating, fun hstate => (h.terminating hstate).emit x⟩

lemma Sound.suspendSelf (h : c.Sound base) : c.suspendSelf.Sound base := by
  unfold Cell.suspendSelf
  dsimp only
  split
  · next hrunning => exact .awake (.inr rfl) nofun (h.made (.inl hrunning))
  · next hnot =>
    exact ((Held.refl c).changed (by rfl) (by rfl) (by rfl) (by rfl)).sound h
      (fun hrunning => absurd hrunning hnot) rfl

lemma suspendSelf_frame (c : Cell E) :
    c.suspendSelf.effects = c.effects ∧ c.suspendSelf.children = c.children ∧
      c.suspendSelf.pendingRecreate = c.pendingRecreate ∧
      (c.suspendSelf.state = c.state ∨ c.suspendSelf.state = .suspended) := by
  unfold suspendSelf
  dsimp only
  split
  · exact ⟨rfl, rfl, rfl, .inr rfl⟩
  · exact ⟨rfl, rfl, rfl, .inl rfl⟩

lemma Sound.tellChildren (h : c.Sound base) (command : SystemCommand E) :
    (c.tellChildren command).Sound base :=
  ((Held.refl c).tellChildren command).sound h h.running rfl

lemma Outcome.failToParent (h : c.Sound base) (hlive : c.state ≠ .terminated)
    (hreports : reported c.effects = []) (cause : Failure E) :
    Outcome n base idle unmade (c.failToParent { name := n } cause) := by
  obtain ⟨heffects, -, -, hstate⟩ := c.suspendSelf_frame
  have hfailed : c.failToParent { name := n } cause =
      (c.suspendSelf.tellChildren .suspend).emit (.tellParent (.failure cause n)) := rfl
  rw [hfailed]
  refine .failed cause ((h.suspendSelf.tellChildren _).emit _) ?_ ?_
  · change c.suspendSelf.state ≠ .terminated
    rcases hstate with hstate | hstate
    · rw [hstate]
      exact hlive
    · simp [hstate]
  · have htold := ((Held.refl c.suspendSelf).tellChildren (.suspend : SystemCommand E)).reported_eq
    rw [Cell.emit, reported_append, htold, heffects, hreports]
    rfl

lemma Outcome.completeRecreate (h : c.Sound base) (hlive : c.state ≠ .terminated)
    (hmade : c.state ≠ .creating) (hreports : reported c.effects = []) :
    Outcome n base idle unmade (c.completeRecreate { name := n } conduct) := by
  unfold Cell.completeRecreate
  split
  · exact .failToParent h hlive hreports _
  · have hnext : ({ c with instances := c.instances + 1 } : Cell E).Sound base :=
      ⟨h.running, fun _ => succ_ne_zero _, fun hstate => absurd hstate hmade, h.terminating⟩
    obtain ⟨hstate, hinstances, -, hsaid⟩ :=
      perform_frame { c with instances := c.instances + 1 } conduct.postRestart
    split
    · refine .failToParent (hnext.perform hmade _) ?_ (hsaid.trans hreports) _
      rw [hstate]
      exact hlive
    · have htold := ((Held.refl
        ({ c with instances := c.instances + 1 }.perform conduct.postRestart)).tellChildren
          (.resume : SystemCommand E)).reported_eq
      refine .goesOn (.awake (.inl rfl) (fun _ => rfl) ?_) nofun ?_ nofun nofun
      · change Cell.instances (Cell.perform _ _) ≠ 0
        rw [hinstances]
        exact succ_ne_zero _
      · refine (reported_append _ _).trans ((append_nil _).trans ?_)
        exact htold.trans (hsaid.trans hreports)

lemma Outcome.finalizeTermination (hreports : reported c.effects = []) :
    Outcome n base idle unmade (c.finalizeTermination { name := n }) := by
  refine .ended rfl ?_
  change reported ((c.effects ++ [.published .stopped]) ++ [_]) = _
  rw [reported_append, reported_append, hreports]
  rfl

lemma allOrdered_tellChildren (hsize : c.children.size ≠ 0) :
    (c.tellChildren .terminate).AllOrdered base := by
  refine ⟨hsize, fun name hname => ?_⟩
  change name ∈ base ++ ordered (c.effects ++ _)
  rw [ordered_append, ← append_assoc]
  exact mem_append_right _ (mem_ordered_tellAll hname)

lemma Outcome.stopping (hreports : reported c.effects = []) :
    let d := (c.setState .terminating).tellChildren .terminate
    Outcome n base idle unmade
      (if d.children.size = 0 then d.finalizeTermination { name := n } else d) := by
  intro d
  have hsaid : reported d.effects = [] :=
    ((Held.refl (c.setState .terminating)).tellChildren _).reported_eq.trans hreports
  split
  · exact .finalizeTermination hsaid
  · next hsize =>
    exact .goesOn ⟨nofun, fun h => h.elim nofun nofun, nofun,
      fun _ => allOrdered_tellChildren hsize⟩ nofun hsaid nofun nofun

lemma Outcome.held {d : Cell E} (hheld : Held c d) (h : c.Sound base)
    (hlive : c.state ≠ .terminated) (hreports : reported c.effects = [])
    (hmailbox : d.state = .running → d.mailboxSuspended = false)
    (hpending : d.pendingRecreate = c.pendingRecreate)
    (hsuspended : c.state = .suspended → idle ∨ c.Parked base)
    (hcreating : c.state = .creating → unmade) : Outcome n base idle unmade d := by
  refine .goesOn (hheld.sound h hmailbox hpending) (by rw [hheld.state]; exact hlive)
    (hheld.reported_eq.trans hreports) (fun hstate => ?_) (fun hstate => ?_)
  · rw [hheld.state] at hstate
    exact (hsuspended hstate).imp_right (hheld.parked hpending)
  · rw [hheld.state] at hstate
    exact hcreating hstate

section

variable (h : c.Sound base)
include h

section

variable (hlive : c.state ≠ .terminated)
include hlive

section

variable (hreports : reported c.effects = [])
include hreports

lemma Outcome.onTerminate : Outcome n base idle unmade (c.onTerminate { name := n }) := by
  unfold Cell.onTerminate
  split
  · next hstate =>
    have hstopping := hstate.resolve_left hlive
    exact .held (.refl c) h hlive hreports h.running rfl (by simp [hstopping]) (by simp [hstopping])
  · exact .stopping hreports

lemma Outcome.onRecreate (cause : Failure E) (hcreating : c.state = .creating → unmade) :
    Outcome n base idle unmade (c.onRecreate { name := n } conduct cause) := by
  unfold Cell.onRecreate
  split
  · next hnone =>
    refine .held (.refl c) h hlive hreports h.running rfl (fun hstate => ?_) hcreating
    exact absurd hnone (h.made (.inr hstate))
  · next hsome =>
    have hmade : c.state ≠ .creating := fun hstate => hsome (h.creating hstate).1
    obtain ⟨hstate, hinstances, -, hsaid⟩ := c.perform_frame conduct.preRestart
    have hlive' : (c.perform conduct.preRestart).state ≠ .terminated := by
      rw [hstate]
      exact hlive
    have hmade' : (c.perform conduct.preRestart).state ≠ .creating := by
      rw [hstate]
      exact hmade
    dsimp only
    split
    · next hstop =>
      have hparked :
          (c.perform conduct.preRestart |>.tellChildren .terminate).AllOrdered base :=
        allOrdered_tellChildren (pos_iff_ne_zero.1 hstop.2)
      refine .goesOn ⟨(h.perform hmade _).running, (h.perform hmade _).made,
        fun hstate => absurd hstate hmade', fun _ => hparked⟩ hlive' ?_
        (fun _ => .inr ⟨rfl, hparked⟩) (fun hstate => absurd hstate hmade')
      exact ((Held.refl (c.perform conduct.preRestart)).tellChildren _).reported_eq.trans
        (hsaid.trans hreports)
    · exact .completeRecreate (h.perform hmade _) hlive' hmade' (hsaid.trans hreports)

lemma Outcome.onSuspend (hidle : idle)
    (hcreating : c.state = .creating → unmade) : Outcome n base idle unmade c.onSuspend := by
  obtain ⟨heffects, -, -, hstate⟩ := c.suspendSelf_frame
  refine .goesOn (h.suspendSelf.tellChildren _) ?_ ?_ (fun _ => .inl hidle) ?_
  · change c.suspendSelf.state ≠ .terminated
    rcases hstate with hstate | hstate
    · rw [hstate]
      exact hlive
    · simp [hstate]
  · refine ((Held.refl c.suspendSelf).tellChildren _).reported_eq.trans ?_
    rw [heffects, hreports]
  · change c.suspendSelf.state = .creating → unmade
    rcases hstate with hstate | hstate
    · rw [hstate]
      exact hcreating
    · simp [hstate]

lemma Outcome.onResume
    (hcreating : c.state = .creating → unmade) : Outcome n base idle unmade c.onResume := by
  unfold Cell.onResume
  dsimp only
  split
  · next hstate =>
    refine .goesOn (.awake (.inl rfl) (fun _ => rfl) (h.made (.inr hstate))) nofun ?_ nofun nofun
    exact ((Held.refl _).tellChildren _).reported_eq.trans hreports
  · next hstate =>
    exact .held (((Held.refl c).changed (by rfl) (by rfl) (by rfl) (by rfl)).tellChildren _)
      h hlive hreports (fun _ => rfl) rfl
      (fun hsuspended => absurd hsuspended hstate) hcreating

lemma Outcome.onFailure (cause : Failure E) (name : ActorName)
    (hsuspended : c.state = .suspended → idle ∨ c.Parked base)
    (hcreating : c.state = .creating → unmade) :
    Outcome n base idle unmade (c.onFailure { name := n } conduct cause name) := by
  unfold Cell.onFailure
  split
  · exact .held (.refl c) h hlive hreports h.running rfl hsuspended hcreating
  · dsimp only
    split
    · exact .held ((Held.refl c).tellAll _ _) h hlive hreports h.running rfl hsuspended hcreating
    · exact .held (((Held.refl c).changed (by rfl) (by rfl) (by rfl) (by rfl)).tellAll _ _)
        h hlive hreports h.running rfl hsuspended
        hcreating
    · exact .held ((Held.refl c).tellAll _ _) h hlive hreports h.running rfl hsuspended hcreating
    · exact .failToParent h hlive hreports _

end

end

lemma Outcome.handleUserMessage (hstate : c.state = .running) (hreports : reported c.effects = [])
    (message : UserMessage) :
    Outcome n base idle unmade (c.handleUserMessage { name := n } conduct message) := by
  have hlive : c.state ≠ .terminated := by simp [hstate]
  have hmade : c.state ≠ .creating := by simp [hstate]
  cases message with
  | poisonPill => exact .onTerminate h hlive hreports
  | kill => exact .failToParent h hlive hreports _
  | application =>
    obtain ⟨hsame, hinstances, -, hsaid⟩ := c.perform_frame conduct.onReceive
    have hrunning : (c.perform conduct.onReceive).state = .running := hsame.trans hstate
    unfold Cell.handleUserMessage
    dsimp only
    split
    · exact .failToParent (h.perform hmade _) (by simp [hrunning]) (hsaid.trans hreports) _
    · exact .goesOn (h.perform hmade _) (by simp [hrunning]) (hsaid.trans hreports)
        (by simp [hrunning]) (by simp [hrunning])

lemma Outcome.onCreate (hstate : c.state = .creating) (hmailbox : c.mailboxSuspended = false)
    (hreports : reported c.effects = []) :
    Outcome n base idle unmade (c.onCreate { name := n } conduct) := by
  unfold Cell.onCreate
  split
  · exact .failToParent h (by simp [hstate]) hreports _
  · have hnext : ({ c with instances := c.instances + 1, state := .running } : Cell E).Sound base :=
      .awake (.inl rfl) (fun _ => hmailbox) (succ_ne_zero _)
    obtain ⟨hsame, -, -, hsaid⟩ :=
      perform_frame { c with instances := c.instances + 1, state := .running } conduct.preStart
    have hrunning := hnext.perform nofun conduct.preStart
    split
    · exact .failToParent hrunning (by simp [hsame]) (hsaid.trans hreports) _
    · refine .goesOn (hrunning.emit _) (by simp [emit, hsame]) ?_ (by simp [emit, hsame])
        (by simp [emit, hsame])
      rw [emit, reported_append, hsaid, hreports]
      rfl

end

/-- The names of the children that were told to stop, but for one. -/
def others (base : List ActorName) (name : ActorName) : List ActorName :=
  base.filter fun other => other ≠ name

lemma allOrdered_delete (hc : c.AllOrdered base) {name : ActorName} {d : Cell E}
    (hsize : d.children.size ≠ 0) (hchildren : d.children = c.children.delete name)
    (heffects : d.effects = []) (hnone : c.effects = []) : d.AllOrdered (others base name) := by
  refine ⟨hsize, fun other hother => ?_⟩
  rw [hchildren, OrderedMap.mem_keys_delete] at hother
  have hmem := hc.2 other hother.1
  rw [hnone] at hmem
  rw [heffects]
  simp only [ordered, filterMap_nil, append_nil] at hmem ⊢
  exact mem_filter.2 ⟨hmem, by simpa using Ne.symm hother.2⟩

lemma Sound.delete (h : c.Sound base) (hstopping : c.state ≠ .terminating)
    (hlive : c.state ≠ .terminated) (name : ActorName) (base' : List ActorName) :
    ({ c with children := c.children.delete name } : Cell E).Sound base' := by
  by_cases hcreating : c.state = .creating
  · obtain ⟨hinstances, hkeys, hpending⟩ := h.creating hcreating
    have hnone : (c.children.delete name).keys = [] := by
      refine eq_nil_iff_forall_not_mem.2 fun other hother => ?_
      have hmem := ((c.children.mem_keys_delete name other).1 hother).1
      rw [hkeys] at hmem
      exact not_mem_nil hmem
    exact ⟨h.running, h.made, fun _ => ⟨hinstances, hnone, hpending⟩,
      fun hstate => absurd hstate hstopping⟩
  · have hawake : c.state = .running ∨ c.state = .suspended := by
      cases hc : c.state <;> simp_all
    exact .awake hawake h.running (h.made hawake)

lemma Outcome.continueTermination {name : ActorName} (h : c.Sound base)
    (hstate : c.state = .terminating) (heffects : c.effects = []) {d : Cell E}
    (hdstate : d.state = .terminating) (hchildren : d.children = c.children.delete name)
    (hdeffects : d.effects = []) :
    Outcome n (others base name) idle unmade (d.continueTermination { name := n }) := by
  have hunordered : ({ name := n } : CellConfig).terminationOrder.isSome ≠ true := nofun
  have hreports : reported d.effects = [] := by rw [hdeffects]; rfl
  unfold Cell.continueTermination
  rw [if_neg (by simp [hdstate]), if_neg hunordered]
  split
  · exact .finalizeTermination hreports
  · next hsize =>
    have hall := allOrdered_delete (h.terminating hstate) hsize hchildren hdeffects heffects
    exact .goesOn ⟨by simp [hdstate], by simp [hdstate], by simp [hdstate], fun _ => hall⟩
      (by simp [hdstate]) hreports (by simp [hdstate]) (by simp [hdstate])

lemma Outcome.onChildTerminated (h : c.Sound base) (hlive : c.state ≠ .terminated)
    (heffects : c.effects = []) (name : ActorName)
    (hsuspended : c.state = .suspended → idle ∨ c.Parked base)
    (hcreating : c.state = .creating → unmade) :
    Outcome n (others base name) idle unmade (c.onChildTerminated { name := n } conduct name) := by
  have hreports : reported c.effects = [] := by rw [heffects]; rfl
  unfold Cell.onChildTerminated
  dsimp only
  split
  · next hlast =>
    split
    · next hstate =>
      have hmade : c.state ≠ .creating := by
        intro hcreating
        rw [(h.creating hcreating).2.2] at hlast
        exact nomatch hlast.1
      have hawake : c.state = .running ∨ c.state = .suspended := by
        cases hc : c.state <;> simp_all
      exact .completeRecreate (.awake hawake h.running (h.made hawake)) hlive hmade hreports
    · next hstate =>
      have hstopping : c.state = .terminating := by
        by_contra hnot
        exact hstate ⟨hnot, hlive⟩
      exact .continueTermination h hstopping heffects hstopping rfl heffects
  · next hmore =>
    by_cases hstopping : c.state = .terminating
    · exact .continueTermination h hstopping heffects hstopping rfl heffects
    · unfold Cell.continueTermination
      rw [if_pos hstopping]
      refine .goesOn (h.delete hstopping hlive name _) hlive hreports (fun hstate => ?_) hcreating
      refine (hsuspended hstate).imp_right fun hparked => ⟨hparked.1, ?_⟩
      refine allOrdered_delete hparked.2 (fun hsize => hmore ⟨hparked.1, hsize⟩) rfl heffects
        heffects

/-- An input that leaves a suspended cell suspended, or its failure reported. -/
def Input.isMild : Input E → Bool
  | .system .terminate | .system (.recreate _) | .system .resume => false
  | _ => true

/-- The children that were told to stop, as far as a cell knows after an input. -/
def waiting (base : List ActorName) : Input E → List ActorName
  | .system (.childTerminated name) => others base name
  | _ => base

/-- What becomes of a live cell in a step. Its `create` is its first input. -/
lemma outcome_step (hlive : c.state ≠ .terminated) (h : { c with effects := [] }.Sound base)
    (input : Conduct E × Input E)
    (hcreate : input.2 = .system .create → c.state = .creating ∧ c.mailboxSuspended = false) :
    Outcome n (waiting base input.2) (input.2 = .system .suspend ∨
        c.state = .suspended ∧ input.2.isMild = true ∧ ¬{ c with effects := [] }.Parked base)
      (c.state = .creating ∧ input.2 ≠ .system .create ∧ input.2 ≠ .system .terminate)
      (c.step { name := n } input) := by
  obtain ⟨conduct, input⟩ := input
  have hreports : reported ({ c with effects := [] } : Cell E).effects = [] := rfl
  have hcalm : ∀ input : Input E, input.isMild = true → c.state = .suspended →
      (input = .system .suspend ∨ c.state = .suspended ∧ input.isMild = true ∧
        ¬{ c with effects := [] }.Parked base) ∨ { c with effects := [] }.Parked base := by
    intro input hmild hstate
    by_cases hparked : Cell.Parked base { c with effects := [] }
    · exact .inr hparked
    · exact .inl (.inr ⟨hstate, hmild, hparked⟩)
  have hstep : c.step { name := n } (conduct, input) =
      { c with effects := [] }.handle { name := n } conduct input := if_neg hlive
  rw [hstep]
  cases input with
  | user message =>
    change Outcome n base _ _ (if _ then _ else _)
    split
    · next hstate => exact .handleUserMessage h hstate.1 hreports message
    · exact .held (.refl _) h hlive hreports h.running rfl (hcalm _ rfl)
        fun hstate => ⟨hstate, by simp, by simp⟩
  | system command =>
    cases command with
    | create => exact .onCreate h (hcreate rfl).1 (hcreate rfl).2 hreports
    | terminate => exact .onTerminate h hlive hreports
    | recreate cause =>
      exact .onRecreate h hlive hreports cause fun hstate => ⟨hstate, by simp, by simp⟩
    | suspend =>
      exact .onSuspend h hlive hreports (.inl rfl) fun hstate => ⟨hstate, by simp, by simp⟩
    | resume => exact .onResume h hlive hreports fun hstate => ⟨hstate, by simp, by simp⟩
    | failure cause name =>
      exact .onFailure h hlive hreports cause name (hcalm _ rfl)
        fun hstate => ⟨hstate, by simp, by simp⟩
    | childTerminated name =>
      exact .onChildTerminated h hlive rfl name (hcalm _ rfl)
        fun hstate => ⟨hstate, by simp, by simp⟩
    | watchNotify =>
      exact .held (.refl _) h hlive hreports h.running rfl (hcalm _ rfl)
        fun hstate => ⟨hstate, by simp, by simp⟩
    | receiveTimeout =>
      change Outcome n base _ _ (onReceiveTimeout _ _ _)
      unfold onReceiveTimeout
      split
      · exact .held (.refl _) h hlive hreports h.running rfl (hcalm _ rfl)
          fun hstate => ⟨hstate, by simp, by simp⟩
      · next hstate => exact .handleUserMessage h (not_not.1 hstate) hreports .application

end Cell

end ActorTs.Actor
