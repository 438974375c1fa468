import ActorTs.Actor.ChildTurns
import ActorTs.Actor.Directives

/-!
# No failed actor stays suspended

A cell is followed from its first command on together with one of its children, through all cells
that bear the child's name one after the other. Once the commands for the child are done with, and
the cell runs, the child runs too, or it has ended, or its failure is still to be decided about. For
this, a child that never had an instance must not be resumed or restarted when it fails.
-/

open List Option Bool

namespace ActorTs.Actor

open Machine

/-- A cell and a child of it, with the commands that are on their way to either. -/
structure Family (E : Type) where
  parent : Cell E := {}
  forParent : List (SystemCommand E) := [.create]
  child : Option (Cell E) := none
  forChild : List (SystemCommand E) := []
  /-- The children of the child that were told to stop and have not reported their end. -/
  stopping : List ActorName := []

namespace Family

variable {E : Type} (config : CellConfig) (n : ActorName)

/-- The commands that a cell gives itself: a guardian that fails is to stop. -/
def ownCommands (effects : List (Effect E)) : List (SystemCommand E) :=
  effects.filterMap fun
    | .tellSelf .terminate => some .terminate
    | _ => none

/-- What the child hears reaches it in order. Its first command comes with a new cell. -/
def receive (s : Family E) : SystemCommand E → Family E
  | .create => { s with child := some {}, forChild := [.create], stopping := [] }
  | command => { s with forChild := s.forChild ++ [command] }

def parentStep (s : Family E) (input : Conduct E × Cell.Input E) : Family E :=
  let parent := s.parent.step config input
  (heard n parent.effects).foldl receive
    { s with parent := parent, forParent := s.forParent ++ ownCommands parent.effects }

def childStep (s : Family E) (input : Conduct E × Cell.Input E) : Family E :=
  match s.child with
  | none => s
  | some c =>
    let child := c.step { name := n } input
    { s with
      child := some child
      forParent := s.forParent ++ reported child.effects
      stopping := Cell.waiting s.stopping input.2 ++ ordered child.effects }

/-- What the cell is told by others than the child: its `create` is its first command. -/
def fromOthers : SystemCommand E → Bool
  | .create => false
  | .failure _ child => child ≠ n
  | .childTerminated child => child ≠ n
  | _ => true

/-- What the child is told by others than the cell. Anyone may tell it to stop. -/
def fromElsewhere : SystemCommand E → Bool
  | .create | .suspend | .resume | .recreate _ => false
  | _ => true

inductive Input (E : Type) where
  | parentTurn (conduct : Conduct E)
  | parentUser (conduct : Conduct E) (message : Cell.UserMessage)
  | childTurn (conduct : Conduct E)
  | childUser (conduct : Conduct E) (message : Cell.UserMessage)
  | toParent (command : SystemCommand E)
  | toChild (command : SystemCommand E)

def step (s : Family E) : Input E → Family E
  | .parentTurn conduct =>
    match s.forParent with
    | [] => s
    | command :: rest =>
      parentStep config n { s with forParent := rest } (conduct, .system command)
  | .parentUser conduct message => s.parentStep config n (conduct, .user message)
  | .childTurn conduct =>
    match s.forChild with
    | [] => s
    | command :: rest => childStep n { s with forChild := rest } (conduct, .system command)
  | .childUser conduct message => s.childStep n (conduct, .user message)
  | .toParent command =>
    if fromOthers n command then { s with forParent := s.forParent ++ [command] } else s
  | .toChild command =>
    if fromElsewhere command then { s with forChild := s.forChild ++ [command] } else s

/-- A failure of the child is still to be decided about. -/
def Reported (s : Family E) : Prop := ∃ cause, .failure cause n ∈ s.forParent

/-- A failure of a child that never had an instance is answered with a stop. -/
def StopsUnmade (s : Family E) : Input E → Prop
  | .parentTurn conduct => ∀ cause rest c, s.forParent = .failure cause n :: rest →
      s.child = some c → c.instances = 0 → s.parent.AnswersByStop conduct cause n
  | _ => True

/-! ### What the child hears -/

variable {config n}

lemma foldl_receive {commands : List (SystemCommand E)} (h : .create ∉ commands) (s : Family E) :
    commands.foldl receive s = { s with forChild := s.forChild ++ commands } := by
  induction commands generalizing s with
  | nil => simp
  | cons command commands ih =>
    have hne : command ≠ .create := fun hcommand => h (hcommand ▸ mem_cons_self)
    have hone : s.receive command = { s with forChild := s.forChild ++ [command] } := by
      cases command <;> first | rfl | exact absurd rfl hne
    rw [foldl_cons, hone, ih fun hmem => h (mem_cons_of_mem _ hmem)]
    simp

variable {rest : List (SystemCommand E)}

lemma foldl_receive_create (h : .create ∉ rest) (s : Family E) :
    (.create :: rest).foldl receive s =
      { s with child := some {}, forChild := .create :: rest, stopping := [] } := by
  rw [foldl_cons, foldl_receive h]
  rfl

/-! ### What is on its way to the cell -/

/-- A command tells of the end of the child. -/
def isEnd (n : ActorName) : SystemCommand E → Bool
  | .childTerminated child => child = n
  | _ => false

variable {command : SystemCommand E}

lemma eq_of_isEnd (h : isEnd n command = true) : command = .childTerminated n := by
  cases command <;> simp_all [isEnd]

/-- How often the end of the child is on its way. -/
def ends (n : ActorName) (commands : List (SystemCommand E)) : ℕ := commands.countP (isEnd n)

lemma ends_append (commands later : List (SystemCommand E)) :
    ends n (commands ++ later) = ends n commands + ends n later :=
  countP_append

lemma eq_terminate_of_mem_ownCommands {effects : List (Effect E)}
    (h : command ∈ ownCommands effects) : command = .terminate := by
  obtain ⟨x, -, hx⟩ := mem_filterMap.1 h
  split at hx
  · exact (some.inj hx).symm
  · exact nomatch hx

lemma ends_ownCommands (effects : List (Effect E)) : ends n (ownCommands effects) = 0 := by
  refine countP_eq_zero.2 fun command hcommand => ?_
  rw [eq_terminate_of_mem_ownCommands hcommand]
  exact false_ne_true

lemma create_notMem_ownCommands (effects : List (Effect E)) :
    .create ∉ ownCommands effects :=
  fun h => nomatch eq_terminate_of_mem_ownCommands h

/-- An input is the first command of a queue, or a message. -/
def TakenFrom (queue rest : List (SystemCommand E)) (input : Cell.Input E) : Prop :=
  (∃ command, input = .system command ∧ queue = command :: rest) ∨
    (∃ message, input = .user message) ∧ queue = rest

variable {queue : List (SystemCommand E)}

lemma TakenFrom.eq_cons (h : TakenFrom queue rest (.system command)) :
    queue = command :: rest := by
  rcases h with ⟨other, hother, hqueue⟩ | ⟨⟨message, hmessage⟩, -⟩
  · rw [hqueue, Cell.Input.system.inj hother]
  · exact nomatch hmessage

lemma TakenFrom.mem {input : Cell.Input E} (h : TakenFrom queue rest input)
    (hmem : command ∈ queue) (hne : input ≠ .system command) : command ∈ rest := by
  rcases h with ⟨other, hother, hqueue⟩ | ⟨-, hqueue⟩
  · rw [hqueue] at hmem
    refine (mem_cons.1 hmem).resolve_left fun heq => hne ?_
    rw [hother, heq]
  · exact hqueue ▸ hmem

def directiveOf : Cell.Input E → Option (SystemCommand E)
  | .system command => if command.isDirective then some command else none
  | .user _ => none

lemma eq_suspend_of_isMild {input : Cell.Input E} (h : input.isMild = true) :
    directiveOf input = none ∨ input = .system .suspend := by
  cases input with
  | user message => exact .inl rfl
  | system command => cases command <;> simp_all [directiveOf, SystemCommand.isDirective,
      Cell.Input.isMild]

lemma TakenFrom.lastDirective {input : Cell.Input E} (h : TakenFrom queue rest input) :
    lastDirective queue = (lastDirective rest).or (directiveOf input) := by
  rcases h with ⟨other, rfl, rfl⟩ | ⟨⟨message, rfl⟩, rfl⟩
  · exact lastDirective_cons other rest
  · exact (or_none).symm

/-! ### The invariant -/

/-- What holds of a child that has not ended. -/
structure Alive (n : ActorName) (s : Family E) (c : Cell E) : Prop where
  live : c.state ≠ .terminated
  sound : Cell.Sound s.stopping { c with effects := [] }
  suspendLast : lastDirective s.forChild = some .suspend → s.parent.state ≠ .running
  quiet : lastDirective s.forChild = none → c.state = .suspended →
    s.parent.state ≠ .running ∨ Reported n s ∨ Cell.Parked s.stopping { c with effects := [] }
  create : .create ∈ s.forChild → c.state = .creating ∧ c.mailboxSuspended = false ∧
    ∃ rest, s.forChild = .create :: rest ∧ .create ∉ rest
  made : c.state = .creating →
    .create ∈ s.forChild ∨ .terminate ∈ s.forChild ∨ Reported n s

/-- What holds while the cell has not ended. -/
structure Coherent (n : ActorName) (s : Family E) : Prop where
  newborn : .create ∈ s.forParent → s.parent.state = .creating ∧ s.parent.children.keys = [] ∧
    ∃ rest, s.forParent = .create :: rest ∧ .create ∉ rest
  absent : n ∉ s.parent.children.keys →
    ends n s.forParent = 0 ∧ ∀ c, s.child = some c → c.state = .terminated
  present : n ∈ s.parent.children.keys → ∃ c, s.child = some c ∧
    (c.state = .terminated ∧ ends n s.forParent = 1 ∨ ends n s.forParent = 0 ∧ Alive n s c)

lemma coherent_start : Coherent n ({} : Family E) :=
  ⟨fun _ => ⟨rfl, rfl, [], rfl, not_mem_nil⟩, fun _ => ⟨rfl, fun _ h => nomatch h⟩,
    fun h => absurd h not_mem_nil⟩

/-! ### A step of the cell -/

variable {s : Family E}

lemma Coherent.remade {p : Cell E} {ran : Prop} (htends : Cell.Tends n False ran p)
    (hends : ends n rest = 0) (hold : ∀ c, s.child = some c → c.state = .terminated)
    (hnewborn : .create ∈ rest → p.state = .creating ∧ p.children.keys = [] ∧
      ∃ later, rest = .create :: later ∧ .create ∉ later) :
    Coherent n ((heard n p.effects).foldl receive { s with parent := p, forParent := rest }) := by
  rcases htends.new id with ⟨hn, hnil⟩ | ⟨hn, later, hlater, hnone⟩
  · rw [hnil]
    exact ⟨hnewborn, fun _ => ⟨hends, hold⟩, fun hmem => absurd hmem hn⟩
  · rw [hlater, foldl_receive_create hnone]
    refine ⟨hnewborn, fun hnot => absurd hn hnot, fun _ => ⟨{}, rfl, .inr ⟨hends, ?_⟩⟩⟩
    refine ⟨nofun, ⟨nofun, fun h => h.elim nofun nofun, fun _ => ⟨rfl, rfl, rfl⟩, nofun⟩, ?_,
      nofun, fun _ => ⟨rfl, rfl, later, rfl, hnone⟩, fun _ => .inl mem_cons_self⟩
    rw [← hlater]
    exact htends.suspended

lemma Alive.told {c p : Cell E} {own : List (SystemCommand E)} (h : Alive n s c)
    (htends : Cell.Tends n True (s.parent.state = .running) p)
    (hfailures : ∀ cause, .failure cause n ∈ s.forParent → .failure cause n ∈ rest ∨
      lastDirective (heard n p.effects) ≠ none ∧
        (c.instances = 0 → .terminate ∈ heard n p.effects)) :
    Alive n { s with
      parent := p, forParent := rest ++ own, forChild := s.forChild ++ heard n p.effects } c := by
  refine ⟨h.live, h.sound, fun hlast => ?_, fun hlast hstate => ?_, fun hmem => ?_,
    fun hstate => ?_⟩
  · rw [lastDirective_append] at hlast
    cases hheard : lastDirective (heard n p.effects) with
    | some command =>
      rw [hheard] at hlast
      exact htends.suspended (hheard.trans hlast)
    | none =>
      rw [hheard] at hlast
      exact fun hrunning => h.suspendLast hlast (htends.silent trivial hheard hrunning)
  · rw [lastDirective_append, or_eq_none_iff] at hlast
    rcases h.quiet hlast.2 hstate with hidle | ⟨cause, hcause⟩ | hparked
    · exact .inl fun hrunning => hidle (htends.silent trivial hlast.1 hrunning)
    · rcases hfailures cause hcause with hrest | ⟨hanswer, -⟩
      · exact .inr (.inl ⟨cause, mem_append_left _ hrest⟩)
      · exact absurd hlast.1 hanswer
    · exact .inr (.inr hparked)
  · have hold : .create ∈ s.forChild :=
      (mem_append.1 hmem).resolve_right (htends.stays trivial).2
    obtain ⟨hstate, hmailbox, later, hlater, hnone⟩ := h.create hold
    refine ⟨hstate, hmailbox, later ++ heard n p.effects, ?_, fun hmem => ?_⟩
    · rw [hlater, cons_append]
    · exact (mem_append.1 hmem).elim hnone (htends.stays trivial).2
  · rcases h.made hstate with hcreate | hterminate | ⟨cause, hcause⟩
    · exact .inl (mem_append_left _ hcreate)
    · exact .inr (.inl (mem_append_left _ hterminate))
    · rcases hfailures cause hcause with hrest | ⟨-, hanswer⟩
      · exact .inr (.inr ⟨cause, mem_append_left _ hrest⟩)
      · exact .inr (.inl (mem_append_right _ (hanswer (h.sound.creating hstate).1)))

/-- What holds in every state that is reached. -/
def Inv (n : ActorName) (s : Family E) : Prop :=
  s.parent.state = .terminated ∨ Coherent n s

lemma parent_foldl_receive (commands : List (SystemCommand E)) (s : Family E) :
    (commands.foldl receive s).parent = s.parent := by
  induction commands generalizing s with
  | nil => rfl
  | cons command commands ih =>
    rw [foldl_cons, ih]
    cases command <;> rfl

lemma step_user_of_creating {c : Cell E} (hstate : c.state = .creating) {conduct : Conduct E}
    {message : Cell.UserMessage} :
    c.step config (conduct, .user message) = { c with effects := [] } := by
  have hlive : c.state ≠ .terminated := by simp [hstate]
  have hidle : ¬(c.state = .running ∧ c.mailboxSuspended = false) := by simp [hstate]
  rw [Cell.step_of_live hlive]
  exact if_neg hidle

variable {input : Conduct E × Cell.Input E} {base : List ActorName}

lemma Coherent.newborn_step (h : Coherent n s) (hinput : TakenFrom s.forParent rest input.2)
    (hmem : .create ∈ rest ++ ownCommands (s.parent.step config input).effects) :
    let p := s.parent.step config input
    p.state = .creating ∧ p.children.keys = [] ∧
      ∃ later, rest ++ ownCommands p.effects = .create :: later ∧ .create ∉ later := by
  have hrest : .create ∈ rest :=
    (mem_append.1 hmem).resolve_right (create_notMem_ownCommands _)
  rcases hinput with ⟨command, -, hqueue⟩ | ⟨⟨message, hmessage⟩, hqueue⟩
  · obtain ⟨-, -, later, hlater, hnone⟩ := h.newborn (hqueue ▸ mem_cons_of_mem _ hrest)
    rw [hqueue, cons.injEq] at hlater
    rw [hlater.2] at hrest
    exact absurd hrest hnone
  · obtain ⟨hstate, hkeys, later, hlater, hnone⟩ := h.newborn (hqueue ▸ hrest)
    obtain ⟨conduct, input⟩ := input
    subst hmessage
    intro p
    have hp : p = { s.parent with effects := [] } := step_user_of_creating hstate
    rw [hp]
    refine ⟨hstate, hkeys, later, ?_, hnone⟩
    rw [← hqueue, hlater]
    exact append_nil _

lemma Coherent.parentStep (h : Coherent n s) (hinput : TakenFrom s.forParent rest input.2)
    (hstops : ∀ cause c, input.2 = .system (.failure cause n) → s.child = some c →
      c.instances = 0 → s.parent.AnswersByStop input.1 cause n) :
    Inv n (Family.parentStep config n { s with forParent := rest } input) := by
  by_cases hended : (s.parent.step config input).state = .terminated
  · left
    change Cell.state (Family.parent (foldl _ _ _)) = _
    rw [parent_foldl_receive]
    exact hended
  right
  have hlive : s.parent.state ≠ .terminated := by
    intro hterminated
    apply hended
    rw [Cell.step, if_pos hterminated]
    exact hterminated
  have hnewborn : .create ∈ rest ++ ownCommands (s.parent.step config input).effects → _ :=
    h.newborn_step hinput
  have hown : ∀ k, ends n rest = k →
      ends n (rest ++ ownCommands (s.parent.step config input).effects) = k := by
    intro k hk
    rw [ends_append, hk, ends_ownCommands]
    rfl
  by_cases hgone : input.2 = .system (.childTerminated n)
  · -- The child has ended, and its end is taken note of.
    rw [hgone] at hinput
    have hends : ends n s.forParent = ends n rest + 1 := by
      rw [hinput.eq_cons]
      exact countP_cons_of_pos (by simp [isEnd])
    have hn : n ∈ s.parent.children.keys := by
      by_contra hn
      have hzero := (h.absent hn).1
      omega
    obtain ⟨c, hc, ⟨hterminated, hone⟩ | ⟨hzero, -⟩⟩ := h.present hn
    · obtain ⟨conduct, input⟩ := input
      subst hgone
      refine Coherent.remade (Cell.tends_childTerminated hlive conduct True)
        (hown 0 (by omega)) (fun d hd => ?_) hnewborn
      rw [← some.inj (hc.symm.trans hd)]
      exact hterminated
    · omega
  · have hcreate : input.2 = .system .create → n ∉ s.parent.children.keys := by
      intro hcreate hn
      rw [hcreate] at hinput
      rw [(h.newborn (hinput.eq_cons ▸ mem_cons_self)).2.1] at hn
      exact not_mem_nil hn
    have htends : Cell.Tends n (n ∈ s.parent.children.keys) (s.parent.state = .running)
        (s.parent.step config input) := Cell.tends_step hlive input hcreate hgone
    have hsame : ends n s.forParent = ends n rest := by
      rcases hinput with ⟨command, hcommand, hqueue⟩ | ⟨-, hqueue⟩
      · rw [hqueue]
        refine countP_cons_of_neg fun hend => hgone ?_
        rw [hcommand, eq_of_isEnd hend]
      · rw [hqueue]
    by_cases hn : n ∈ s.parent.children.keys
    · rw [eq_true hn] at htends
      obtain ⟨hn', hnone⟩ := htends.stays trivial
      obtain ⟨c, hc, hcases⟩ := h.present hn
      change Coherent n (foldl _ _ _)
      rw [foldl_receive hnone]
      refine ⟨hnewborn, fun hnot => absurd hn' hnot, fun _ => ⟨c, hc, ?_⟩⟩
      rcases hcases with ⟨hterminated, hone⟩ | ⟨hzero, halive⟩
      · exact .inl ⟨hterminated, hown 1 (by omega)⟩
      · refine .inr ⟨hown 0 (by omega), halive.told htends fun cause hcause => ?_⟩
        rcases hinput with ⟨command, hcommand, hqueue⟩ | ⟨-, hqueue⟩
        · rw [hqueue] at hcause
          rcases mem_cons.1 hcause with hcause | hcause
          · right
            obtain ⟨conduct, input⟩ := input
            subst hcause hcommand
            rw [Cell.step_of_live hlive]
            have hn : n ∈ ({ s.parent with effects := [] } : Cell E).children.keys := hn
            obtain ⟨hanswer, hstop⟩ := Cell.heard_onFailure hn cause
            exact ⟨hanswer, fun hnever => hstop (hstops cause c rfl hc hnever)⟩
          · exact .inl hcause
        · exact .inl (hqueue ▸ hcause)
    · rw [eq_false hn] at htends
      obtain ⟨hzero, hold⟩ := h.absent hn
      exact Coherent.remade htends (hown 0 (by omega)) hold hnewborn

/-! ### A step of the child -/

variable {d : Cell E}

lemma sound_settle (h : d.Sound base) :
    Cell.Sound (base ++ ordered d.effects) { d with effects := [] } := by
  refine ⟨h.running, h.made, h.creating, fun hstate => ?_⟩
  obtain ⟨hsize, hall⟩ := h.terminating hstate
  exact ⟨hsize, fun name hname => mem_append_left _ (hall name hname)⟩

lemma parked_settle (h : d.Parked base) :
    Cell.Parked (base ++ ordered d.effects) { d with effects := [] } :=
  ⟨h.1, h.2.1, fun name hname => mem_append_left _ (h.2.2 name hname)⟩

lemma Alive.step {c d : Cell E} (h : Alive n s c) (htaken : TakenFrom s.forChild rest input.2)
    (hd : d = c.step { name := n } input) (hlive : d.state ≠ .terminated)
    (hsound : d.Sound (Cell.waiting s.stopping input.2))
    (hfate : Reported n { s with forParent := s.forParent ++ reported d.effects } ∨
      (d.state = .suspended → (input.2 = .system .suspend ∨ c.state = .suspended ∧
        input.2.isMild = true ∧ ¬Cell.Parked s.stopping { c with effects := [] }) ∨
          d.Parked (Cell.waiting s.stopping input.2)) ∧
      (d.state = .creating → c.state = .creating ∧ input.2 ≠ .system .create ∧
        input.2 ≠ .system .terminate)) :
    Alive n { s with
      child := some d
      forParent := s.forParent ++ reported d.effects
      forChild := rest
      stopping := Cell.waiting s.stopping input.2 ++ ordered d.effects } d := by
  have hkept : Reported n s →
      Reported n { s with forParent := s.forParent ++ reported d.effects } :=
    fun ⟨cause, hcause⟩ => ⟨cause, mem_append_left _ hcause⟩
  have hlast := htaken.lastDirective
  refine ⟨hlive, sound_settle hsound, fun hsuspend => ?_, fun hnone hstate => ?_, fun hmem => ?_,
    fun hstate => ?_⟩
  · rw [hsuspend] at hlast
    exact h.suspendLast hlast
  · rcases hfate with hreported | ⟨hsuspended, -⟩
    · exact .inr (.inl hreported)
    · have hrest : lastDirective rest = none := hnone
      rw [hrest] at hlast
      have htold : input.2 = .system .suspend → s.parent.state ≠ .running := by
        intro hinput
        rw [hinput] at hlast
        exact h.suspendLast hlast
      rcases hsuspended hstate with (hinput | ⟨hbefore, hmild, hnot⟩) | hparked
      · exact .inl (htold hinput)
      · rcases eq_suspend_of_isMild hmild with hdirective | hinput
        · rw [hdirective] at hlast
          rcases h.quiet hlast hbefore with hidle | hreported | hparked
          · exact .inl hidle
          · exact .inr (.inl (hkept hreported))
          · exact absurd hparked hnot
        · exact .inl (htold hinput)
      · exact .inr (.inr (parked_settle hparked))
  · rcases htaken with ⟨command, -, hqueue⟩ | ⟨⟨message, hmessage⟩, hqueue⟩
    · obtain ⟨-, -, later, hlater, hnone⟩ := h.create (hqueue ▸ mem_cons_of_mem _ hmem)
      rw [hqueue, cons.injEq] at hlater
      exact absurd (hlater.2 ▸ hmem) hnone
    · obtain ⟨hbefore, hmailbox, later, hlater, hnone⟩ := h.create (hqueue ▸ hmem)
      obtain ⟨conduct, input⟩ := input
      subst hmessage
      rw [hd, step_user_of_creating hbefore]
      exact ⟨hbefore, hmailbox, later, hqueue.symm.trans hlater, hnone⟩
  · rcases hfate with hreported | ⟨-, hcreating⟩
    · exact .inr (.inr hreported)
    · obtain ⟨hbefore, hcreate, hterminate⟩ := hcreating hstate
      rcases h.made hbefore with hmem | hmem | hreported
      · exact .inl (htaken.mem hmem hcreate)
      · exact .inr (.inl (htaken.mem hmem hterminate))
      · exact .inr (.inr (hkept hreported))

lemma Coherent.follow {s' : Family E} (h : Coherent n s) (said : List (SystemCommand E))
    (hparent : s'.parent = s.parent) (hqueue : s'.forParent = s.forParent ++ said)
    (hchild : s'.child = some d) (hnone : .create ∉ said)
    (habsent : n ∉ s.parent.children.keys → d.state = .terminated ∧ said = [])
    (hpresent : n ∈ s.parent.children.keys →
      d.state = .terminated ∧ ends n (s.forParent ++ said) = 1 ∨
        ends n (s.forParent ++ said) = 0 ∧ Alive n s' d) : Coherent n s' := by
  refine ⟨fun hmem => ?_, fun hn => ?_, fun hn => ⟨d, hchild, ?_⟩⟩
  · rw [hqueue] at hmem
    obtain ⟨hstate, hkeys, later, hlater, hrest⟩ :=
      h.newborn ((mem_append.1 hmem).resolve_right hnone)
    rw [hparent]
    refine ⟨hstate, hkeys, later ++ said, by rw [hqueue, hlater, cons_append], ?_⟩
    exact fun hmem => (mem_append.1 hmem).elim hrest hnone
  · rw [hparent] at hn
    obtain ⟨hdone, rfl⟩ := habsent hn
    refine ⟨by rw [hqueue, append_nil]; exact (h.absent hn).1, fun c hc => ?_⟩
    rw [← some.inj (hchild.symm.trans hc)]
    exact hdone
  · rw [hqueue]
    exact hpresent (hparent ▸ hn)

lemma Coherent.childStep (h : Coherent n s) (htaken : TakenFrom s.forChild rest input.2) :
    Coherent n (Family.childStep n { s with forChild := rest } input) := by
  unfold Family.childStep
  split
  · next hnone =>
    refine ⟨h.newborn, h.absent, fun hn => ?_⟩
    obtain ⟨c, hc, -⟩ := h.present hn
    exact nomatch hnone.symm.trans hc
  · next c hc =>
    have hsaid : ∀ {said}, reported (c.step { name := n } input).effects = said →
        s.forParent ++ reported (c.step { name := n } input).effects = s.forParent ++ said :=
      congrArg _
    by_cases hstate : c.state = .terminated
    · have hsame : c.step { name := n } input = { c with effects := [] } := if_pos hstate
      have hdone : (c.step { name := n } input).state = .terminated := by rw [hsame]; exact hstate
      have hquiet : reported (c.step { name := n } input).effects = [] := by rw [hsame]; rfl
      refine h.follow [] rfl (hsaid hquiet) rfl not_mem_nil (fun _ => ⟨hdone, rfl⟩) fun hn => ?_
      · obtain ⟨d, hd, ⟨-, hone⟩ | ⟨-, halive⟩⟩ := h.present hn
        · exact .inl ⟨hdone, by rw [append_nil]; exact hone⟩
        · rw [some.inj (hc.symm.trans hd)] at hstate
          exact absurd hstate halive.live
    · have hn : n ∈ s.parent.children.keys := by
        by_contra hn
        exact hstate ((h.absent hn).2 c hc)
      obtain ⟨d, hd, ⟨hterminated, -⟩ | ⟨hzero, halive⟩⟩ := h.present hn
      · rw [some.inj (hc.symm.trans hd)] at hstate
        exact absurd hterminated hstate
      obtain rfl := some.inj (hc.symm.trans hd)
      have hcreate : input.2 = .system .create →
          c.state = .creating ∧ c.mailboxSuspended = false := by
        intro hinput
        rw [hinput] at htaken
        obtain ⟨hcreating, hmailbox, -⟩ := halive.create (htaken.eq_cons ▸ mem_cons_self)
        exact ⟨hcreating, hmailbox⟩
      cases Cell.outcome_step (n := n) hstate halive.sound input hcreate with
      | ended hdone hreports =>
        refine h.follow [.childTerminated n] rfl (hsaid hreports) rfl (by simp)
          (fun hnot => absurd hn hnot) (fun _ => .inl ⟨hdone, ?_⟩)
        rw [ends_append, hzero]
        simp [ends, isEnd]
      | failed cause hsound hlive hreports =>
        refine h.follow [.failure cause n] rfl (hsaid hreports) rfl (by simp)
          (fun hnot => absurd hn hnot) (fun _ => .inr ⟨?_, ?_⟩)
        · rw [ends_append, hzero]
          simp [ends, isEnd]
        · refine halive.step htaken rfl hlive hsound (.inl ⟨cause, ?_⟩)
          rw [hreports]
          exact mem_append_right _ mem_cons_self
      | goesOn hsound hlive hreports hsuspended hcreating =>
        refine h.follow [] rfl (hsaid hreports) rfl not_mem_nil
          (fun hnot => absurd hn hnot) (fun _ => .inr ⟨?_, ?_⟩)
        · rw [append_nil, hzero]
        · exact halive.step htaken rfl hlive hsound (.inr ⟨hsuspended, hcreating⟩)

/-! ### What others tell either -/

lemma Coherent.toParent (h : Coherent n s) (hcommand : fromOthers n command = true) :
    Coherent n { s with forParent := s.forParent ++ [command] } := by
  have hcreate : .create ∉ [command] := by
    rintro hmem
    rw [← mem_singleton.1 hmem] at hcommand
    exact false_ne_true hcommand
  have hends : ends n (s.forParent ++ [command]) = ends n s.forParent := by
    rw [ends_append, ends, ends, countP_singleton, if_neg]
    · rfl
    · intro hend
      rw [eq_of_isEnd hend] at hcommand
      simp [fromOthers] at hcommand
  refine ⟨fun hmem => ?_, fun hn => ?_, fun hn => ?_⟩
  · obtain ⟨hstate, hkeys, later, hlater, hrest⟩ :=
      h.newborn ((mem_append.1 hmem).resolve_right hcreate)
    refine ⟨hstate, hkeys, later ++ [command], ?_, ?_⟩
    · change s.forParent ++ [command] = _
      rw [hlater, cons_append]
    · exact fun hmem => (mem_append.1 hmem).elim hrest hcreate
  · exact ⟨hends.trans (h.absent hn).1, (h.absent hn).2⟩
  · obtain ⟨c, hc, hcases⟩ := h.present hn
    have hkept : Reported n s → Reported n { s with forParent := s.forParent ++ [command] } :=
      fun ⟨cause, hcause⟩ => ⟨cause, mem_append_left _ hcause⟩
    refine ⟨c, hc, hcases.imp (fun hdone => ⟨hdone.1, hends.trans hdone.2⟩) fun halive => ?_⟩
    exact ⟨hends.trans halive.1, halive.2.live, halive.2.sound, halive.2.suspendLast,
      fun hnone hstate => (halive.2.quiet hnone hstate).imp_right (Or.imp_left hkept),
      halive.2.create, fun hstate => (halive.2.made hstate).imp_right (Or.imp_right hkept)⟩

lemma Coherent.toChild (h : Coherent n s) (hcommand : fromElsewhere command = true) :
    Coherent n { s with forChild := s.forChild ++ [command] } := by
  have hcreate : .create ∉ [command] := by
    rintro hmem
    rw [← mem_singleton.1 hmem] at hcommand
    exact false_ne_true hcommand
  have hlast : lastDirective [command] = some .terminate ∨ lastDirective [command] = none := by
    cases command <;> first
      | exact .inr rfl
      | exact .inl rfl
      | exact absurd hcommand false_ne_true
  refine ⟨h.newborn, h.absent, fun hn => ?_⟩
  obtain ⟨c, hc, hcases⟩ := h.present hn
  refine ⟨c, hc, hcases.imp_right fun ⟨hzero, halive⟩ => ⟨hzero, halive.live, halive.sound,
    fun hsuspend => ?_, fun hnone hstate => ?_, fun hmem => ?_, fun hstate => ?_⟩⟩
  · rw [lastDirective_append] at hsuspend
    rcases hlast with hlast | hlast
    · rw [hlast] at hsuspend
      exact nomatch hsuspend
    · rw [hlast] at hsuspend
      exact halive.suspendLast hsuspend
  · rw [lastDirective_append, or_eq_none_iff] at hnone
    exact halive.quiet hnone.2 hstate
  · obtain ⟨hstate, hmailbox, later, hlater, hrest⟩ :=
      halive.create ((mem_append.1 hmem).resolve_right hcreate)
    refine ⟨hstate, hmailbox, later ++ [command], ?_, ?_⟩
    · rw [hlater, cons_append]
    · exact fun hmem => (mem_append.1 hmem).elim hrest hcreate
  · exact (halive.made hstate).imp (mem_append_left _) (Or.imp_left (mem_append_left _))

/-! ### Runs -/

lemma step_of_terminated (h : s.parent.state = .terminated) (input : Input E) :
    (s.step config n input).parent.state = .terminated := by
  have hparent : ∀ (s : Family E) (input : Conduct E × Cell.Input E), s.parent.state = .terminated →
      (s.parentStep config n input).parent.state = .terminated := by
    intro s input h
    change Cell.state (Family.parent (foldl _ _ _)) = _
    rw [Cell.step, if_pos h]
    exact h
  have hchild : ∀ (s : Family E) (input : Conduct E × Cell.Input E),
      s.parent.state = .terminated → (s.childStep n input).parent.state = .terminated := by
    intro s input h
    unfold Family.childStep
    split <;> exact h
  cases input with
  | parentTurn conduct =>
    unfold Family.step
    dsimp only
    split
    · exact h
    · exact hparent _ _ h
  | parentUser conduct message => exact hparent _ _ h
  | childTurn conduct =>
    unfold Family.step
    dsimp only
    split
    · exact h
    · exact hchild _ _ h
  | childUser conduct message => exact hchild _ _ h
  | toParent command =>
    unfold Family.step
    dsimp only
    split <;> exact h
  | toChild command =>
    unfold Family.step
    dsimp only
    split <;> exact h

lemma inv_step (s : Family E) (input : Input E) (hstops : s.StopsUnmade n input)
    (h : Inv n s) : Inv n (s.step config n input) := by
  rcases h with h | h
  · exact .inl (step_of_terminated h input)
  cases input with
  | parentTurn conduct =>
    unfold Family.step
    dsimp only
    split
    · exact .inr h
    · next command rest hqueue =>
      refine h.parentStep (.inl ⟨command, rfl, hqueue⟩) fun cause c hinput hc => ?_
      have hfailure : command = .failure cause n := Cell.Input.system.inj hinput
      exact hstops cause rest c (hfailure ▸ hqueue) hc
  | parentUser conduct message =>
    exact h.parentStep (.inr ⟨⟨message, rfl⟩, rfl⟩) fun cause c hinput => nomatch hinput
  | childTurn conduct =>
    unfold Family.step
    dsimp only
    split
    · exact .inr h
    · next command rest hqueue => exact .inr (h.childStep (.inl ⟨command, rfl, hqueue⟩))
  | childUser conduct message => exact .inr (h.childStep (.inr ⟨⟨message, rfl⟩, rfl⟩))
  | toParent command =>
    unfold Family.step
    dsimp only
    split
    · next hcommand => exact .inr (h.toParent hcommand)
    · exact .inr h
  | toChild command =>
    unfold Family.step
    dsimp only
    split
    · next hcommand => exact .inr (h.toChild hcommand)
    · exact .inr h

/-- In every run in which a child that never had an instance is told to stop when it fails, once
what the child was told is done with, and the children that it told to stop are gone, the child
runs, or has ended, or has reported a failure that is still to be decided about. -/
theorem never_left_suspended (config : CellConfig) (n : ActorName) (inputs : List (Input E))
    (hstops : Machine.Along (step config n) (StopsUnmade n) {} inputs) (c : Cell E) :
    let s := run (step config n) {} inputs
    s.child = some c → s.parent.state = .running →
      (∀ command ∈ s.forChild, command ≠ .create ∧ command.isDirective = false) →
      s.stopping = [] →
      c.state = .running ∧ c.mailboxSuspended = false ∨ c.state = .terminated ∨
        ∃ cause, .failure cause n ∈ s.forParent := by
  intro s hc hrunning hnone hstopping
  have hinv : Inv n s := invariant (fun s i hP hI => inv_step s i hP hI) hstops
    (.inr coherent_start)
  rcases hinv with hterminated | h
  · exact absurd (hrunning.symm.trans hterminated) nofun
  by_cases hn : n ∈ s.parent.children.keys
  · obtain ⟨d, hd, ⟨hterminated, -⟩ | ⟨-, halive⟩⟩ := h.present hn
    · rw [some.inj (hc.symm.trans hd)]
      exact .inr (.inl hterminated)
    · obtain rfl := some.inj (hc.symm.trans hd)
      have hgone : ¬Cell.AllOrdered s.stopping { c with effects := [] } := by
        rintro ⟨hsize, hall⟩
        obtain ⟨name, hname⟩ : ∃ name, name ∈ c.children.keys :=
          exists_mem_of_length_pos (by rw [c.children.length_keys]; exact Nat.pos_of_ne_zero hsize)
        have hmem := hall name hname
        rw [hstopping] at hmem
        exact not_mem_nil hmem
      cases hstate : c.state with
      | creating =>
        rcases halive.made hstate with hmem | hmem | hreported
        · exact absurd rfl (hnone _ hmem).1
        · exact nomatch (hnone _ hmem).2
        · exact .inr (.inr hreported)
      | running => exact .inl ⟨rfl, halive.sound.running hstate⟩
      | suspended =>
        have hquiet := lastDirective_eq_none_iff.2 fun x hx => (hnone x hx).2
        rcases halive.quiet hquiet hstate with hidle | hreported | hparked
        · exact absurd hrunning hidle
        · exact .inr (.inr hreported)
        · exact absurd hparked.2 hgone
      | terminating => exact absurd (halive.sound.terminating hstate) hgone
      | terminated => exact .inr (.inl rfl)
  · exact .inr (.inl ((h.absent hn).2 c hc))

/-- A cell starts a child whose factory or handler throws, and decides about it. -/
def firstFailure (factory : Option Unit) (failing : List (Input Unit)) : List (Input Unit) :=
  [.parentTurn { preStart := { spawns := [("child", {})] } },
    .childTurn { factory := factory }] ++ failing ++ [.parentTurn {}, .childTurn {}]

/-- A child whose handler throws runs again after its restart. -/
theorem never_left_suspended_handler :
    let inputs := firstFailure none [.childUser { onReceive := { throws := some () } } .application]
    let s := run (step { name := "parent" } "child") {} inputs
    ∃ c, s.child = some c ∧ s.parent.state = .running ∧
      (c.state = .running ∧ c.mailboxSuspended = false ∨ c.state = .terminated ∨
        ∃ cause, .failure cause "child" ∈ s.forParent) := by
  intro inputs s
  have hchild : s.child.isSome := by decide +kernel
  obtain ⟨c, hc⟩ := isSome_iff_exists.1 hchild
  have hrunning : s.parent.state = .running := by decide +kernel
  have hnone : s.forChild = [] := by
    have : s.forChild.length = 0 := by decide +kernel
    exact eq_nil_of_length_eq_zero this
  refine ⟨c, hc, hrunning, never_left_suspended { name := "parent" } "child" inputs ?_
    c hc hrunning (by rw [hnone]; exact nofun) (by decide +kernel)⟩
  refine ⟨fun _ _ _ h => (nomatch h), trivial, trivial, fun cause rest c _ hc hnever => ?_,
    trivial, trivial⟩
  obtain rfl := some.inj hc
  exact absurd hnever (by decide +kernel)

/-- A child whose factory throws is restarted without effect, and stays as it is. -/
theorem not_never_left_suspended :
    ¬∀ (config : CellConfig) (n : ActorName) (inputs : List (Input Unit)) (c : Cell Unit),
      let s := run (step config n) {} inputs
      s.child = some c → s.parent.state = .running →
        (∀ command ∈ s.forChild, command ≠ .create ∧ command.isDirective = false) →
        s.stopping = [] →
        c.state = .running ∧ c.mailboxSuspended = false ∨ c.state = .terminated ∨
          ∃ cause, .failure cause n ∈ s.forParent := by
  intro h
  let s := run (step { name := "parent" } "child") {} (firstFailure (some ()) [])
  have hchild : s.child.map (fun c => c.state) = some .creating := by decide +kernel
  obtain ⟨c, hc, hstate⟩ := map_eq_some_iff.1 hchild
  have hchildren : s.forChild = [] :=
    eq_nil_of_length_eq_zero (by decide +kernel)
  have hparent : s.forParent = [] :=
    eq_nil_of_length_eq_zero (by decide +kernel)
  have hfate := h { name := "parent" } "child" (firstFailure (some ()) []) c hc
    (by decide +kernel) (by rw [hchildren]; exact nofun) (by decide +kernel)
  rcases hfate with ⟨hrunning, -⟩ | hterminated | ⟨cause, hcause⟩
  · exact nomatch hstate.symm.trans hrunning
  · exact nomatch hstate.symm.trans hterminated
  · rw [hparent] at hcause
    exact not_mem_nil hcause

end Family

end ActorTs.Actor
