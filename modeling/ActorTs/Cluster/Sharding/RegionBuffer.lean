import ActorTs.Cluster.Sharding.RegionStops
import ActorTs.Library.Dealt

/-!
# What waits in the buffer of a region

A message that cannot be passed on waits in the queue of its shard, until the shard's route
opens and the queue is routed again. `Accounted` is the account of all messages that have
arrived: for each shard they are dealt into those passed on, in order, with those that wait
behind them, and those lost to a full buffer. It holds as long as no queue is left behind an
open route.
-/

open List Option OrderedMap Nat Function

namespace ActorTs.Cluster.Sharding

open Placement Standing

/-- A message for the shard is passed on. -/
def Standing.IsOpen (x : Standing) : Prop :=
  x.cannotTakeMessages = false ∧ (∃ path, x.home = some path ∧ path ≠ []) ∧
    (x.isLocal = true ∨ x.homeNode.isSome = true)

lemma Standing.IsOpen.owned {x : Standing} (h : x.IsOpen) {state : ShardState}
    (hstate : x.state = some state) : state = .owned := by
  have hcan := h.1
  rw [cannotTakeMessages, hstate] at hcan
  cases state <;> first | rfl | simp at hcan

lemma Standing.IsOpen.home_ne {x : Standing} (h : x.IsOpen) : x.home ≠ none := by
  obtain ⟨path, hhome, -⟩ := h.2.1
  rw [hhome]
  exact some_ne_none path

lemma Standing.IsOpen.of_backedOff {x : Standing} (h : x.backedOff.IsOpen) : x.IsOpen := by
  cases hlocal : x.isLocal with
  | true =>
    have hstate : x.backedOff.state = some .backingOff := if_pos hlocal
    exact absurd (h.owned hstate) (fun heq => by cases heq)
  | false =>
    have hstate : x.backedOff.state = x.state := if_neg (ne_true_of_eq_false hlocal)
    have hcan := h.1
    rw [cannotTakeMessages, hstate] at hcan
    exact ⟨hcan, h.2⟩

lemma Placement.Starts.isOpen_iff {p q : Placement} (h : p.Starts q) (k : ShardId) :
    (q.standing k).IsOpen ↔ (p.standing k).IsOpen := by
  rw [Standing.IsOpen, Standing.IsOpen, h.home, h.isLocal, h.homeNode, Standing.cannotTakeMessages,
    Standing.cannotTakeMessages, h.state]

namespace Region

variable {T : Type} {config : RegionConfig T} {view : RegionView} {s t : Region T} {k : ShardId}

/-! ### The log -/

/-- The message that an effect passes on. -/
def Effect.passes : Effect T → Option (ShardId × Buffered T)
  | .deliverLocal shardId _ _ message _ => some (shardId, message)
  | .deliverRemote shardId _ _ message => some (shardId, message)
  | _ => none

/-- The message that an effect passes on, or refuses where the region is a proxy. -/
def Effect.takes (config : RegionConfig T) : Effect T → Option (ShardId × Buffered T)
  | .refuseAsProxy shardId message => if config.proxy then some (shardId, message) else none
  | effect => effect.passes

def Effect.deadLetters : Effect T → Option (ShardId × Buffered T)
  | .deadLetter shardId message => some (shardId, message)
  | _ => none

def Effect.arrives : Effect T → Option ((ShardId × Buffered T) × Bool)
  | .arrive shardId message full => some ((shardId, message), full)
  | _ => none

/-- The message is filed under the shard that it is for, which is `k`. -/
def isFor (config : RegionConfig T) (k : ShardId) (x : ShardId × Buffered T) : Bool :=
  decide (x.1 = k) && decide (shardOf config x.2.message = k)

def messagesFor (config : RegionConfig T) (k : ShardId)
    (f : Effect T → Option (ShardId × Buffered T)) (log : List (Effect T)) : List (Buffered T) :=
  ((log.filterMap f).filter (isFor config k)).map Prod.snd

/-- The messages for a shard that were passed on, to a shard here or to another region. -/
def passedOn (config : RegionConfig T) (k : ShardId) (log : List (Effect T)) : List (Buffered T) :=
  messagesFor config k Effect.passes log

def taken (config : RegionConfig T) (k : ShardId) (log : List (Effect T)) : List (Buffered T) :=
  messagesFor config k (Effect.takes config) log

def deadLettered (config : RegionConfig T) (k : ShardId) (log : List (Effect T)) :
    List (Buffered T) := messagesFor config k Effect.deadLetters log

/-- The messages for a shard that arrived, each with whether the buffer was full. -/
def arrivals (config : RegionConfig T) (k : ShardId) (log : List (Effect T)) :
    List (Buffered T × Bool) :=
  ((log.filterMap Effect.arrives).filter fun x => isFor config k x.1).map fun x => (x.1.2, x.2)

/-- The messages for a shard that wait. -/
def waiting (config : RegionConfig T) (k : ShardId) (s : Region T) : List (Buffered T) :=
  ((s.buffer.get? k).getD []).filter fun message => shardOf config message.message = k

section Lists

variable {log : List (Effect T)} {effect : Effect T} {j : ShardId} {message : Buffered T}

lemma messagesFor_append (f : Effect T → Option (ShardId × Buffered T))
    (log new : List (Effect T)) :
    messagesFor config k f (log ++ new) =
      messagesFor config k f log ++ messagesFor config k f new := by
  simp [messagesFor]

variable {f : Effect T → Option (ShardId × Buffered T)}

lemma messagesFor_of_none (h : ∀ effect ∈ log, f effect = none) :
    messagesFor config k f log = [] := by
  rw [messagesFor, filterMap_eq_nil_iff.2 h]
  rfl

lemma messagesFor_singleton_none (h : f effect = none) : messagesFor config k f [effect] = [] :=
  messagesFor_of_none (by simpa using h)

lemma messagesFor_singleton (h : f effect = some (j, message))
    (hfor : shardOf config message.message = j) :
    messagesFor config k f [effect] = if j = k then [message] else [] := by
  by_cases hkey : j = k <;> simp [messagesFor, isFor, h, hfor, hkey]

lemma arrivals_append (log new : List (Effect T)) :
    arrivals config k (log ++ new) = arrivals config k log ++ arrivals config k new := by
  simp [arrivals]

lemma arrivals_of_none (h : ∀ effect ∈ log, effect.arrives = none) :
    arrivals config k log = [] := by
  rw [arrivals, filterMap_eq_nil_iff.2 h]
  rfl

lemma arrivals_singleton_none (h : effect.arrives = none) : arrivals config k [effect] = [] :=
  arrivals_of_none (by simpa using h)

lemma arrivals_singleton (full : Bool) (hfor : shardOf config message.message = j) :
    arrivals config k [Effect.arrive j message full] =
      if j = k then [(message, full)] else [] := by
  by_cases hkey : j = k <;> simp [arrivals, Effect.arrives, isFor, hfor, hkey]

lemma arrivals_emit (before : List (Effect T)) (s : Region T) (effect : Effect T) :
    arrivals config k (before ++ (s.emit effect).effects) =
      arrivals config k (before ++ s.effects) ++ arrivals config k [effect] := by
  rw [← arrivals_append, append_assoc]
  rfl

lemma messagesFor_emit (f : Effect T → Option (ShardId × Buffered T))
    (before : List (Effect T)) (s : Region T) (effect : Effect T) :
    messagesFor config k f (before ++ (s.emit effect).effects) =
      messagesFor config k f (before ++ s.effects) ++ messagesFor config k f [effect] := by
  rw [← messagesFor_append, append_assoc]
  rfl

variable (config)

lemma waiting_emit (k : ShardId) (s : Region T) (effect : Effect T) :
    waiting config k (s.emit effect) = waiting config k s := rfl

lemma Effect.takes_of_routed (h : effect.routed = none) :
    effect.takes config = none ∧ effect.deadLetters = none ∧ effect.arrives = none := by
  cases effect <;> first | exact ⟨rfl, rfl, rfl⟩ | cases h

variable {config}

lemma Effect.routed_of_takes {x : ShardId × Buffered T} (h : effect.takes config = some x) :
    effect.routed = some x := by
  cases effect with
  | refuseAsProxy shardId message =>
    rw [Effect.takes] at h
    split at h
    · exact h
    · cases h
  | deliverLocal shardId entityId entityMessage message stopping => exact h
  | deliverRemote shardId node path message => exact h
  | _ => cases h

lemma Effect.routed_of_deadLetters {x : ShardId × Buffered T}
    (h : effect.deadLetters = some x) : effect.routed = some x := by
  cases effect <;> first | exact h | cases h

/-- The message of the effect, if any, is filed under a shard that it is not for. -/
def Effect.IsStray (config : RegionConfig T) (effect : Effect T) : Prop :=
  ∀ j message, effect.routed = some (j, message) → shardOf config message.message ≠ j

lemma messagesFor_singleton_stray (hf : ∀ x, f effect = some x → effect.routed = some x)
    (hstray : effect.IsStray config) : messagesFor config k f [effect] = [] := by
  cases hx : f effect with
  | none => exact messagesFor_singleton_none hx
  | some x =>
    have hne := hstray x.1 x.2 (hf x hx)
    have hnot : isFor config k x = false := by
      by_cases hkey : x.1 = k
      · subst hkey
        simp [isFor, hne]
      · simp [isFor, hkey]
    simp [messagesFor, hx, hnot]

lemma arrivals_singleton_stray (hstray : effect.IsStray config) :
    arrivals config k [effect] = [] := by
  cases effect with
  | arrive j message full =>
    have hne := hstray j message rfl
    have hnot : isFor config k (j, message) = false := by
      by_cases hkey : j = k
      · subst hkey
        simp [isFor, hne]
      · simp [isFor, hkey]
    simp [arrivals, Effect.arrives, hnot]
  | _ => exact arrivals_singleton_none rfl

lemma Effect.only_takes (h : effect.takes config = some (j, message)) :
    effect.deadLetters = none ∧ effect.arrives = none := by
  cases effect <;> first | exact ⟨rfl, rfl⟩ | cases h

end Lists

/-! ### Accounts -/

/-- The account of a region behind a log. Some messages are `held` apart, in front of those
that come, and for some places are `reserved` in the buffer. -/
structure Accounted (config : RegionConfig T) (before : List (Effect T))
    (held : ShardId → List (Buffered T)) (reserved : ℕ) (s : Region T) : Prop where
  counted : s.bufferedCount = (s.buffer.total List.length : ℕ)
  bounded : s.bufferedCount + reserved ≤ config.bufferSize
  dealt : ∀ k, Dealt (arrivals config k (before ++ s.effects))
    (taken config k (before ++ s.effects) ++ (waiting config k s ++ held k))
    (deadLettered config k (before ++ s.effects))

namespace Accounted

variable {before : List (Effect T)} {held : ShardId → List (Buffered T)} {n : ℕ}

lemma of_lists (h : Accounted config before held n s) (hbuffer : t.buffer = s.buffer)
    (hcount : t.bufferedCount = s.bufferedCount)
    (harrivals : ∀ k, arrivals config k (before ++ t.effects) = arrivals config k (before ++ s.effects))
    (htaken : ∀ k, taken config k (before ++ t.effects) = taken config k (before ++ s.effects))
    (hdead : ∀ k, deadLettered config k (before ++ t.effects) =
      deadLettered config k (before ++ s.effects)) : Accounted config before held n t := by
  refine ⟨?_, ?_, fun k => ?_⟩
  · rw [hcount, hbuffer, h.counted]
  · rw [hcount]
    exact h.bounded
  · rw [harrivals, htaken, hdead, waiting, hbuffer]
    exact h.dealt k

lemma starting (h : Accounted config before held n s) (hst : Starting config s t) :
    Accounted config before held n t := by
  obtain ⟨new, heffects, hnew⟩ := hst.effects
  have hquiet := fun effect hmem => Effect.takes_of_routed config (hnew effect hmem).2
  refine h.of_lists hst.buffer hst.bufferedCount (fun k => ?_) (fun k => ?_) fun k => ?_
  · rw [heffects, ← append_assoc, arrivals_append,
      arrivals_of_none fun effect hmem => (hquiet effect hmem).2.2, append_nil]
  · rw [heffects, ← append_assoc, taken, messagesFor_append,
      messagesFor_of_none fun effect hmem => (hquiet effect hmem).1, append_nil, taken]
  · rw [heffects, ← append_assoc, deadLettered, messagesFor_append,
      messagesFor_of_none fun effect hmem => (hquiet effect hmem).2.1, append_nil, deadLettered]

variable {j : ShardId} {message : Buffered T} {rest : List (Buffered T)} {m : ℕ}

/-- The first of the messages held for a shard is passed on, where none waits before it. -/
lemma take (h : Accounted config before held n s) {effect : Effect T}
    (hheld : held j = message :: rest) (hfor : shardOf config message.message = j)
    (hempty : waiting config j s = []) (htakes : effect.takes config = some (j, message))
    (hm : m ≤ n) : Accounted config before (update held j rest) m (s.emit effect) := by
  obtain ⟨hdead, harrives⟩ := Effect.only_takes htakes
  refine ⟨h.counted, ?_, fun k => ?_⟩
  · have hbounded := h.bounded
    have hcount : (s.emit effect).bufferedCount = s.bufferedCount := rfl
    omega
  · have hdealt := h.dealt k
    rw [taken, deadLettered, messagesFor_emit, messagesFor_emit, arrivals_emit, waiting_emit,
      messagesFor_singleton htakes hfor, messagesFor_singleton_none hdead,
      arrivals_singleton_none harrives, append_nil, append_nil]
    by_cases hkey : j = k
    · subst hkey
      rw [if_pos rfl, update_self, hempty, nil_append, append_assoc, singleton_append]
      rw [hempty, hheld, nil_append] at hdealt
      exact hdealt
    · rw [if_neg hkey, update_of_ne (Ne.symm hkey), append_nil]
      exact hdealt

lemma waiting_bufferShard (hroom : s.bufferedCount < config.bufferSize) :
    waiting config k (s.bufferShard config j message) = waiting config k s ++
        if j = k ∧ shardOf config message.message = k then [message] else [] := by
  rw [waiting, bufferShard, if_neg (by omega)]
  rw [get?_set]
  by_cases hkey : j = k
  · subst hkey
    by_cases hfor : shardOf config message.message = j <;> simp [waiting, hfor]
  · simp [waiting, hkey]

lemma bufferShard_full (hfull : (config.bufferSize : ℤ) ≤ s.bufferedCount) :
    s.bufferShard config j message = s.emit (.deadLetter j message) := if_pos hfull

lemma push (h : Accounted config before held n s) (j : ShardId) (message : Buffered T)
    (hroom : s.bufferedCount < config.bufferSize) :
    (s.bufferShard config j message).bufferedCount = s.bufferedCount + 1 ∧
      (s.bufferShard config j message).bufferedCount =
        ((s.bufferShard config j message).buffer.total length : ℕ) ∧
      (s.bufferShard config j message).effects = s.effects := by
  have htotal := total_set length s.buffer j ((s.buffer.get? j).getD [] ++ [message])
  have hlength : (s.buffer.get? j).elim 0 length = ((s.buffer.get? j).getD []).length := by
    cases s.buffer.get? j <;> rfl
  rw [length_append, length_singleton, hlength] at htotal
  have hcounted := h.counted
  rw [bufferShard, if_neg (by omega)]
  refine ⟨rfl, ?_, rfl⟩
  dsimp only
  omega

lemma hold (h : Accounted config before held (n + 1) s) (hheld : held j = message :: rest)
    (hfor : shardOf config message.message = j) :
    Accounted config before (update held j rest) n (s.bufferShard config j message) := by
  have hbounded := h.bounded
  have hroom : s.bufferedCount < config.bufferSize := by omega
  obtain ⟨hcount, hcounted, heffects⟩ := h.push j message hroom
  refine ⟨hcounted, by omega, fun k => ?_⟩
  rw [heffects, waiting_bufferShard hroom]
  have hdealt := h.dealt k
  by_cases hkey : j = k
  · subst hkey
    rw [if_pos ⟨rfl, hfor⟩, update_self, append_assoc, singleton_append, ← hheld]
    exact hdealt
  · rw [if_neg fun hboth => hkey hboth.1, update_of_ne (Ne.symm hkey), append_nil]
    exact hdealt

lemma arrive (h : Accounted config before held n s) (message : Buffered T) (hheld : held j = [])
    (hfor : shardOf config message.message = j) (full : Bool)
    (hm : s.bufferedCount + m ≤ config.bufferSize) :
    Accounted config before (update held j [message]) m (s.emit (.arrive j message full)) := by
  refine ⟨h.counted, hm, fun k => ?_⟩
  have hdealt := h.dealt k
  have htakes : (Effect.arrive j message full : Effect T).takes config = none := rfl
  have hdead : (Effect.arrive j message full : Effect T).deadLetters = none := rfl
  rw [taken, deadLettered, messagesFor_emit, messagesFor_emit, arrivals_emit, waiting_emit,
    arrivals_singleton full hfor, messagesFor_singleton_none htakes,
    messagesFor_singleton_none hdead, append_nil, append_nil]
  by_cases hkey : j = k
  · subst hkey
    rw [if_pos rfl, update_self]
    rw [hheld, append_nil] at hdealt
    rw [← append_assoc]
    exact .keep message full hdealt
  · rw [if_neg hkey, update_of_ne (Ne.symm hkey), append_nil]
    exact hdealt

lemma lose (h : Accounted config before held n s) (hfor : shardOf config message.message = j) :
    Accounted config before held n
      ((s.emit (.arrive j message true)).emit (.deadLetter j message)) := by
  refine ⟨h.counted, h.bounded, fun k => ?_⟩
  have hdealt := h.dealt k
  have hdead : (Effect.arrive j message true : Effect T).deadLetters = none := rfl
  have hlost : (Effect.deadLetter j message : Effect T).deadLetters = some (j, message) := rfl
  have htakes : (Effect.arrive j message true : Effect T).takes config = none := rfl
  have htakes' : (Effect.deadLetter j message : Effect T).takes config = none := rfl
  have harrives : (Effect.deadLetter j message : Effect T).arrives = none := rfl
  rw [taken, deadLettered, messagesFor_emit, messagesFor_emit, messagesFor_emit, messagesFor_emit,
    arrivals_emit, arrivals_emit, waiting_emit, waiting_emit, arrivals_singleton true hfor,
    messagesFor_singleton hlost hfor, messagesFor_singleton_none hdead,
    messagesFor_singleton_none htakes, messagesFor_singleton_none htakes',
    arrivals_singleton_none harrives, append_nil, append_nil, append_nil,
    append_nil]
  by_cases hkey : j = k
  · rw [if_pos hkey, if_pos hkey]
    exact .lose message hdealt
  · rw [if_neg hkey, if_neg hkey, append_nil, append_nil]
    exact hdealt

end Accounted

/-! ### Routing -/

lemma deliverLocal_cases (view : RegionView) (htakes : s.placement.Takes k)
    (message : Buffered T) :
    ∃ u effect, Starting config s u ∧ s.deliverLocal config view k message = u.emit effect ∧
      effect.takes config = some (k, message) := by
  unfold Region.deliverLocal
  split
  · rename_i hproxy
    exact ⟨s, _, .refl s, rfl, if_pos hproxy⟩
  · have hactivity : Aside config s _ := Aside.recordActivity view s k
      (entityIdOf config message.message)
    rw [← hactivity.placement] at htakes
    exact ⟨_, _, hactivity.starting.trans (.ensureShard view htakes.1 htakes.state_ne), rfl, rfl⟩

/-- A message is passed on or refused behind an open route, and buffered behind a closed one. -/
lemma routeMessage_cases (config : RegionConfig T) (view : RegionView) (s : Region T)
    (message : Buffered T) :
    ((s.placement.standing (shardOf config message.message)).IsOpen ∧
      ∃ u effect, Starting config s u ∧ s.routeMessage config view message = u.emit effect ∧
        effect.takes config = some (shardOf config message.message, message)) ∨
    (¬(s.placement.standing (shardOf config message.message)).IsOpen ∧
      Aside config (s.bufferShard config (shardOf config message.message) message)
        (s.routeMessage config view message)) := by
  unfold Region.routeMessage
  dsimp only
  generalize shardOf config message.message = j
  have hasks : Aside config (s.bufferShard config j message)
      ((s.bufferShard config j message).askCoordinator config view j) := .askCoordinator view _ j
  split
  · rename_i hcannot
    exact .inr ⟨fun hopen => Bool.false_ne_true (hopen.1.symm.trans hcannot), .refl _⟩
  · rename_i htakes
    rw [Bool.not_eq_true] at htakes
    split
    · rename_i hnone
      refine .inr ⟨fun hopen => ?_, hasks⟩
      obtain ⟨path, hhome, -⟩ := hopen.2.1
      exact some_ne_none _ (hhome.symm.trans hnone)
    · rename_i path hhome
      split
      · rename_i hpath
        refine .inr ⟨fun hopen => ?_, hasks⟩
        obtain ⟨other, hother, hne⟩ := hopen.2.1
        exact hne ((some.inj (hother.symm.trans hhome)).trans hpath)
      · rename_i hpath
        split
        · rename_i hlocal
          exact .inl ⟨⟨htakes, ⟨path, hhome, hpath⟩, .inl hlocal⟩,
            deliverLocal_cases view ⟨hlocal, htakes⟩ message⟩
        · rename_i haway
          split
          · rename_i hnode
            refine .inr ⟨fun hopen => ?_, hasks⟩
            rcases hopen.2.2 with hlocal | hsome
            · exact haway hlocal
            · exact Bool.false_ne_true ((congrArg isSome hnode).symm.trans hsome)
          · rename_i node hnode
            refine .inl ⟨⟨htakes, ⟨path, hhome, hpath⟩, .inr ?_⟩, s, _, .refl s, rfl, rfl⟩
            exact congrArg isSome hnode

/-- No queue is left behind the shard's open route. -/
def Closed (s : Region T) (k : ShardId) : Prop :=
  (s.placement.standing k).IsOpen → s.buffer.get? k = none

lemma Closed.starting (h : s.Closed k) (hst : Starting config s t) : t.Closed k := by
  rw [Closed, hst.starts.isOpen_iff, hst.buffer]
  exact h

lemma Closed.emit (h : s.Closed k) (effect : Effect T) : (s.emit effect).Closed k := h

lemma Closed.waiting (h : s.Closed k) (hopen : (s.placement.standing k).IsOpen) :
    waiting config k s = [] := by
  rw [Region.waiting, h hopen]
  rfl

lemma Closed.bufferShard (h : s.Closed k) {j : ShardId}
    (hclosed : ¬(s.placement.standing j).IsOpen) (message : Buffered T) :
    (s.bufferShard config j message).Closed k := by
  unfold Region.bufferShard
  split
  · exact h
  · intro hopen
    have hkey : j ≠ k := fun hkey => hclosed (hkey ▸ hopen)
    exact (get?_set _ _ _ _).trans ((if_neg hkey).trans (h hopen))

namespace Accounted

variable {before : List (Effect T)} {held : ShardId → List (Buffered T)} {n : ℕ}
  {rest : List (Buffered T)}

variable (view)

lemma replay (h : Accounted config before held (n + 1) s)
    (hclosed : ∀ k, s.Closed k) {message : Buffered T}
    (hheld : held (shardOf config message.message) = message :: rest) :
    Accounted config before (update held (shardOf config message.message) rest) n
        (s.routeMessage config view message) ∧
      ∀ k, (s.routeMessage config view message).Closed k := by
  rcases routeMessage_cases config view s message with
    ⟨hopen, u, effect, hstarting, heq, htakes⟩ | ⟨hshut, haside⟩
  · rw [heq]
    refine ⟨(h.starting hstarting).take hheld rfl ?_ htakes (le_succ n),
      fun k => ((hclosed k).starting hstarting).emit effect⟩
    exact ((hclosed _).starting hstarting).waiting ((hstarting.starts.isOpen_iff _).2 hopen)
  · exact ⟨(h.hold hheld rfl).starting haside.starting,
      fun k => ((hclosed k).bufferShard hshut message).starting haside.starting⟩

lemma update_update_nil {j : ShardId} (hheld : held j = []) (messages : List (Buffered T)) :
    update (update held j messages) j [] = held := by
  rw [update_idem, ← hheld, update_eq_self]

lemma receiveMessage (h : Accounted config before (fun _ => []) 0 s)
    (hclosed : ∀ k, s.Closed k) (message : Buffered T) :
    Accounted config before (fun _ => []) 0 (s.receiveMessage config view message) ∧
      ∀ k, (s.receiveMessage config view message).Closed k := by
  unfold Region.receiveMessage noteArrival
  have hbounded := h.bounded
  generalize hfull : decide ((config.bufferSize : ℤ) ≤ s.bufferedCount) = full
  have hclosed' := fun k => (hclosed k).emit (.arrive (shardOf config message.message) message full)
  cases full with
  | false =>
    have hroom := of_decide_eq_false hfull
    have harrived := h.arrive message rfl rfl false (m := 1) (by push_cast; omega)
    have hreplayed := harrived.replay view hclosed' (update_self _ _ _)
    rwa [update_update_nil rfl] at hreplayed
  | true =>
    rcases routeMessage_cases config view (s.emit (.arrive (shardOf config message.message)
      message true)) message with ⟨hopen, u, effect, hstarting, heq, htakes⟩ | ⟨hshut, haside⟩
    · have harrived := h.arrive message rfl rfl true hbounded
      have hempty : waiting config (shardOf config message.message) u = [] :=
        ((hclosed' _).starting hstarting).waiting ((hstarting.starts.isOpen_iff _).2 hopen)
      have htaken := (harrived.starting hstarting).take (update_self _ _ _) rfl hempty
        htakes (le_refl 0)
      rw [update_update_nil rfl] at htaken
      rw [heq]
      exact ⟨htaken, fun k => ((hclosed' k).starting hstarting).emit effect⟩
    · rw [bufferShard_full (s := s.emit _) (of_decide_eq_true hfull)] at haside
      exact ⟨(h.lose rfl).starting haside.starting,
        fun k => ((hclosed' k).emit _).starting haside.starting⟩

/-- A queue that was taken out of the buffer is routed again, message after message. -/
lemma replayAll (h : Accounted config before (update (fun _ => []) k
      (rest.filter fun message => shardOf config message.message = k)) rest.length s)
    (hclosed : ∀ k, s.Closed k) :
    Accounted config before (fun _ => []) 0 (rest.foldl (fun s message =>
          if shardOf config message.message = k then s.routeMessage config view message
          else s.receiveMessage config view message) s) ∧
      ∀ j, (rest.foldl (fun s message =>
          if shardOf config message.message = k then s.routeMessage config view message
          else s.receiveMessage config view message) s).Closed j := by
  induction rest generalizing s with
  | nil =>
    rw [filter_nil, update_eq_self_iff.2 rfl] at h
    exact ⟨h, hclosed⟩
  | cons message rest ih =>
    rw [foldl_cons]
    by_cases hkey : shardOf config message.message = k
    · subst hkey
      rw [if_pos rfl]
      rw [filter_cons_of_pos (by simp)] at h
      have hreplayed := h.replay view hclosed (update_self _ _ _)
      rw [update_idem] at hreplayed
      exact ih hreplayed.1 hreplayed.2
    · rw [if_neg hkey]
      rw [filter_cons_of_neg (by simpa using hkey)] at h
      have hheld : update (fun _ => []) k (rest.filter fun message =>
          shardOf config message.message = k) (shardOf config message.message) =
          ([] : List (Buffered T)) := update_of_ne hkey _ _
      have harrived := h.arrive message hheld rfl (decide ((config.bufferSize : ℤ) ≤ s.bufferedCount))
        h.bounded
      have hreplayed := harrived.replay view (fun k => (hclosed k).emit _) (update_self _ _ _)
      rw [update_update_nil hheld] at hreplayed
      exact ih hreplayed.1 hreplayed.2

lemma flushBuffer (h : Accounted config before (fun _ => []) 0 s)
    (hclosed : ∀ j, j ≠ k → s.Closed j) :
    Accounted config before (fun _ => []) 0 (s.flushBuffer config view k) ∧
      ∀ j, (s.flushBuffer config view k).Closed j := by
  unfold Region.flushBuffer
  split
  · rename_i hnone
    refine ⟨h, fun j => ?_⟩
    by_cases hkey : j = k
    · subst hkey
      exact fun _ => hnone
    · exact hclosed j hkey
  · rename_i queue hqueue
    refine replayAll view ?_ fun j hopen => ?_
    · have htotal := total_delete length s.buffer k
      rw [hqueue, elim_some] at htotal
      have hcounted := h.counted
      have hbounded := h.bounded
      refine ⟨?_, ?_, fun j => ?_⟩
      · dsimp only
        omega
      · dsimp only
        omega
      · have hdealt := h.dealt j
        rw [append_nil] at hdealt
        have hwaiting : waiting config j { s with
            buffer := s.buffer.delete k, bufferedCount := s.bufferedCount - queue.length } =
            if k = j then [] else waiting config j s := by
          rw [waiting]
          rw [get?_delete]
          by_cases hkey : k = j <;> simp [hkey, waiting]
        rw [hwaiting]
        by_cases hkey : k = j
        · subst hkey
          rw [if_pos rfl, update_self, nil_append]
          rw [waiting, hqueue, getD_some] at hdealt
          exact hdealt
        · rw [if_neg hkey, update_of_ne (Ne.symm hkey), append_nil]
          exact hdealt
    · dsimp only
      rw [get?_delete]
      split
      · rfl
      · rename_i hkey
        exact hclosed j (Ne.symm hkey) hopen

lemma emit (h : Accounted config before held n s) {effect : Effect T}
    (hstray : effect.IsStray config) : Accounted config before held n (s.emit effect) := by
  refine h.of_lists rfl rfl (fun k => ?_) (fun k => ?_) fun k => ?_
  · rw [arrivals_emit, arrivals_singleton_stray hstray, append_nil]
  · rw [taken, messagesFor_emit,
      messagesFor_singleton_stray (fun _ => Effect.routed_of_takes) hstray, append_nil, taken]
  · rw [deadLettered, messagesFor_emit,
      messagesFor_singleton_stray (fun _ => Effect.routed_of_deadLetters) hstray, append_nil,
      deadLettered]

lemma pushStray (h : Accounted config before held n s) {j : ShardId} {message : Buffered T}
    (hstray : shardOf config message.message ≠ j)
    (hroom : s.bufferedCount + (n + 1) ≤ config.bufferSize) :
    Accounted config before held n (s.bufferShard config j message) := by
  have hroom' : s.bufferedCount < config.bufferSize := by omega
  obtain ⟨hcount, hcounted, heffects⟩ := h.push j message hroom'
  refine ⟨hcounted, by omega, fun k => ?_⟩
  rw [heffects, waiting_bufferShard hroom', if_neg fun hboth => hstray (hboth.2.trans hboth.1.symm),
    append_nil]
  exact h.dealt k

lemma setPlacement (h : Accounted config before held n s) (p : Placement) :
    Accounted config before held n (s.setPlacement p) := ⟨h.counted, h.bounded, h.dealt⟩

end Accounted

/-! ### Handlers -/

/-- All messages are accounted for, and no queue is left behind an open route. -/
structure Kept (config : RegionConfig T) (before : List (Effect T)) (s : Region T) : Prop where
  accounted : Accounted config before (fun _ => []) 0 s
  closed : ∀ k, s.Closed k

/-- So it is, but for the queue of one shard, which is about to be flushed. -/
structure KeptBut (config : RegionConfig T) (before : List (Effect T)) (k : ShardId)
    (s : Region T) : Prop where
  accounted : Accounted config before (fun _ => []) 0 s
  closed : ∀ j, j ≠ k → s.Closed j

variable {before : List (Effect T)}

namespace KeptBut

lemma starting (h : KeptBut config before k s) (hst : Starting config s t) :
    KeptBut config before k t :=
  ⟨h.accounted.starting hst, fun j hj => (h.closed j hj).starting hst⟩

lemma flushBuffer (view : RegionView) (h : KeptBut config before k s) :
    Kept config before (s.flushBuffer config view k) := by
  obtain ⟨haccounted, hclosed⟩ := h.accounted.flushBuffer view h.closed
  exact ⟨haccounted, hclosed⟩

end KeptBut

namespace Kept

lemma starting (h : Kept config before s) (hst : Starting config s t) : Kept config before t :=
  ⟨h.accounted.starting hst, fun k => (h.closed k).starting hst⟩

lemma aside (h : Kept config before s) (haside : Aside config s t) : Kept config before t :=
  h.starting haside.starting

lemma emit (h : Kept config before s) {effect : Effect T} (hrouted : effect.routed = none) :
    Kept config before (s.emit effect) :=
  ⟨h.accounted.emit fun _ _ hsome => (some_ne_none _ (hsome.symm.trans hrouted)).elim,
    fun k => (h.closed k).emit effect⟩

variable (view)

lemma receiveMessage (h : Kept config before s) (message : Buffered T) :
    Kept config before (s.receiveMessage config view message) := by
  obtain ⟨haccounted, hclosed⟩ := h.accounted.receiveMessage view h.closed message
  exact ⟨haccounted, hclosed⟩

variable {p : Placement} {f : Standing → Standing}

lemma setPlacement (h : Kept config before s)
    (hp : ∀ k, (p.standing k).IsOpen → (s.placement.standing k).IsOpen) :
    Kept config before (s.setPlacement p) :=
  ⟨h.accounted.setPlacement p, fun k hopen => h.closed k (hp k hopen)⟩

lemma update (h : Kept config before s) (hp : s.placement.Updates k f p)
    (hf : (f (s.placement.standing k)).IsOpen → (s.placement.standing k).IsOpen) :
    Kept config before (s.setPlacement p) := by
  refine h.setPlacement fun j hopen => ?_
  by_cases hkey : j = k
  · subst hkey
    rw [hp.self] at hopen
    exact hf hopen
  · rwa [hp.other hkey] at hopen

lemma updateBut (h : Kept config before s) (hp : s.placement.Updates k f p) :
    KeptBut config before k (s.setPlacement p) := by
  refine ⟨h.accounted.setPlacement p, fun j hj hopen => h.closed j ?_⟩
  rw [← hp.other hj]
  exact hopen

lemma releaseEverything (h : Kept config before s) : Kept config before s.releaseEverything := by
  have hclear : Kept config before { s with registriesHeldThroughPassivation := .empty } :=
    h.starting (.of_eq rfl rfl rfl rfl)
  have hreleased : Kept config before ({ s with
      registriesHeldThroughPassivation := .empty }.setPlacement s.placement.releaseEverything) := by
    refine hclear.setPlacement fun k hopen => absurd ?_ hopen.home_ne
    rfl
  refine foldlRecOn _ _ hreleased fun t ht k _ => ?_
  exact (ht.aside (.forgetShardEntities t k)).emit rfl

lemma onShardHome (h : Kept config before s) (k : ShardId)
    (region : JsString) (node : NodeAddress) :
    Kept config before (s.onShardHome config view k region node) := by
  unfold Region.onShardHome
  split
  · exact h
  · dsimp only
    have hfile := updates_fileHome s.placement k region node
    split
    · split
      · rename_i hbacking
        refine (h.update (hfile.trans (updates_addLocal _ k)) fun hopen => ?_).starting
          (.flushLocationAsks view _ k)
        exact absurd (hopen.owned hbacking) (fun heq => by cases heq)
      · split
        · refine (h.update (updates_placed s.placement k region node .passivating)
            fun hopen => ?_).starting (.flushLocationAsks view _ k)
          exact absurd (hopen.owned rfl) (fun heq => by cases heq)
        · have hupdates := updates_placed s.placement k region node .owned
          have howned := h.updateBut hupdates
          refine KeptBut.flushBuffer view (KeptBut.starting ?_ (.flushLocationAsks view _ k))
          split
          · exact howned
          · refine howned.starting (.ensureShard view ?_ ?_)
            · exact congrArg isLocal hupdates.self
            · exact fun heq => by cases (congrArg state hupdates.self).symm.trans heq
    · have hleft := h.updateBut (hfile.trans (updates_leave _ k))
      exact (hleft.starting (.flushLocationAsks view _ k)).flushBuffer view

lemma tellHandOffComplete (h : Kept config before s) (k : ShardId) :
    Kept config before (s.tellHandOffComplete config view k) := by
  rcases tellHandOffComplete_cases config view s k with heq | haside
  · rw [heq]
    exact h.emit rfl
  · exact h.aside haside

lemma completeHandOff (h : Kept config before s) (k : ShardId) :
    Kept config before (s.completeHandOff config view k) := by
  have hclear : Kept config before { s with
      registriesHeldThroughPassivation := s.registriesHeldThroughPassivation.delete k } :=
    h.starting (.of_eq rfl rfl rfl rfl)
  have hforgotten := hclear.update (updates_forgetShard s.placement k)
    fun hopen => (hopen.home_ne rfl).elim
  have htold := (hforgotten.aside (.setEntities _
    { s.entities with shardEmptySince := s.entities.shardEmptySince.delete k })).tellHandOffComplete
      view k
  unfold Region.completeHandOff
  dsimp only
  split
  · exact htold.aside (.askCoordinator view _ k)
  · exact htold

lemma onHandOff (h : Kept config before s) (k : ShardId) :
    Kept config before (s.onHandOff config view k) := by
  unfold Region.onHandOff
  split
  · unfold Region.answerHandOffWhileRefused
    split
    · exact h.setPlacement fun j => id
    · exact h.tellHandOffComplete view k
  · split
    · exact h
    · split
      · exact h
      · dsimp only
        have hmarked := h.update (updates_setState s.placement k .handingOff)
          fun hopen => absurd (hopen.owned rfl) (fun heq => by cases heq)
        have hforgot := (hmarked.aside (.tellCoordinator view _ (by exact trivial))).aside
          (.forgetShardEntities ((s.setPlacement (s.placement.setState k .handingOff)).tellCoordinator
            config view (.beginHandOffAcknowledgment k)) k)
        split
        · exact hforgot.completeHandOff view k
        · exact (hforgot.update (updates_startHandOff _ k) id).emit rfl

/-! ### The ends of stops -/

lemma resume (h : KeptBut config before k s)
    (htakes : s.placement.localShards.has k = true → s.placement.Takes k) :
    Kept config before ((s.flushBuffer config view k).startRegistryHeldThroughPassivation config view
      k) :=
  (h.flushBuffer view).starting (.afterFlush view htakes)

lemma onShardPassivationDeclined (h : Kept config before s) (k : ShardId) :
    Kept config before (s.onShardPassivationDeclined config view k) := by
  unfold Region.onShardPassivationDeclined
  split
  · exact h
  · exact resume view (h.updateBut (updates_declinePassivation s.placement k))
      fun hlocal => takes_declinePassivation hlocal

lemma completeShardPassivation (h : Kept config before s) (k : ShardId) :
    Kept config before (s.completeShardPassivation config view k) := by
  have hforget := h.aside (.forgetShardEntities s k)
  exact resume view (hforget.updateBut (updates_endPassivation s.placement k))
    fun hlocal => takes_endPassivation hlocal

lemma completeShardRelease (h : Kept config before s) (k : ShardId) :
    Kept config before (s.completeShardRelease config view k) := by
  have hended := (h.update (updates_endRelease s.placement k) id).setPlacement
    (p := { s.placement.endRelease k with
      handOffsAwaitingRelease := (s.placement.endRelease k).handOffsAwaitingRelease.delete k })
    fun j => id
  have hforgot := hended.aside (.setEntities _
    { s.entities with shardEmptySince := s.entities.shardEmptySince.delete k })
  unfold Region.completeShardRelease
  dsimp only
  split
  · exact hforgot.tellHandOffComplete view k
  · exact hforgot

lemma handleShardTerminated (h : Kept config before s) (k : ShardId) :
    Kept config before (s.handleShardTerminated config view k) := by
  unfold Region.handleShardTerminated
  split
  · exact h
  · split
    · exact h.completeShardRelease view k
    · split
      · exact h.completeHandOff view k
      · split
        · exact h.completeShardPassivation view k
        · exact (h.aside (.forgetShardEntities s k)).update
            (updates_backOffShard s.placement k) fun hopen => hopen.of_backedOff

lemma onShardRespawnTick (h : Kept config before s) (k : ShardId)
    (record : ℕ) : Kept config before (s.onShardRespawnTick config view k record) := by
  unfold Region.onShardRespawnTick
  split
  · exact h
  · split
    · exact h
    · rename_i hbacking
      simp only [Bool.or_eq_true, decide_eq_true_eq, Bool.not_eq_true', not_or, ne_eq, not_not,
        Bool.not_eq_false] at hbacking
      have hupdates := updates_setState s.placement k .owned
      have hback : Kept config before (((s.setPlacement (s.placement.setState k .owned)).ensureShard
          view k).flushBuffer config view k) := by
        refine ((h.updateBut hupdates).starting (.ensureShard view ?_ ?_)).flushBuffer view
        · exact (congrArg Standing.isLocal hupdates.self).trans hbacking.2
        · exact fun heq => by cases (congrArg Standing.state hupdates.self).symm.trans heq
      split
      · exact hback.aside (.tellCoordinator view _ trivial)
      · exact hback

/-! ### The rest -/

lemma onPassivationSweepTick (h : Kept config before s) :
    Kept config before (s.onPassivationSweepTick config view) := by
  have hswept := h.aside (.sweepIdleEntities view s)
  unfold Region.onPassivationSweepTick Region.sweepEmptyShards
  split
  · exact hswept
  · refine foldlRecOn _ _ hswept fun t ht k _ => ?_
    split
    · unfold Region.passivateShard
      split
      · exact ht
      · refine (ht.update (updates_startPassivation t.placement k) fun hopen => ?_).emit rfl
        exact absurd (hopen.owned rfl) (fun heq => by cases heq)
    · exact ht

lemma onMemberRemoved (h : Kept config before s) (address : NodeAddress) :
    Kept config before (s.onMemberRemoved config view address) := by
  refine (h.setPlacement fun k hopen => ?_).aside (.ensureRegistered view _)
  rw [standing_invalidateHomesOnNode] at hopen
  split at hopen
  · exact (hopen.home_ne rfl).elim
  · exact hopen

lemma holdArrival (h : Kept config before s) (message : Buffered T)
    (hshut : ¬(s.placement.standing k).IsOpen) :
    Kept config before ((s.noteArrival config k message).bufferShard config k message) := by
  refine ⟨?_, fun j => ((h.closed j).emit _).bufferShard hshut message⟩
  unfold noteArrival
  by_cases hfor : shardOf config message.message = k
  · by_cases hfull : (config.bufferSize : ℤ) ≤ s.bufferedCount
    · rw [decide_eq_true hfull, Accounted.bufferShard_full (s := s.emit _) hfull]
      exact h.accounted.lose hfor
    · rw [decide_eq_false hfull]
      have harrived := h.accounted.arrive message rfl hfor false (m := 1) (by push_cast; omega)
      have hheld := harrived.hold (update_self _ _ _) hfor
      rwa [Accounted.update_update_nil rfl] at hheld
  · have harrived : Accounted config before (fun _ => []) 0
        (s.emit (.arrive k message (decide ((config.bufferSize : ℤ) ≤ s.bufferedCount)))) := by
      refine h.accounted.emit fun j other hrouted => ?_
      obtain ⟨rfl, rfl⟩ := Prod.mk.inj (some.inj hrouted)
      exact hfor
    by_cases hfull : (config.bufferSize : ℤ) ≤ s.bufferedCount
    · rw [Accounted.bufferShard_full (s := s.emit _) hfull]
      refine harrived.emit fun j other hrouted => ?_
      obtain ⟨rfl, rfl⟩ := Prod.mk.inj (some.inj hrouted)
      exact hfor
    · refine harrived.pushStray hfor ?_
      have hcount : (s.emit (.arrive k message (decide ((config.bufferSize : ℤ) ≤
        s.bufferedCount)))).bufferedCount = s.bufferedCount := rfl
      omega

lemma onToShard (h : Kept config before s) (k : ShardId)
    (message : ShardMessage T) (sender : Option JsString) :
    Kept config before (s.onToShard config view k message sender) := by
  unfold Region.onToShard
  split
  · exact h
  · split
    · split
      · exact h.receiveMessage view _
      · exact h.emit rfl
    · rename_i hlocal
      rw [Bool.not_eq_true', Bool.not_eq_false] at hlocal
      split
      · rename_i hcannot
        split
        · exact h.holdArrival _ fun hopen => Bool.false_ne_true (hopen.1.symm.trans hcannot)
        · exact h.emit rfl
      · rename_i htakes
        exact h.starting (.tellShard view ⟨hlocal, Bool.not_eq_true _ ▸ htakes⟩ message)

end Kept

/-! ### Runs -/

lemma Kept.handle (h : Kept config before s) (view : RegionView) (input : Input T) :
    Kept config before (s.handle config view input) := by
  cases input with
  | route message => exact h.receiveMessage view message
  | toShard shardId message sender => exact h.onToShard view shardId message sender
  | directive message peer =>
    unfold Region.handle
    dsimp only
    split
    · cases message with
      | registerAcknowledgment => exact h.aside (.onRegisterAcknowledgment view s)
      | registerRefused numShards regionNumShards =>
        have hrefused : Kept config before { s with registerRefused := true } :=
          h.starting (.of_eq rfl rfl rfl rfl)
        exact hrefused.releaseEverything
      | registrationRequest => exact h.aside (.ensureRegistered view s)
      | regionEvicted silentForMs => exact h.releaseEverything.aside (.ensureRegistered view _)
      | shardHome shardId region node => exact h.onShardHome view shardId region node
      | handOff shardId => exact h.onHandOff view shardId
      | rememberedEntities shardId entityIds =>
        exact h.starting (.onRememberedEntities view s shardId entityIds)
    · exact h
  | getShardLocation shardId giveUpAt =>
    exact h.starting (.onGetShardLocation view s shardId giveUpAt)
  | entityStarted shardId entityId => exact h.aside (.onEntityStarted view s shardId entityId)
  | entityStopped shardId entityId => exact h.aside (.onEntityStopped view s shardId entityId)
  | shardTerminated shardId => exact h.handleShardTerminated view shardId
  | shardPassivationDeclined shardId => exact h.onShardPassivationDeclined view shardId
  | shardRespawnTick shardId record => exact h.onShardRespawnTick view shardId record
  | passivationSweepTick => exact h.onPassivationSweepTick view
  | entityRecoveryTick => exact h.starting (.onEntityRecoveryTick view s)
  | asksSweepTick => exact h.aside (.onAsksSweepTick view s)
  | registerRetry => exact h.aside (.ensureRegistered view s)
  | leaderChanged => exact h.aside (.onLeaderChanged view s)
  | memberRemoved address => exact h.onMemberRemoved view address
  | memberUp => exact h.aside (.ensureRegistered view s)

lemma Kept.step (h : Kept config before s) (view : RegionView) (input : Input T) :
    Kept config (before ++ s.effects) (s.step config view input) := by
  have hstart : Kept config (before ++ s.effects) { s with effects := [] } := by
    refine ⟨⟨h.accounted.counted, h.accounted.bounded, fun k => ?_⟩, h.closed⟩
    rw [append_nil]
    exact h.accounted.dealt k
  exact hstart.handle view input

lemma Kept.run (h : Kept config before s) (steps : List (RegionView × Input T)) :
    ∃ logged, Kept config logged (s.run config steps) ∧
      logged ++ (s.run config steps).effects = before ++ s.effects ++ s.log config steps := by
  induction steps generalizing s before with
  | nil => exact ⟨before, h, (append_nil _).symm⟩
  | cons x steps ih =>
    obtain ⟨logged, hkept, hlogged⟩ := ih (h.step x.1 x.2)
    refine ⟨logged, hkept, hlogged.trans ?_⟩
    rw [Region.log]
    simp only [append_assoc]

lemma kept_empty (config : RegionConfig T) : Kept config [] {} :=
  ⟨⟨rfl, by simp, fun _ => .nil⟩, fun _ _ => rfl⟩

lemma passedOn_sublist_taken (log : List (Effect T)) :
    (passedOn config k log).Sublist (taken config k log) := by
  refine List.Sublist.map _ (List.Sublist.filter _ ?_)
  induction log with
  | nil => exact List.Sublist.slnil
  | cons effect log ih =>
    cases effect with
    | refuseAsProxy shardId message =>
      rw [filterMap_cons_none (show (Effect.refuseAsProxy shardId message :
        Effect T).passes = none from rfl), filterMap_cons]
      split
      · exact ih
      · exact ih.cons _
    | deliverLocal shardId entityId entityMessage message stopping => exact ih.cons_cons _
    | deliverRemote shardId node path message => exact ih.cons_cons _
    | _ => exact ih

end Region

end ActorTs.Cluster.Sharding
