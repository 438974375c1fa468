import ActorTs.Cluster.Sharding.RegionReports
import ActorTs.Cluster.Sharding.Standing

/-!
# What routing does to a region's shards

To route a message, to tell a shard something or to look up where it is does no more to the
shards of a region than start the actor of one that is to run here and is not backing off.
`Routing` says so of a part of a step, with what it told whom.
-/

open List Option

namespace ActorTs.Cluster.Sharding

open Standing

/-- From `p` to `q` some shards that are to run here got an actor. -/
structure Placement.Starts (p q : Placement) : Prop where
  localShards : q.localShards = p.localShards
  standing : ∀ j, q.standing j = p.standing j ∨
    (p.standing j).isLocal = true ∧ (p.standing j).state ≠ some .backingOff ∧
      q.standing j = (p.standing j).withActor

namespace Placement.Starts

variable {p q r : Placement}

lemma refl (p : Placement) : Starts p p := ⟨rfl, fun _ => .inl rfl⟩

lemma trans (hpq : Starts p q) (hqr : Starts q r) : Starts p r where
  localShards := hqr.localShards.trans hpq.localShards
  standing j := by
    rcases hpq.standing j with hq | ⟨hlocal, hstate, hq⟩
    · rw [← hq]
      exact hqr.standing j
    · refine .inr ⟨hlocal, hstate, ?_⟩
      rcases hqr.standing j with hr | ⟨-, -, hr⟩
      · exact hr.trans hq
      · rw [hr, hq]
        rfl

lemma ensureShard {k : ShardId} (hlocal : (p.standing k).isLocal = true)
    (hstate : (p.standing k).state ≠ some .backingOff) : Starts p (p.ensureShard k) where
  localShards := rfl
  standing j := by
    rw [updates_ensureShard]
    split
    · rename_i hkey
      subst hkey
      exact .inr ⟨hlocal, hstate, rfl⟩
    · exact .inl rfl

lemma isLocal (h : Starts p q) (k : ShardId) :
    (q.standing k).isLocal = (p.standing k).isLocal := by
  rcases h.standing k with hq | ⟨-, -, hq⟩ <;> rw [hq]
  rfl

lemma state (h : Starts p q) (k : ShardId) : (q.standing k).state = (p.standing k).state := by
  rcases h.standing k with hq | ⟨-, -, hq⟩ <;> rw [hq]
  rfl

lemma home (h : Starts p q) (k : ShardId) : (q.standing k).home = (p.standing k).home := by
  rcases h.standing k with hq | ⟨-, -, hq⟩ <;> rw [hq]
  rfl

lemma homeNode (h : Starts p q) (k : ShardId) :
    (q.standing k).homeNode = (p.standing k).homeNode := by
  rcases h.standing k with hq | ⟨-, -, hq⟩ <;> rw [hq]
  rfl

lemma isStopping (h : Starts p q) (k : ShardId) : q.isStopping k = p.isStopping k := by
  rw [← isStopping_standing, ← isStopping_standing]
  rcases h.standing k with hq | ⟨-, -, hq⟩ <;> rw [hq]
  rfl

lemma cannotTakeMessages (h : Starts p q) (k : ShardId) :
    q.shardCannotTakeMessages k = p.shardCannotTakeMessages k := by
  rw [← cannotTakeMessages_standing, ← cannotTakeMessages_standing, Standing.cannotTakeMessages,
    Standing.cannotTakeMessages, h.state]

end Placement.Starts

/-- The shard is to run here, and its actor takes messages. -/
def Placement.Takes (p : Placement) (k : ShardId) : Prop :=
  p.localShards.has k = true ∧ p.shardCannotTakeMessages k = false

variable {p : Placement} {k : ShardId} {q : Placement}

lemma Placement.takes_of (hlocal : p.localShards.has k = true)
    (hhanding : p.shardState.get? k ≠ some .handingOff)
    (hpassivating : p.shardState.get? k ≠ some .passivating)
    (hbacking : p.shardState.get? k ≠ some .backingOff) : p.Takes k := by
  refine ⟨hlocal, Bool.eq_false_iff.2 fun hcannot => ?_⟩
  obtain ⟨state, hget, hstate⟩ := (any_eq_true _ _).1 hcannot
  rcases of_decide_eq_true hstate with rfl | rfl | rfl
  · exact hhanding hget
  · exact hpassivating hget
  · exact hbacking hget

lemma Placement.takes_of_owned (hlocal : p.localShards.has k = true)
    (hstate : p.shardState.get? k = some .owned) : p.Takes k := by
  refine takes_of hlocal ?_ ?_ ?_ <;> rw [hstate] <;> exact fun heq => by cases heq

lemma Placement.takes_endPassivation (hlocal : (p.endPassivation k).localShards.has k = true) :
    (p.endPassivation k).Takes k := by
  have hstanding := (updates_endPassivation p k).self
  have hhere : p.localShards.has k = true := (congrArg isLocal hstanding).symm.trans hlocal
  exact takes_of_owned hlocal ((congrArg state hstanding).trans (if_pos hhere))

lemma Placement.takes_declinePassivation
    (hlocal : (p.declinePassivation k).localShards.has k = true) :
    (p.declinePassivation k).Takes k := by
  have hstanding := (updates_declinePassivation p k).self
  have hhere : p.localShards.has k = true := (congrArg isLocal hstanding).symm.trans hlocal
  exact takes_of_owned hlocal ((congrArg state hstanding).trans (if_pos hhere))

lemma Placement.Takes.state_ne (h : p.Takes k) : (p.standing k).state ≠ some .backingOff := by
  intro hstate
  have htakes := h.2
  rw [← cannotTakeMessages_standing, cannotTakeMessages, hstate] at htakes
  simp at htakes

lemma Placement.Starts.takes_iff (h : Starts p q) (k : ShardId) : q.Takes k ↔ p.Takes k := by
  rw [Takes, Takes, h.localShards, h.cannotTakeMessages]

namespace Region

variable {T : Type} {config : RegionConfig T} {view : RegionView} {s t u : Region T}

/-- A shard is told something only where it takes messages, and the coordinator is sent
reports. -/
def Effect.IsRouting (config : RegionConfig T) (p : Placement) : Effect T → Prop
  | .deliverLocal shardId _ _ _ stopping => p.Takes shardId ∧ stopping = p.isStopping shardId
  | .tellShard shardId _ stopping => p.Takes shardId ∧ stopping = p.isStopping shardId
  | .tellCoordinator message => (Effect.tellCoordinator message : Effect T).IsReport config p
  | _ => True

variable {p : Placement} {α : Type*}

lemma Effect.IsReport.isRouting {effect : Effect T} (h : effect.IsReport config p) :
    effect.IsRouting config p := by
  cases effect with
  | tellCoordinator message => exact h
  | passivateEntity shardId entityId => trivial
  | _ => exact h.elim

lemma Effect.isReport_congr (h : q.localShards = p.localShards) (message : ToCoordinator) :
    (Effect.tellCoordinator message : Effect T).IsReport config q ↔
      (Effect.tellCoordinator message : Effect T).IsReport config p := by
  cases message with
  | register message => exact iff_of_eq (by simp only [Effect.IsReport, h])
  | _ => exact Iff.rfl

lemma Effect.isRouting_congr (h : p.Starts q) (effect : Effect T) :
    effect.IsRouting config q ↔ effect.IsRouting config p := by
  cases effect with
  | deliverLocal shardId entityId entityMessage message stopping =>
    exact and_congr (h.takes_iff shardId) (by rw [h.isStopping])
  | tellShard shardId message stopping =>
    exact and_congr (h.takes_iff shardId) (by rw [h.isStopping])
  | tellCoordinator message => exact isReport_congr h.localShards message
  | _ => exact Iff.rfl

/-- The message that an effect passes on, refuses or takes in. -/
def Effect.routed : Effect T → Option (ShardId × Buffered T)
  | .deliverLocal shardId _ _ message _ => some (shardId, message)
  | .deliverRemote shardId _ _ message => some (shardId, message)
  | .refuseAsProxy shardId message => some (shardId, message)
  | .deadLetter shardId message => some (shardId, message)
  | .arrive shardId message _ => some (shardId, message)
  | _ => none

/-- From `s` to `t` the region did no more to its shards than routing does. -/
structure Routing (config : RegionConfig T) (s t : Region T) : Prop where
  starts : s.placement.Starts t.placement
  effects : ∃ new, t.effects = s.effects ++ new ∧
    ∀ effect ∈ new, effect.IsRouting config s.placement

/-- From `s` to `t` the region did so without routing a message. -/
structure Starting (config : RegionConfig T) (s t : Region T) : Prop where
  starts : s.placement.Starts t.placement
  buffer : t.buffer = s.buffer
  bufferedCount : t.bufferedCount = s.bufferedCount
  effects : ∃ new, t.effects = s.effects ++ new ∧
    ∀ effect ∈ new, effect.IsRouting config s.placement ∧ effect.routed = none

lemma Effect.IsReport.routed {effect : Effect T} (h : effect.IsReport config p) :
    effect.routed = none := by
  cases effect with
  | tellCoordinator message => rfl
  | passivateEntity shardId entityId => rfl
  | _ => exact h.elim

lemma Aside.starting (h : Aside config s t) : Starting config s t := by
  obtain ⟨reports, heffects, hreports⟩ := h.effects
  refine ⟨h.placement ▸ .refl _, h.buffer, h.bufferedCount, reports, heffects, ?_⟩
  exact fun effect hmem => ⟨(hreports effect hmem).isRouting, (hreports effect hmem).routed⟩

namespace Starting

lemma of_eq (hplacement : t.placement = s.placement) (hbuffer : t.buffer = s.buffer)
    (hcount : t.bufferedCount = s.bufferedCount) (heffects : t.effects = s.effects) :
    Starting config s t := (Aside.of_eq hplacement hbuffer hcount heffects).starting

lemma refl (s : Region T) : Starting config s s := of_eq rfl rfl rfl rfl

lemma trans (hst : Starting config s t) (htu : Starting config t u) : Starting config s u := by
  obtain ⟨new, heffects, hnew⟩ := hst.effects
  obtain ⟨more, heffects', hmore⟩ := htu.effects
  refine ⟨hst.starts.trans htu.starts, htu.buffer.trans hst.buffer,
    htu.bufferedCount.trans hst.bufferedCount, new ++ more, ?_, fun effect hmem => ?_⟩
  · rw [heffects', heffects, append_assoc]
  · rcases mem_append.1 hmem with hmem | hmem
    · exact hnew effect hmem
    · exact (hmore effect hmem).imp_left (Effect.isRouting_congr hst.starts effect).1

lemma foldl {f : Region T → α → Region T} (h : ∀ s a, Starting config s (f s a)) (s : Region T)
    (l : List α) : Starting config s (l.foldl f s) :=
  foldlRecOn l f (refl s) fun t ht a _ => ht.trans (h t a)

variable {shardId : ShardId}

lemma ensureShard (view : RegionView) (hlocal : (s.placement.standing shardId).isLocal = true)
    (hstate : (s.placement.standing shardId).state ≠ some .backingOff) :
    Starting config s (s.ensureShard view shardId) := by
  unfold Region.ensureShard
  split
  · exact refl s
  · exact ⟨.ensureShard hlocal hstate, rfl, rfl, [], (append_nil _).symm, by simp⟩

lemma tellShard (view : RegionView) (htakes : s.placement.Takes shardId)
    (message : ShardMessage T) : Starting config s (s.tellShard view shardId message) := by
  have hensure : Starting config s (s.ensureShard view shardId) :=
    ensureShard view htakes.1 htakes.state_ne
  have htakes' := (hensure.starts.takes_iff shardId).2 htakes
  exact hensure.trans ⟨.refl _, rfl, rfl, [_], rfl, by
    simpa using ⟨⟨htakes', rfl⟩, rfl⟩⟩

lemma knownShardRef (h : s.knownShardRef config view shardId = some t) : Starting config s t := by
  unfold Region.knownShardRef at h
  split at h
  · split at h
    · cases h
    · split at h
      · rename_i hruns
        simp only [Bool.and_eq_true, Bool.not_eq_true'] at hruns
        obtain rfl := some.inj h
        have htakes : s.placement.Takes shardId := ⟨hruns.1.1.2, hruns.2⟩
        exact ensureShard view htakes.1 htakes.state_ne
      · obtain rfl := some.inj h
        exact refl _
  · cases h

variable (view) (s)

lemma flushLocationAsks (shardId : ShardId) :
    Starting config s (s.flushLocationAsks config view shardId) := by
  unfold Region.flushLocationAsks
  split
  · exact refl s
  · split
    · exact refl s
    · rename_i t hknown
      exact (knownShardRef hknown).trans (of_eq rfl rfl rfl rfl)

lemma onGetShardLocation (shardId : ShardId)
    (giveUpAt : ℚ) : Starting config s (s.onGetShardLocation config view shardId giveUpAt) := by
  unfold Region.onGetShardLocation
  split
  · exact refl s
  · split
    · rename_i t hknown
      exact knownShardRef hknown
    · refine Starting.trans ?_ (Aside.askCoordinator view _ shardId).starting
      exact of_eq rfl rfl rfl rfl

lemma recover (budget : ℕ) (requeued todo : List (ShardId × JsString)) :
    Starting config s (s.recover view budget requeued todo) := by
  induction todo generalizing s budget requeued with
  | nil => exact of_eq rfl rfl rfl rfl
  | cons pending todo ih =>
    unfold Region.recover
    dsimp only
    split
    · exact of_eq rfl rfl rfl rfl
    · split
      · exact ih s _ _
      · split
        · exact ih s _ _
        · rename_i hpassivating
          have hset : Aside config s _ := Aside.setEntities s { s.entities with
            entityRecoveryQueued := s.entities.entityRecoveryQueued.delete pending.2 }
          refine hset.starting.trans ?_
          split
          · exact ih _ _ _
          · rename_i hstate
            simp only [not_or, Bool.not_eq_true', Bool.not_eq_false] at hstate
            have htakes := Placement.takes_of hstate.1 hstate.2.1 hpassivating hstate.2.2
            exact (tellShard view htakes _).trans (ih _ _ _)

lemma onEntityRecoveryTick : Starting config s (s.onEntityRecoveryTick config view) :=
  (recover view s _ _ _).trans (of_eq rfl rfl rfl rfl)

variable {s}

lemma queueEntityRecovery (hlocal : (s.placement.standing shardId).isLocal = true)
    (hstate : (s.placement.standing shardId).state ≠ some .backingOff) (entityIds : List JsString) :
    Starting config s (s.queueEntityRecovery config view shardId entityIds) := by
  have hqueued : Starting config s
      (entityIds.foldl (Region.enqueueRecovery shardId) (s.ensureShard view shardId)) :=
    (ensureShard view hlocal hstate).trans
      (foldl (fun t entityId => (Aside.enqueueRecovery shardId t entityId).starting) _ _)
  unfold Region.queueEntityRecovery
  dsimp only
  split
  · exact hqueued
  · split
    · exact hqueued
    · exact hqueued.trans (onEntityRecoveryTick view _)

lemma startRegistryHeldThroughPassivation
    (htakes : s.placement.localShards.has shardId = true → s.placement.Takes shardId) :
    Starting config s (s.startRegistryHeldThroughPassivation config view shardId) := by
  unfold Region.startRegistryHeldThroughPassivation
  split
  · exact refl s
  · dsimp only
    split
    · exact of_eq rfl rfl rfl rfl
    · rename_i hlocal
      simp only [Bool.or_eq_true, Bool.not_eq_true', not_or, Bool.not_eq_false] at hlocal
      refine Starting.trans ?_ (tellShard view ?_ _)
      · exact of_eq rfl rfl rfl rfl
      · exact htakes hlocal.1

lemma onRememberedEntities (s : Region T) (shardId : ShardId) (entityIds : List JsString) :
    Starting config s (s.onRememberedEntities config view shardId entityIds) := by
  unfold Region.onRememberedEntities
  dsimp only
  split
  · exact refl s
  · rename_i hruns
    simp only [Bool.or_eq_true, Bool.not_eq_true', decide_eq_true_eq, not_or, Bool.not_eq_false,
      Bool.not_eq_true] at hruns
    obtain ⟨⟨hlocal, -⟩, hbacking⟩ := hruns
    split
    · exact queueEntityRecovery view hlocal hbacking entityIds
    · split
      · exact refl s
      · rename_i hhanding
        split
        · exact (Aside.holdThroughPassivation s shardId entityIds).starting
        · rename_i hpassivating
          exact tellShard view (Placement.takes_of hlocal hhanding hpassivating hbacking) _

end Starting

lemma Starting.routing (h : Starting config s t) : Routing config s t := by
  obtain ⟨new, heffects, hnew⟩ := h.effects
  exact ⟨h.starts, new, heffects, fun effect hmem => (hnew effect hmem).1⟩

lemma Aside.routing (h : Aside config s t) : Routing config s t := h.starting.routing

namespace Routing

lemma of_eq (hplacement : t.placement = s.placement) (heffects : t.effects = s.effects) :
    Routing config s t :=
  ⟨hplacement ▸ .refl _, [], by rw [heffects, append_nil], by simp⟩

lemma refl (s : Region T) : Routing config s s := of_eq rfl rfl

lemma trans (hst : Routing config s t) (htu : Routing config t u) : Routing config s u := by
  obtain ⟨new, heffects, hnew⟩ := hst.effects
  obtain ⟨more, heffects', hmore⟩ := htu.effects
  refine ⟨hst.starts.trans htu.starts, new ++ more, ?_, fun effect hmem => ?_⟩
  · rw [heffects', heffects, append_assoc]
  · rcases mem_append.1 hmem with hmem | hmem
    · exact hnew effect hmem
    · exact (Effect.isRouting_congr hst.starts effect).1 (hmore effect hmem)

lemma foldl {f : Region T → α → Region T} (h : ∀ s a, Routing config s (f s a)) (s : Region T)
    (l : List α) : Routing config s (l.foldl f s) :=
  foldlRecOn l f (refl s) fun t ht a _ => ht.trans (h t a)

lemma emit (s : Region T) (effect : Effect T) (h : effect.IsRouting config s.placement) :
    Routing config s (s.emit effect) := ⟨.refl _, [effect], rfl, by simpa using h⟩

lemma bufferShard (s : Region T) (shardId : ShardId) (message : Buffered T) :
    Routing config s (s.bufferShard config shardId message) := by
  unfold Region.bufferShard
  split
  · exact emit s _ trivial
  · exact of_eq rfl rfl

variable (view)

lemma deliverLocal {shardId : ShardId} (htakes : s.placement.Takes shardId)
    (message : Buffered T) : Routing config s (s.deliverLocal config view shardId message) := by
  unfold Region.deliverLocal
  split
  · exact emit s _ trivial
  · have hactivity : Aside config s _ := Aside.recordActivity view s shardId
      (entityIdOf config message.message)
    have htakes' : (s.recordActivity view shardId
        (entityIdOf config message.message)).placement.Takes shardId := by
      rw [hactivity.placement]
      exact htakes
    have hensure : Starting config _ _ :=
      Starting.ensureShard view htakes'.1 htakes'.state_ne
    refine (hactivity.routing.trans hensure.routing).trans (emit _ (.deliverLocal _ _ _ _ _) ?_)
    exact ⟨(hensure.starts.takes_iff shardId).2 htakes', rfl⟩

variable (s) (message : Buffered T)

lemma routeMessage : Routing config s (s.routeMessage config view message) := by
  unfold Region.routeMessage
  dsimp only
  have hhold : Routing config s ((s.bufferShard config (shardOf config message.message)
      message).askCoordinator config view (shardOf config message.message)) :=
    (bufferShard s _ _).trans (Aside.askCoordinator view _ _).routing
  split
  · exact bufferShard s _ _
  · rename_i htakes
    rw [Bool.not_eq_true] at htakes
    split
    · exact hhold
    · split
      · exact hhold
      · split
        · rename_i hlocal
          exact deliverLocal view ⟨hlocal, htakes⟩ message
        · split
          · exact hhold
          · exact emit s _ trivial

lemma receiveMessage : Routing config s (s.receiveMessage config view message) :=
  (emit s (.arrive _ _ _) trivial).trans (routeMessage view _ message)

lemma flushBuffer (shardId : ShardId) :
    Routing config s (s.flushBuffer config view shardId) := by
  unfold Region.flushBuffer
  split
  · exact refl s
  · refine Routing.trans ?_ (foldl (fun t message => ?_) _ _)
    · exact of_eq rfl rfl
    · split
      · exact routeMessage view t message
      · exact receiveMessage view t message

lemma onToShard (shardId : ShardId) (message : ShardMessage T) (sender : Option JsString) :
    Routing config s (s.onToShard config view shardId message sender) := by
  unfold Region.onToShard
  split
  · exact refl s
  · split
    · split
      · exact receiveMessage view s _
      · exact emit s _ trivial
    · rename_i hlocal
      rw [Bool.not_eq_true', Bool.not_eq_false] at hlocal
      split
      · split
        · exact (emit s (.arrive _ _ _) trivial).trans (bufferShard _ _ _)
        · exact emit s _ trivial
      · rename_i htakes
        exact (Starting.tellShard view ⟨hlocal, Bool.not_eq_true _ ▸ htakes⟩ message).routing

end Routing

/-- The held registry is started where the shard takes messages before the flush. -/
lemma Starting.afterFlush (view : RegionView) {shardId : ShardId}
    (htakes : s.placement.localShards.has shardId = true → s.placement.Takes shardId) :
    Starting config (s.flushBuffer config view shardId)
      ((s.flushBuffer config view shardId).startRegistryHeldThroughPassivation config view
        shardId) := by
  have hflush : Routing config s _ := Routing.flushBuffer view s shardId
  refine .startRegistryHeldThroughPassivation view fun hlocal => ?_
  rw [hflush.starts.localShards] at hlocal
  exact (hflush.starts.takes_iff shardId).2 (htakes hlocal)

end Region

end ActorTs.Cluster.Sharding
