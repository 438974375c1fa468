import ActorTs.Cluster.Sharding.ShardRegion

/-!
# What a region does beside its shards

Much of what a region does is to report: it registers, asks for homes, tells of entities,
and lets a shard passivate one of them. `Aside` says that this was all, so that where the
shards are, what waits for them and what was routed to them stays as it was.
-/

namespace ActorTs.Cluster.Sharding.Region

variable {T : Type} {config : RegionConfig T} {view : RegionView} {s t u : Region T}

/-- A report of a region whose shards are so placed. The end of a hand-off is none. -/
def Effect.IsReport (config : RegionConfig T) (p : Placement) : Effect T → Prop
  | .tellCoordinator (.register message) =>
    message = ⟨config.path, config.selfAddress, config.proxy, p.localShards.elems,
      config.numShards⟩
  | .tellCoordinator (.getShardHome query) =>
    query.requester = config.path ∧ query.requesterNode = config.selfAddress
  | .tellCoordinator (.handOffComplete _ _ _) => False
  | .tellCoordinator _ => True
  | .passivateEntity _ _ => True
  | _ => False

/-- From `s` to `t` the region did no more than report. -/
structure Aside (config : RegionConfig T) (s t : Region T) : Prop where
  placement : t.placement = s.placement
  buffer : t.buffer = s.buffer
  bufferedCount : t.bufferedCount = s.bufferedCount
  effects : ∃ reports, t.effects = s.effects ++ reports ∧
    ∀ effect ∈ reports, effect.IsReport config s.placement

namespace Aside

lemma of_eq (hplacement : t.placement = s.placement) (hbuffer : t.buffer = s.buffer)
    (hcount : t.bufferedCount = s.bufferedCount) (heffects : t.effects = s.effects) :
    Aside config s t :=
  ⟨hplacement, hbuffer, hcount, [], by rw [heffects, List.append_nil], by simp⟩

lemma refl (s : Region T) : Aside config s s := of_eq rfl rfl rfl rfl

lemma trans (hst : Aside config s t) (htu : Aside config t u) : Aside config s u := by
  obtain ⟨reports, heffects, hreports⟩ := hst.effects
  obtain ⟨more, heffects', hmore⟩ := htu.effects
  refine ⟨htu.placement.trans hst.placement, htu.buffer.trans hst.buffer,
    htu.bufferedCount.trans hst.bufferedCount, reports ++ more, ?_, ?_⟩
  · rw [heffects', heffects, List.append_assoc]
  · rw [hst.placement] at hmore
    exact fun effect hmem => (List.mem_append.1 hmem).elim (hreports effect) (hmore effect)

lemma foldl {α : Type*} {f : Region T → α → Region T} (h : ∀ s a, Aside config s (f s a))
    (s : Region T) (l : List α) : Aside config s (l.foldl f s) :=
  List.foldlRecOn l f (refl s) fun t ht a _ => ht.trans (h t a)

lemma ite {p : Prop} [Decidable p] (hst : Aside config s t) (hsu : Aside config s u) :
    Aside config s (if p then t else u) :=
  iteInduction (fun _ => hst) fun _ => hsu

variable (s)

lemma emit (effect : Effect T) (h : effect.IsReport config s.placement) :
    Aside config s (s.emit effect) :=
  ⟨rfl, rfl, rfl, [effect], rfl, by simpa using h⟩

lemma setEntities (entities : EntityTables) :
    Aside config s (s.setEntities entities) := of_eq rfl rfl rfl rfl

lemma register : Aside config s (s.register config) := by
  refine Aside.trans (emit s (.tellCoordinator (.register _)) ?_) (foldl (fun t shardId => ?_) _ _)
  · rfl
  · exact emit t (.tellCoordinator (.getShardHome ⟨shardId, _, _⟩)) ⟨rfl, rfl⟩

variable (view)

lemma ensureRegistered (s : Region T) :
    Aside config s (s.ensureRegistered config view) := by
  unfold Region.ensureRegistered
  split
  · exact refl s
  · dsimp only
    have hnode (node : NodeAddress) : Aside config s { s with coordinatorNode := some node } :=
      of_eq rfl rfl rfl rfl
    have href (t : Region T) : Aside config t { t with coordinatorRef := true } :=
      of_eq rfl rfl rfl rfl
    refine ite (hnode _) (((hnode _).trans (href _)).trans (ite (refl _) (register _)))

lemma tellCoordinator (s : Region T) {message : ToCoordinator}
    (h : (Effect.tellCoordinator message : Effect T).IsReport config s.placement) :
    Aside config s (s.tellCoordinator config view message) :=
  ite (emit s _ h) (ensureRegistered view s)

lemma askCoordinator (s : Region T) (shardId : ShardId) :
    Aside config s (s.askCoordinator config view shardId) :=
  ite (refl s) (tellCoordinator view s ⟨rfl, rfl⟩)

lemma onRegisterAcknowledgment (s : Region T) :
    Aside config s (s.onRegisterAcknowledgment config view) := by
  have hclear : Aside config s { s with registerRefused := false } := of_eq rfl rfl rfl rfl
  exact hclear.trans (foldl (askCoordinator view) _ _)

lemma onLeaderChanged (s : Region T) :
    Aside config s (s.onLeaderChanged config view) := by
  have hclear : Aside config s
      { s with coordinatorRef := false, coordinatorNode := none, registerRefused := false } :=
    of_eq rfl rfl rfl rfl
  exact hclear.trans (ensureRegistered view _)

lemma requestPassivation (entityId : JsString) (shardId : ShardId) :
    Aside config s (s.requestPassivation entityId shardId) :=
  ite (refl s) ((setEntities s _).trans (emit _ (.passivateEntity _ _) trivial))

lemma admitEntity (s : Region T) (shardId : ShardId) (entityId : JsString) :
    Aside config s (s.admitEntity view shardId entityId) := by
  unfold Region.admitEntity
  split
  · exact refl s
  · exact requestPassivation s _ _

lemma recordActivity (s : Region T) (shardId : ShardId)
    (entityId : JsString) : Aside config s (s.recordActivity view shardId entityId) := by
  unfold Region.recordActivity
  split
  · exact refl s
  · split
    · exact (admitEntity view s shardId entityId).trans (setEntities _ _)
    · exact setEntities s _

variable (shardId : ShardId)

lemma forgetShardEntities : Aside config s (s.forgetShardEntities shardId) := setEntities s _

lemma onEntityStarted (s : Region T) (shardId : ShardId)
    (entityId : JsString) : Aside config s (s.onEntityStarted config view shardId entityId) := by
  refine (setEntities s _).trans (Aside.trans (ite (refl _) ?_) (ite ?_ (refl _)))
  · exact (admitEntity view _ shardId entityId).trans (setEntities _ _)
  · exact tellCoordinator view _ trivial

lemma onEntityStopped (s : Region T) (shardId : ShardId)
    (entityId : JsString) : Aside config s (s.onEntityStopped config view shardId entityId) :=
  (setEntities s _).trans (ite (tellCoordinator view _ trivial) (refl _))

lemma sweepIdleEntities (s : Region T) :
    Aside config s (s.sweepIdleEntities config view) :=
  ite (refl s) (foldl (fun s _ => ite (refl s) (requestPassivation s _ _)) s _)

lemma onAsksSweepTick (s : Region T) :
    Aside config s (s.onAsksSweepTick view) := by
  have hasks (t : Region T) (asks : OrderedMap ShardId (List ℚ)) :
      Aside config t { t with pendingLocationAsks := asks } := of_eq rfl rfl rfl rfl
  exact foldl (fun t _ => ite (refl t) (ite (hasks t _) (hasks t _))) s _

lemma enqueueRecovery (s : Region T) (entityId : JsString) :
    Aside config s (Region.enqueueRecovery shardId s entityId) :=
  ite (refl s) (of_eq rfl rfl rfl rfl)

lemma holdThroughPassivation (entityIds : List JsString) :
    Aside config s (s.holdThroughPassivation shardId entityIds) := of_eq rfl rfl rfl rfl

end Aside

/-- Who is told of the end of a hand-off is the coordinator, or it is looked for. -/
lemma tellHandOffComplete_cases (config : RegionConfig T) (view : RegionView) (s : Region T)
    (shardId : ShardId) :
    s.tellHandOffComplete config view shardId =
        s.emit (.tellCoordinator (.handOffComplete shardId config.path config.selfAddress)) ∨
      Aside config s (s.tellHandOffComplete config view shardId) := by
  unfold Region.tellHandOffComplete Region.tellCoordinator
  split
  · exact .inl rfl
  · exact .inr (.ensureRegistered view s)

end ActorTs.Cluster.Sharding.Region
