import ActorTs.Cluster.Sharding.CoordinatorIndexes
import ActorTs.Cluster.Sharding.RegionRouting

/-!
# Shards that have been told to stop

A message told to an actor that stops is lost, so a region buffers what comes for a shard that it
has told to stop. It does so by the shard's state, while the stop itself is recorded in three sets.
`Orderly` is what keeps the state in step with the sets. It holds along every run in which no shard
is placed here again before it has stopped, and the own node is not removed over a shard that stops.
-/

open List

namespace ActorTs.Cluster.Sharding

open Standing Placement Region

variable {own : NodeAddress}

/-- A shard that stops has an actor still, and where it is to run here its state says so. -/
structure Standing.Orderly (own : NodeAddress) (x : Standing) : Prop where
  hasActor : x.isStopping = true → x.hasActor = true
  down : x.state = some .backingOff → x.hasActor = false
  released : x.releasing = true →
    x.isLocal = false ∧ x.handingOff = false ∧ x.passivating = false
  held : x.isLocal = true → x.isStopping = true → x.cannotTakeMessages = true
  here : x.isLocal = true → ∀ node, x.homeNode = some node → node.equals own = true

def Placement.Orderly (own : NodeAddress) (p : Placement) : Prop :=
  ∀ k, (p.standing k).Orderly own

namespace Standing

variable {x : Standing}

lemma isStopping_iff :
    x.isStopping = true ↔ x.handingOff = true ∨ x.releasing = true ∨ x.passivating = true := by
  simp [isStopping, or_assoc]

lemma cannotTakeMessages_iff :
    x.cannotTakeMessages = true ↔
      x.state = some .handingOff ∨ x.state = some .passivating ∨ x.state = some .backingOff := by
  unfold cannotTakeMessages
  cases x.state <;> simp

lemma Orderly.stopped (h : x.Orderly own) (hactor : x.hasActor = false) :
    x.handingOff = false ∧ x.releasing = false ∧ x.passivating = false := by
  have hnot : x.isStopping ≠ true := fun hstopping => by
    rw [h.hasActor hstopping] at hactor
    cases hactor
  rw [Ne, isStopping_iff] at hnot
  simpa using hnot

lemma Orderly.withActor (h : x.Orderly own) (hstate : x.state ≠ some .backingOff) :
    x.withActor.Orderly own where
  hasActor _ := rfl
  down hdown := absurd hdown hstate
  released := h.released
  held := h.held
  here := h.here

/-- A shard with nothing to stop may be in any state but backing off with an actor. -/
lemma Orderly.of_idle (hhanding : x.handingOff = false) (hreleasing : x.releasing = false)
    (hpassivating : x.passivating = false)
    (hdown : x.state = some .backingOff → x.hasActor = false)
    (hhere : x.isLocal = true → ∀ node, x.homeNode = some node → node.equals own = true) :
    x.Orderly own := by
  have hnot : x.isStopping = false := by
    simp [isStopping, hhanding, hreleasing, hpassivating]
  refine ⟨fun hstopping => ?_, hdown, fun hrel => ?_, fun _ hstopping => ?_, hhere⟩
  · rw [hnot] at hstopping
    cases hstopping
  · rw [hreleasing] at hrel
    cases hrel
  · rw [hnot] at hstopping
    cases hstopping

lemma Orderly.of_away (hactor : x.isStopping = true → x.hasActor = true)
    (haway : x.isLocal = false) (hdown : x.state = some .backingOff → x.hasActor = false)
    (hreleased : x.releasing = true → x.handingOff = false ∧ x.passivating = false) :
    x.Orderly own := by
  refine ⟨hactor, hdown, fun hrel => ⟨haway, hreleased hrel⟩, fun hlocal => ?_, fun hlocal => ?_⟩
  · rw [haway] at hlocal
    cases hlocal
  · rw [haway] at hlocal
    cases hlocal

end Standing

namespace Placement

variable {p q : Placement} {k : ShardId} {node : NodeAddress} {region : JsString}

lemma orderly_empty (own : NodeAddress) : Orderly own {} := fun k => by
  exact .of_idle rfl rfl rfl (fun h => by cases h) fun h => by cases h

section

variable (h : p.Orderly own)
include h

lemma Orderly.starts (hstarts : p.Starts q) : q.Orderly own := by
  intro k
  rcases hstarts.standing k with hq | ⟨-, hstate, hq⟩
  · rw [hq]
    exact h k
  · rw [hq]
    exact (h k).withActor hstate

lemma Orderly.update {f : Standing → Standing} (hq : Updates k f p q)
    (hf : (f (p.standing k)).Orderly own) : q.Orderly own := by
  intro j
  by_cases hkey : j = k
  · subst hkey
    rw [hq.self]
    exact hf
  · rw [hq.other hkey]
    exact h j

lemma Orderly.not_releasing (hlocal : (p.standing k).isLocal = true) :
    (p.standing k).releasing = false :=
  Bool.eq_false_iff.2 fun hrel => Bool.false_ne_true (((h k).released hrel).1.symm.trans hlocal)

/-- A placement here keeps the order where the state goes on to say what stops. -/
lemma Orderly.placeInState {state : ShardState}
    (hnode : node.equals own = true) (hstate : state ≠ .backingOff)
    (hreleasing : (p.standing k).releasing = false) (hheld : (p.standing k).isStopping = true →
      ((p.standing k).inState state).cannotTakeMessages = true) :
    (((p.fileHome k region node).addLocal k).setState k state).Orderly own := by
  refine h.update (updates_placed p k region node state) ?_
  exact ⟨(h k).hasActor, fun hdown => absurd (Option.some.inj hdown) hstate,
    fun hrel => absurd (hreleasing.symm.trans hrel) Bool.false_ne_true, fun _ => hheld,
    fun _ other hother => Option.some.inj hother ▸ hnode⟩

lemma Orderly.placeBackingOff (hnode : node.equals own = true)
    (hstate : (p.standing k).state = some .backingOff) :
    ((p.fileHome k region node).addLocal k).Orderly own := by
  have hactor := (h k).down hstate
  obtain ⟨hhanding, hreleasing, hpassivating⟩ := (h k).stopped hactor
  refine h.update ((updates_fileHome p k region node).trans (updates_addLocal _ k)) ?_
  exact .of_idle hhanding hreleasing hpassivating (fun _ => hactor)
    fun _ other hother => Option.some.inj hother ▸ hnode

lemma Orderly.moveAway (region : JsString) (node : NodeAddress) :
    ((p.fileHome k region node).leave k).Orderly own := by
  refine h.update ((updates_fileHome p k region node).trans (updates_leave _ k)) ?_
  exact .of_away (h k).hasActor rfl (fun hdown => by cases hdown) fun hrel => ((h k).released hrel).2

lemma Orderly.forgetShard (hreleasing : (p.standing k).releasing = false) :
    (p.forgetShard k).Orderly own :=
  h.update (updates_forgetShard p k) (.of_idle rfl hreleasing rfl (fun hdown => by cases hdown)
    fun hlocal => by cases hlocal)

lemma Orderly.setState_handingOff : (p.setState k .handingOff).Orderly own :=
  h.update (updates_setState p k .handingOff)
    ⟨(h k).hasActor, fun hdown => (by cases hdown), (h k).released,
      fun _ _ => cannotTakeMessages_iff.2 (.inl rfl), (h k).here⟩

lemma Orderly.startHandOff (hlocal : (p.standing k).isLocal = true)
    (hactor : (p.standing k).hasActor = true)
    (hstate : (p.standing k).state = some .handingOff) : (p.startHandOff k).Orderly own := by
  refine h.update (updates_startHandOff p k) ⟨fun _ => hactor, fun hdown => ?_, fun hrel => ?_,
      fun _ _ => cannotTakeMessages_iff.2 (.inl hstate), (h k).here⟩
  · exact (h k).down hdown
  · exact absurd ((h.not_releasing hlocal).symm.trans hrel) Bool.false_ne_true

lemma Orderly.startPassivation (hlocal : (p.standing k).isLocal = true)
    (hactor : (p.standing k).hasActor = true) : (p.startPassivation k).Orderly own :=
  h.update (updates_startPassivation p k) ⟨fun _ => hactor, fun hdown => (by cases hdown),
    fun hrel => absurd ((h.not_releasing hlocal).symm.trans hrel) Bool.false_ne_true,
    fun _ _ => cannotTakeMessages_iff.2 (.inr (.inl rfl)), (h k).here⟩

lemma Orderly.endPassivation (hhanding : (p.standing k).handingOff = false)
    (hreleasing : (p.standing k).releasing = false) : (p.endPassivation k).Orderly own :=
  h.update (updates_endPassivation p k) (.of_idle hhanding hreleasing rfl (fun _ => rfl) (h k).here)

lemma Orderly.declinePassivation (hhanding : (p.standing k).handingOff = false)
    (hreleasing : (p.standing k).releasing = false) : (p.declinePassivation k).Orderly own := by
  refine h.update (updates_declinePassivation p k)
    (.of_idle hhanding hreleasing rfl (fun hdown => ?_) (h k).here)
  unfold declined at hdown ⊢
  split at hdown
  · cases hdown
  · exact (h k).down hdown

lemma Orderly.endRelease (hreleasing : (p.standing k).releasing = true) :
    (p.endRelease k).Orderly own := by
  obtain ⟨haway, hhanding, hpassivating⟩ := (h k).released hreleasing
  exact h.update (updates_endRelease p k)
    (.of_idle hhanding rfl hpassivating (fun _ => rfl) fun hlocal =>
      absurd (haway.symm.trans hlocal) Bool.false_ne_true)

lemma Orderly.backOffShard (hhanding : (p.standing k).handingOff = false)
    (hreleasing : (p.standing k).releasing = false)
    (hpassivating : (p.standing k).passivating = false) : (p.backOffShard k).Orderly own :=
  h.update (updates_backOffShard p k)
    (.of_idle hhanding hreleasing hpassivating (fun _ => rfl) (h k).here)

lemma Orderly.setState_owned
    (hstate : (p.standing k).state = some .backingOff) : (p.setState k .owned).Orderly own := by
  have hactor := (h k).down hstate
  obtain ⟨hhanding, hreleasing, hpassivating⟩ := (h k).stopped hactor
  exact h.update (updates_setState p k .owned)
    (.of_idle hhanding hreleasing hpassivating (fun hdown => by cases hdown) (h k).here)

lemma Orderly.releaseEverything : p.releaseEverything.Orderly own := by
  intro k
  rw [standing_releaseEverything]
  have hk := h k
  generalize p.standing k = x at hk
  have hactor := hk.hasActor
  rw [isStopping_iff] at hactor
  refine .of_away (fun hstopping => ?_) rfl (fun hdown => by cases hdown) fun _ => ?_
  · rw [isStopping_iff] at hstopping
    simp only [givenUp, Bool.and_eq_true, Bool.or_eq_true] at hstopping ⊢
    rcases hstopping with hx | (hx | hx) | hx
    · exact hactor (.inl hx.1)
    · exact hactor (.inr (.inl hx))
    · exact hx
    · exact hactor (.inr (.inr hx.1))
  · simp only [givenUp, Bool.and_eq_false_iff, Bool.not_eq_false']
    cases hx : x.hasActor with
    | true => exact ⟨.inr rfl, .inr rfl⟩
    | false =>
      obtain ⟨hhanding, -, hpassivating⟩ := hk.stopped hx
      exact ⟨.inl hhanding, .inl hpassivating⟩

/-- The removal of a node says nothing of the shards here, unless it is the own one. -/
lemma Orderly.invalidateHomesOnNode {address : NodeAddress}
    (hself : address.equals own = true → ∀ k, p.localShards.has k = true → p.isStopping k = false) :
    (p.invalidateHomesOnNode address).Orderly own := by
  intro k
  rw [standing_invalidateHomesOnNode]
  split
  · rename_i hhome
    obtain ⟨home, hget, hequals⟩ := (Option.any_eq_true _ _).1 hhome
    refine ⟨(h k).hasActor, fun hdown => (by cases hdown), (h k).released, fun hlocal hstopping => ?_,
      fun _ node hnode => by cases hnode⟩
    have hhere := NodeAddress.equals_iff.1 ((h k).here hlocal home hget)
    have haddress := NodeAddress.equals_iff.1 hequals
    have hequals' : address.equals own = true := NodeAddress.equals_iff.2
      ⟨haddress.1.symm.trans hhere.1, haddress.2.1.symm.trans hhere.2.1,
        haddress.2.2.symm.trans hhere.2.2⟩
    have hidle : (p.standing k).isStopping = false := hself hequals' k hlocal
    exact absurd (hidle.symm.trans hstopping) Bool.false_ne_true
  · exact h k

end

end Placement

namespace Region

variable {T : Type} {config : RegionConfig T} {view : RegionView} {s t : Region T}
  {shardId : ShardId} {input : Input T}

/-! ### What shards are told -/

def Effect.tellsStopping : Effect T → Bool
  | .deliverLocal _ _ _ _ stopping => stopping
  | .tellShard _ _ stopping => stopping
  | _ => false

/-- No shard that stops was told anything, and the order that sees to it holds. -/
structure Told (config : RegionConfig T) (s : Region T) : Prop where
  orderly : s.placement.Orderly config.selfAddress
  effects : ∀ effect ∈ s.effects, effect.tellsStopping = false

namespace Told

section

variable (h : Told config s)
include h

lemma routing (hrouting : Routing config s t) : Told config t := by
  obtain ⟨new, heffects, hnew⟩ := hrouting.effects
  refine ⟨h.orderly.starts hrouting.starts, fun effect hmem => ?_⟩
  rw [heffects] at hmem
  rcases mem_append.1 hmem with hmem | hmem
  · exact h.effects effect hmem
  · have hidle : ∀ {k}, s.placement.Takes k → s.placement.isStopping k = false := fun {k} htakes =>
      Bool.eq_false_iff.2 fun hstopping => Bool.false_ne_true
        (htakes.2.symm.trans ((h.orderly k).held htakes.1 hstopping))
    cases effect with
    | deliverLocal k entityId entityMessage message stopping =>
      obtain ⟨htakes, hstopping⟩ := hnew _ hmem
      exact hstopping.trans (hidle htakes)
    | tellShard k message stopping =>
      obtain ⟨htakes, hstopping⟩ := hnew _ hmem
      exact hstopping.trans (hidle htakes)
    | _ => rfl

lemma starting (hstarting : Starting config s t) : Told config t :=
  h.routing hstarting.routing

lemma aside (haside : Aside config s t) : Told config t :=
  h.routing haside.routing

lemma setPlacement {p : Placement} (hp : p.Orderly config.selfAddress) :
    Told config (s.setPlacement p) := ⟨hp, h.effects⟩

lemma of_eq (hplacement : t.placement = s.placement)
    (heffects : t.effects = s.effects) : Told config t := h.routing (.of_eq hplacement heffects)

lemma emit {effect : Effect T} (heffect : effect.tellsStopping = false) :
    Told config (s.emit effect) := by
  refine ⟨h.orderly, fun other hmem => ?_⟩
  rcases mem_append.1 hmem with hmem | hmem
  · exact h.effects other hmem
  · rwa [mem_singleton.1 hmem]

/-! ### Directives -/

lemma releaseEverything : Told config s.releaseEverything := by
  have hreleased : Told config ({ s with
      registriesHeldThroughPassivation := .empty }.setPlacement s.placement.releaseEverything) :=
    ⟨h.orderly.releaseEverything, h.effects⟩
  refine foldlRecOn _ _ hreleased fun t ht k _ => ?_
  exact (ht.aside (.forgetShardEntities t k)).emit rfl

lemma onRegisterRefused : Told config s.onRegisterRefused := by
  have hrefused : Told config { s with registerRefused := true } := h.of_eq rfl rfl
  exact hrefused.releaseEverything

lemma onRegionEvicted : Told config (s.onRegionEvicted config view) :=
  h.releaseEverything.aside (.ensureRegistered view _)

/-- A placement keeps the order, unless it is of a shard that is handed off or released. -/
lemma onShardHome (region : JsString) (node : NodeAddress)
    (hplaced : s.registerRefused = false → isShardIdInRange config.numShards shardId = true →
      isHere config region node = true →
      s.placement.handingOff.has shardId = true ∨ s.placement.releasingShards.has shardId = true →
      s.placement.passivatingShards.has shardId = true) :
    Told config (s.onShardHome config view shardId region node) := by
  have hshard := h.orderly shardId
  unfold Region.onShardHome
  split
  · exact h
  · rename_i haccepted
    simp only [Bool.or_eq_true, Bool.not_eq_true', not_or, Bool.not_eq_true,
      Bool.not_eq_false] at haccepted
    dsimp only
    split
    · rename_i hhere
      have hnode : node.equals config.selfAddress = true := (Bool.and_eq_true_iff.1 hhere).1
      split
      · rename_i hbacking
        exact (h.setPlacement (h.orderly.placeBackingOff hnode hbacking)).starting
          (.flushLocationAsks view _ shardId)
      · rename_i hbacking
        split
        · rename_i hpassivating
          have hreleasing : (s.placement.standing shardId).releasing = false :=
            Bool.eq_false_iff.2 fun hrel => Bool.false_ne_true
              ((hshard.released hrel).2.2.symm.trans hpassivating)
          refine (h.setPlacement (h.orderly.placeInState hnode ?_ hreleasing
            fun _ => ?_)).starting (.flushLocationAsks view _ shardId)
          · exact fun heq => by cases heq
          · exact Standing.cannotTakeMessages_iff.2 (.inr (.inl rfl))
        · rename_i hpassivating
          have hidle := mt (hplaced haccepted.1 haccepted.2 hhere) hpassivating
          rw [not_or, Bool.not_eq_true, Bool.not_eq_true] at hidle
          rw [Bool.not_eq_true] at hpassivating
          have howned : Told config (s.setPlacement (((s.placement.fileHome shardId region
              node).addLocal shardId).setState shardId .owned)) := by
            refine h.setPlacement (h.orderly.placeInState hnode ?_ hidle.2 ?_)
            · exact fun heq => by cases heq
            · intro hstopping
              rcases Standing.isStopping_iff.1 hstopping with hx | hx | hx
              · exact absurd (hidle.1.symm.trans hx) Bool.false_ne_true
              · exact absurd (hidle.2.symm.trans hx) Bool.false_ne_true
              · exact absurd (hpassivating.symm.trans hx) Bool.false_ne_true
          refine Told.routing ?_ ((Starting.flushLocationAsks view _ shardId).routing.trans
            (.flushBuffer view _ shardId))
          split
          · exact howned
          · refine howned.starting (.ensureShard view ?_ ?_)
            · exact congrArg Standing.isLocal (updates_placed _ _ _ _ _).self
            · have hstate := congrArg Standing.state
                (updates_placed s.placement shardId region node .owned).self
              exact fun heq => by cases hstate.symm.trans heq
    · exact (h.setPlacement (h.orderly.moveAway region node)).routing
        ((Starting.flushLocationAsks view _ shardId).routing.trans (.flushBuffer view _ shardId))

end

lemma tellHandOffComplete (view : RegionView) (h : Told config s) (shardId : ShardId) :
    Told config (s.tellHandOffComplete config view shardId) := by
  rcases tellHandOffComplete_cases config view s shardId with heq | haside
  · rw [heq]
    exact h.emit rfl
  · exact h.aside haside

section

variable (h : Told config s)
include h

lemma completeHandOff (hreleasing : (s.placement.standing shardId).releasing = false) :
    Told config (s.completeHandOff config view shardId) := by
  unfold Region.completeHandOff
  dsimp only
  have hforgotten := Told.tellHandOffComplete view
    (s := ({ s with registriesHeldThroughPassivation :=
        s.registriesHeldThroughPassivation.delete shardId }.setPlacement
          (s.placement.forgetShard shardId)).setEntities
        { s.entities with shardEmptySince := s.entities.shardEmptySince.delete shardId })
    ⟨h.orderly.forgetShard hreleasing, h.effects⟩ shardId
  split
  · exact hforgotten.aside (.askCoordinator view _ shardId)
  · exact hforgotten

lemma onHandOff (shardId : ShardId) : Told config (s.onHandOff config view shardId) := by
  unfold Region.onHandOff
  split
  · unfold Region.answerHandOffWhileRefused
    split
    · exact h.setPlacement h.orderly
    · exact h.tellHandOffComplete view shardId
  · split
    · exact h
    · split
      · exact h
      · rename_i howned
        simp only [Bool.or_eq_true, Bool.not_eq_true', not_or, Bool.not_eq_false] at howned
        have hlocal : (s.placement.standing shardId).isLocal = true := howned.2
        dsimp only
        have haside : Aside config (s.setPlacement (s.placement.setState shardId .handingOff))
            (((s.setPlacement (s.placement.setState shardId .handingOff)).tellCoordinator config view
              (.beginHandOffAcknowledgment shardId)).forgetShardEntities shardId) :=
          (Aside.tellCoordinator view _ (by exact trivial)).trans (.forgetShardEntities _ shardId)
        have hmarked := (h.setPlacement (h.orderly.setState_handingOff (k := shardId))).aside haside
        generalize ((s.setPlacement (s.placement.setState shardId .handingOff)).tellCoordinator config
          view (.beginHandOffAcknowledgment shardId)).forgetShardEntities shardId = t at *
        have hstanding : t.placement.standing shardId =
            (s.placement.standing shardId).inState .handingOff := by
          rw [haside.placement]
          exact (updates_setState s.placement shardId .handingOff).self
        have hlocal' : (t.placement.standing shardId).isLocal = true := by
          rw [hstanding]
          exact hlocal
        split
        · exact hmarked.completeHandOff (hmarked.orderly.not_releasing hlocal')
        · rename_i hactor
          rw [Bool.not_eq_true', Bool.not_eq_false] at hactor
          refine (hmarked.setPlacement (hmarked.orderly.startHandOff hlocal' hactor ?_)).emit rfl
          exact congrArg Standing.state hstanding

/-! ### The ends of stops -/

/-- What waited for a shard that has stopped, or will not stop, is routed again. -/
lemma resume (htakes : s.placement.localShards.has shardId = true → s.placement.Takes shardId) :
    Told config ((s.flushBuffer config view shardId).startRegistryHeldThroughPassivation config view
      shardId) :=
  (h.routing (.flushBuffer view s shardId)).starting (Starting.afterFlush view htakes)

lemma completeShardPassivation (hhanding : (s.placement.standing shardId).handingOff = false)
    (hreleasing : (s.placement.standing shardId).releasing = false) :
    Told config (s.completeShardPassivation config view shardId) := by
  unfold Region.completeShardPassivation
  dsimp only
  have hforget : Aside config s _ := Aside.forgetShardEntities s shardId
  have hended : Told config ((s.forgetShardEntities shardId).setPlacement
      ((s.forgetShardEntities shardId).placement.endPassivation shardId)) :=
    (h.aside hforget).setPlacement (h.orderly.endPassivation hhanding hreleasing)
  exact hended.resume fun hlocal => takes_endPassivation hlocal

lemma onShardPassivationDeclined (shardId : ShardId) :
    Told config (s.onShardPassivationDeclined config view shardId) := by
  unfold Region.onShardPassivationDeclined
  split
  · exact h
  · rename_i hasked
    simp only [Bool.or_eq_true, Bool.not_eq_true', not_or, Bool.not_eq_false,
      Bool.not_eq_true] at hasked
    have hreleasing : (s.placement.standing shardId).releasing = false :=
      Bool.eq_false_iff.2 fun hrel => Bool.false_ne_true
        (((h.orderly shardId).released hrel).2.2.symm.trans hasked.1)
    exact (h.setPlacement (h.orderly.declinePassivation hasked.2 hreleasing)).resume
      fun hlocal => takes_declinePassivation hlocal

lemma completeShardRelease (hreleasing : (s.placement.standing shardId).releasing = true) :
    Told config (s.completeShardRelease config view shardId) := by
  have hended : Told config ((s.setPlacement { s.placement.endRelease shardId with
      handOffsAwaitingRelease :=
        (s.placement.endRelease shardId).handOffsAwaitingRelease.delete shardId }).setEntities
      { s.entities with shardEmptySince := s.entities.shardEmptySince.delete shardId }) :=
    ⟨h.orderly.endRelease hreleasing, h.effects⟩
  unfold Region.completeShardRelease
  dsimp only
  split
  · exact hended.tellHandOffComplete view shardId
  · exact hended

lemma handleShardTerminated (shardId : ShardId) :
    Told config (s.handleShardTerminated config view shardId) := by
  unfold Region.handleShardTerminated
  split
  · exact h
  · split
    · rename_i hreleasing
      exact h.completeShardRelease hreleasing
    · rename_i hreleasing
      rw [Bool.not_eq_true] at hreleasing
      split
      · exact h.completeHandOff hreleasing
      · rename_i hhanding
        rw [Bool.not_eq_true] at hhanding
        split
        · exact h.completeShardPassivation hhanding hreleasing
        · rename_i hpassivating
          rw [Bool.not_eq_true] at hpassivating
          exact (h.aside (.forgetShardEntities s shardId)).setPlacement
            (h.orderly.backOffShard hhanding hreleasing hpassivating)

lemma onShardRespawnTick (shardId : ShardId) (record : ℕ) :
    Told config (s.onShardRespawnTick config view shardId record) := by
  unfold Region.onShardRespawnTick
  split
  · exact h
  · split
    · exact h
    · rename_i hbacking
      simp only [Bool.or_eq_true, decide_eq_true_eq, Bool.not_eq_true', not_or, ne_eq, not_not,
        Bool.not_eq_false] at hbacking
      have howned := h.setPlacement (h.orderly.setState_owned (k := shardId) hbacking.1)
      have hstanding := (updates_setState s.placement shardId .owned).self
      have hback : Told config (((s.setPlacement (s.placement.setState shardId .owned)).ensureShard
          view shardId).flushBuffer config view shardId) := by
        refine howned.routing
          ((Starting.ensureShard view ?_ ?_).routing.trans (.flushBuffer view _ shardId))
        · exact (congrArg Standing.isLocal hstanding).trans hbacking.2
        · exact fun heq => by cases (congrArg Standing.state hstanding).symm.trans heq
      split
      · exact hback.aside (.tellCoordinator view _ trivial)
      · exact hback

/-! ### Sweeps and removals -/

lemma onPassivationSweepTick : Told config (s.onPassivationSweepTick config view) := by
  have hswept := h.aside (.sweepIdleEntities view s)
  unfold Region.onPassivationSweepTick Region.sweepEmptyShards
  split
  · exact hswept
  · refine foldlRecOn _ _ hswept fun t ht k _ => ?_
    split
    · rename_i hidle
      unfold passivateShard
      split
      · exact ht
      · rename_i hactor
        rw [Bool.not_eq_true', Bool.not_eq_false] at hactor
        have hlocal : t.placement.localShards.has k = true := by
          simp only [isIdleShard, Bool.and_eq_true] at hidle
          exact hidle.1.1.1.1.1.1
        exact (ht.setPlacement (ht.orderly.startPassivation hlocal hactor)).emit rfl
    · exact ht

lemma onMemberRemoved {address : NodeAddress}
    (hown : address.equals config.selfAddress = true → ∀ k, s.placement.localShards.has k = true →
      s.placement.isStopping k = false) : Told config (s.onMemberRemoved config view address) :=
  (h.setPlacement (h.orderly.invalidateHomesOnNode hown)).aside (.ensureRegistered view _)

end

end Told

/-! ### Runs -/

/-- No shard that is handed off or released is placed here before it has stopped, and the
own node is not removed while a shard of it stops. -/
def Undisturbed (config : RegionConfig T) (s : Region T) (_ : RegionView) : Input T → Prop
  | .directive (.shardHome shardId region node) peer =>
    s.fromCoordinator peer = true → s.registerRefused = false →
      isShardIdInRange config.numShards shardId = true → isHere config region node = true →
        s.placement.handingOff.has shardId = true ∨
            s.placement.releasingShards.has shardId = true →
          s.placement.passivatingShards.has shardId = true
  | .memberRemoved address =>
    address.equals config.selfAddress = true → ∀ shardId,
      s.placement.localShards.has shardId = true → s.placement.isStopping shardId = false
  | _ => True

lemma Told.handle (h : Told config s) (hundisturbed : Undisturbed config s view input) :
    Told config (s.handle config view input) := by
  cases input with
  | route message => exact h.routing (.receiveMessage view s message)
  | toShard shardId message sender => exact h.routing (.onToShard view s shardId message sender)
  | directive message peer =>
    unfold handle
    dsimp only
    split
    · rename_i hpeer
      cases message with
      | registerAcknowledgment => exact h.aside (.onRegisterAcknowledgment view s)
      | registerRefused numShards regionNumShards => exact h.onRegisterRefused
      | registrationRequest => exact h.aside (.ensureRegistered view s)
      | regionEvicted silentForMs => exact h.onRegionEvicted
      | shardHome shardId region node => exact h.onShardHome region node (hundisturbed hpeer)
      | handOff shardId => exact h.onHandOff shardId
      | rememberedEntities shardId entityIds =>
        exact h.starting (.onRememberedEntities view s shardId entityIds)
    · exact h
  | getShardLocation shardId giveUpAt =>
    exact h.starting (.onGetShardLocation view s shardId giveUpAt)
  | entityStarted shardId entityId => exact h.aside (.onEntityStarted view s shardId entityId)
  | entityStopped shardId entityId => exact h.aside (.onEntityStopped view s shardId entityId)
  | shardTerminated shardId => exact h.handleShardTerminated shardId
  | shardPassivationDeclined shardId => exact h.onShardPassivationDeclined shardId
  | shardRespawnTick shardId record => exact h.onShardRespawnTick shardId record
  | passivationSweepTick => exact h.onPassivationSweepTick
  | entityRecoveryTick => exact h.starting (.onEntityRecoveryTick view s)
  | asksSweepTick => exact h.aside (.onAsksSweepTick view s)
  | registerRetry => exact h.aside (.ensureRegistered view s)
  | leaderChanged => exact h.aside (.onLeaderChanged view s)
  | memberRemoved address => exact h.onMemberRemoved hundisturbed
  | memberUp => exact h.aside (.ensureRegistered view s)

lemma Told.step (h : s.placement.Orderly config.selfAddress)
    (hundisturbed : Undisturbed config s view input) : Told config (s.step config view input) := by
  have hstart : Told config { s with effects := [] } := ⟨h, by simp⟩
  refine hstart.handle ?_
  cases input with
  | directive message peer => cases message <;> exact hundisturbed
  | _ => exact hundisturbed

lemma Told.log (h : s.placement.Orderly config.selfAddress)
    {steps : List (RegionView × Input T)}
    (hundisturbed : Along config (Undisturbed config) s steps) :
    ∀ effect ∈ s.log config steps, effect.tellsStopping = false := by
  induction steps generalizing s with
  | nil => simp [log]
  | cons x steps ih =>
    have hstep := Told.step h hundisturbed.1
    intro effect hmem
    rcases mem_append.1 hmem with hmem | hmem
    · exact hstep.effects effect hmem
    · exact ih hstep.orderly hundisturbed.2 effect hmem

/-- In a run without such a placement or removal no shard that stops is told anything. -/
theorem never_tellsStopping (config : RegionConfig T) (steps : List (RegionView × Input T))
    (hundisturbed : Along config (Undisturbed config) {} steps) :
    ∀ effect ∈ log config {} steps, effect.tellsStopping = false :=
  Told.log (orderly_empty _) hundisturbed

/-! ### A placement that comes before the stop -/

/-- A region on host `a`, of messages that are the id of their entity. -/
def cartRegion : RegionConfig JsString where
  numShards := 10
  selfAddress := Coordinator.hostNode "a"
  path := Coordinator.regionPath
  extractEntityId message := message
  extractEntityMessage message := message

/-- Host `b` leads. -/
def underB : RegionView where
  leader := some (Coordinator.hostNode "b")

def fromB (message : ToRegion) : RegionView × Input JsString :=
  (underB, .directive message (some (Coordinator.hostNode "b")))

/-- The shard of cart `x` is placed here. -/
def cartPlaced : RegionView × Input JsString :=
  fromB (.shardHome (hashShardId "x" 10) Coordinator.regionPath (Coordinator.hostNode "a"))

def cartMessage : RegionView × Input JsString := (underB, .route ⟨.plain "x", none⟩)

/-- The hand-off ends before the shard is placed here again. -/
theorem never_tellsStopping_handedBack :
    (log cartRegion {} [(underB, .memberUp), cartPlaced, cartMessage,
      fromB (.handOff (hashShardId "x" 10)), cartMessage,
      (underB, .shardTerminated (hashShardId "x" 10)), cartPlaced, cartMessage]).all
        (fun effect => !effect.tellsStopping) = true := by
  rw [List.all_eq_true]
  intro effect heffect
  rw [never_tellsStopping cartRegion _ ?_ effect heffect]
  · rfl
  simp only [Along, Undisturbed, cartPlaced, cartMessage, fromB, and_true, true_and]
  exact ⟨fun _ _ _ _ h => absurd h (by decide +kernel), fun _ _ _ _ h => absurd h (by decide +kernel)⟩

/-- The shard is placed here again while it stops. -/
theorem not_never_tellsStopping :
    ¬∀ effect ∈ log cartRegion {} [(underB, .memberUp), cartPlaced,
      fromB (.handOff (hashShardId "x" 10)), cartPlaced, cartMessage],
      effect.tellsStopping = false := by
  intro hall
  have htold : ((log cartRegion {} [(underB, .memberUp), cartPlaced,
      fromB (.handOff (hashShardId "x" 10)), cartPlaced, cartMessage]).any
        Effect.tellsStopping) = true := by decide +kernel
  obtain ⟨effect, hmem, hstopping⟩ := any_eq_true.1 htold
  exact absurd ((hall effect hmem).symm.trans hstopping) Bool.false_ne_true

end Region

end ActorTs.Cluster.Sharding
