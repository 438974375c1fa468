import ActorTs.Cluster.Sharding.CoordinatorTerms

/-!
# What coordinators remember

A coordinator keeps the entities of its type in memory and in the store's log. It reads the log
once, when it starts. `Tracks` says of a handler that it changes the memory by just the events that
it appends, and that what it ships of a shard is what it remembers by then.

Several coordinators share one log (`Nodes`), each with its own memory. A coordinator
remembers of a shard what the log says as long as no other has appended an event of it
since the coordinator read the log.
-/

open List Option OrderedMap OrderedSet Function

namespace ActorTs.Cluster.Sharding.Coordinator

variable {config : CoordinatorConfig} {view : View} {s t u : Coordinator}

abbrev Entities := OrderedMap ShardId (OrderedSet JsString)

/-! ### Memory and log -/

/-- The memory has the entity. -/
def Knows (entities : Entities) (shardId : ShardId) (entityId : JsString) : Prop :=
  ∃ known, entities.get? shardId = some known ∧ entityId ∈ known

/-- The last event of the log about an entity is that it started. -/
def Remembered (log : List RememberEvent) (shardId : ShardId) (entityId : JsString) : Prop :=
  ((log.filter fun event => event.shardId = shardId ∧ event.entityId = entityId).getLast?).any
    RememberEvent.started = true

variable (entities : Entities)

lemma knows_iff (shardId : ShardId) (entityId : JsString) :
    Knows entities shardId entityId ↔ entityId ∈ (entities.get? shardId).getD .empty := by
  unfold Knows
  cases entities.get? shardId <;> simp

variable {shardId : ShardId}

lemma get?_rememberIn_of_ne {event : RememberEvent} (h : event.shardId ≠ shardId) :
    (rememberIn entities event).get? shardId = entities.get? shardId := by
  unfold rememberIn
  split
  · rw [get?_set, if_neg h]
  · split
    · rfl
    · dsimp only
      split
      · rw [get?_delete, if_neg h]
      · rw [get?_set, if_neg h]

variable (event : RememberEvent)

lemma mem_rememberIn_self (entityId : JsString) :
    entityId ∈ ((rememberIn entities event).get? event.shardId).getD .empty ↔
      if event.entityId = entityId then event.started = true
      else entityId ∈ (entities.get? event.shardId).getD .empty := by
  unfold rememberIn
  split
  · rename_i hstarted
    rw [get?_set_self, getD_some, mem_add, hstarted]
    split
    · simp [*]
    · rename_i hne
      simp [Ne.symm hne]
  · rename_i hstopped
    rw [Bool.not_eq_true] at hstopped
    rw [hstopped]
    split
    · rename_i hnone
      simp [hnone]
    · rename_i known hknown
      have hdeleted := known.mem_delete event.entityId entityId
      have hget : entityId ∈ ((if (known.delete event.entityId).size = 0 then
          entities.delete event.shardId
        else entities.set event.shardId (known.delete event.entityId)).get?
          event.shardId).getD .empty ↔ entityId ∈ known.delete event.entityId := by
        split
        · rename_i hsize
          rw [get?_delete, if_pos rfl, getD_none]
          refine iff_of_false (not_mem_empty _) fun hmem => ?_
          exact ((size_pos_iff _).2 ⟨entityId, hmem⟩).ne' hsize
        · rw [get?_set_self, getD_some]
      dsimp only
      rw [hget, hdeleted, hknown, getD_some]
      split
      · simp [*]
      · rename_i hne
        exact and_iff_left (Ne.symm hne)

lemma knows_rememberIn (shardId : ShardId) (entityId : JsString) :
    Knows (rememberIn entities event) shardId entityId ↔
      if event.shardId = shardId ∧ event.entityId = entityId then event.started = true
      else Knows entities shardId entityId := by
  rw [knows_iff, knows_iff]
  by_cases hshard : event.shardId = shardId
  · subst hshard
    rw [mem_rememberIn_self]
    simp
  · rw [get?_rememberIn_of_ne entities hshard, if_neg fun hboth => hshard hboth.1]

lemma remembered_append (log : List RememberEvent) (event : RememberEvent) (shardId : ShardId)
    (entityId : JsString) :
    Remembered (log ++ [event]) shardId entityId ↔
      if event.shardId = shardId ∧ event.entityId = entityId then event.started = true
      else Remembered log shardId entityId := by
  unfold Remembered
  split
  · rename_i hevent
    simp [hevent]
  · rename_i hevent
    simp [hevent]

/-- A memory that agrees with the log on an entity agrees with it after the same events. -/
lemma knows_foldl_iff {entities : Entities} {log : List RememberEvent} {entityId : JsString}
    (events : List RememberEvent)
    (h : Knows entities shardId entityId ↔ Remembered log shardId entityId) :
    Knows (events.foldl rememberIn entities) shardId entityId ↔
      Remembered (log ++ events) shardId entityId := by
  induction events generalizing entities log with
  | nil => simpa using h
  | cons event events ih =>
    have hone : Knows (rememberIn entities event) shardId entityId ↔
        Remembered (log ++ [event]) shardId entityId := by
      rw [knows_rememberIn, remembered_append]
      split
      · rfl
      · exact h
    simpa using ih hone

lemma remembered_append_of_other {log events : List RememberEvent} {entityId : JsString}
    (h : ∀ event ∈ events, event.shardId ≠ shardId) :
    Remembered (log ++ events) shardId entityId ↔ Remembered log shardId entityId := by
  have hnone : events.filter (fun event => event.shardId = shardId ∧ event.entityId = entityId) =
      [] := by
    refine filter_eq_nil_iff.2 fun event hmem => ?_
    simp [h event hmem]
  rw [Remembered, filter_append, hnone, append_nil, Remembered]

/-! ### Handlers -/

def appends (effects : List Effect) : List RememberEvent :=
  effects.filterMap fun
    | .append event => some event
    | .send _ => none

/-- Among the effects, what is shipped of a shard is the memory as it is by then. -/
def ShipsKnown : Entities → List Effect → Prop
  | _, [] => True
  | entities, .append event :: effects => ShipsKnown (rememberIn entities event) effects
  | entities, .send sent :: effects =>
    (∀ shardId entityIds, sent.message = .rememberedEntities shardId entityIds →
      ∃ known, entities.get? shardId = some known ∧ known.elems = entityIds) ∧
    ShipsKnown entities effects

lemma ShipsKnown.append {entities : Entities} {effects effects' : List Effect}
    (h : ShipsKnown entities effects)
    (h' : ShipsKnown ((appends effects).foldl rememberIn entities) effects') :
    ShipsKnown entities (effects ++ effects') := by
  induction effects generalizing entities with
  | nil => exact h'
  | cons effect effects ih =>
    cases effect with
    | append event => exact ih h h'
    | send sent => exact ⟨h.1, ih h.2 h'⟩

lemma ShipsKnown.at {entities : Entities} {before after : List Effect} {sent : Sent}
    {entityIds : List JsString} (h : ShipsKnown entities (before ++ .send sent :: after))
    (hsent : sent.message = .rememberedEntities shardId entityIds) :
    ∃ known, ((appends before).foldl rememberIn entities).get? shardId = some known ∧
      known.elems = entityIds := by
  induction before generalizing entities with
  | nil => exact h.1 shardId entityIds hsent
  | cons effect before ih =>
    cases effect with
    | append event => exact ih h
    | send sent => exact ih h.2

/-- A handler remembers what it appends, and ships what it remembers. -/
def Tracks (s t : Coordinator) : Prop :=
  ∃ effects, t.outbox = s.outbox ++ effects ∧
    t.entitiesPerShard = (appends effects).foldl rememberIn s.entitiesPerShard ∧
    ShipsKnown s.entitiesPerShard effects

namespace Tracks

lemma of_eq (houtbox : t.outbox = s.outbox) (hentities : t.entitiesPerShard = s.entitiesPerShard) :
    Tracks s t :=
  ⟨[], by rw [houtbox, append_nil], hentities, trivial⟩

lemma refl (s : Coordinator) : Tracks s s := of_eq rfl rfl

lemma trans (hst : Tracks s t) (htu : Tracks t u) : Tracks s u := by
  obtain ⟨effects, houtbox, hentities, hships⟩ := hst
  obtain ⟨effects', houtbox', hentities', hships'⟩ := htu
  refine ⟨effects ++ effects', ?_, ?_, ?_⟩
  · rw [houtbox', houtbox, append_assoc]
  · rw [hentities', hentities, appends, appends, appends, filterMap_append, foldl_append]
  · rw [hentities] at hships'
    exact hships.append hships'

lemma foldl {α : Type*} {f : Coordinator → α → Coordinator} (h : ∀ s a, Tracks s (f s a))
    (s : Coordinator) (l : List α) : Tracks s (l.foldl f s) :=
  List.foldlRecOn l f (refl s) fun t ht a _ => ht.trans (h t a)

lemma ite {p : Prop} [Decidable p] (hst : Tracks s t) (hsu : Tracks s u) :
    Tracks s (if p then t else u) :=
  iteInduction (fun _ => hst) fun _ => hsu

variable (s) (key : JsString)

lemma updateRegion (f : RegionInfo → RegionInfo) :
    Tracks s (s.updateRegion key f) := by
  unfold Coordinator.updateRegion
  split
  · exact refl s
  · exact of_eq rfl rfl

lemma replyTo (path : JsString) (node : NodeAddress) (message : ToRegion)
    (h : ∀ shardId entityIds, message ≠ .rememberedEntities shardId entityIds) :
    Tracks s (s.replyTo path node message) :=
  ⟨[.send ⟨path, node, message⟩], rfl, rfl, fun _ _ heq => absurd heq (h _ _), trivial⟩

lemma sendToRegion (message : ToRegion)
    (h : ∀ shardId entityIds, message ≠ .rememberedEntities shardId entityIds) :
    Tracks s (s.sendToRegion key message) := by
  unfold Coordinator.sendToRegion
  split
  · exact refl s
  · exact replyTo s _ _ _ h

variable (shardId)

lemma shipRememberedEntities : Tracks s (s.shipRememberedEntities shardId) := by
  unfold Coordinator.shipRememberedEntities
  split
  · rename_i entities home info hentities _
    refine ite (refl s) ⟨[.send ⟨info.path, info.node, _⟩], rfl, rfl, fun x ids heq => ?_, trivial⟩
    obtain ⟨rfl, rfl⟩ := ToRegion.rememberedEntities.inj heq
    exact ⟨entities, hentities, rfl⟩
  · exact refl s

lemma flushPending : Tracks s (s.flushPending shardId) := by
  unfold Coordinator.flushPending
  split
  · rename_i pending home info _ _
    have hreplies := foldl (fun s (query : GetShardHome) =>
      replyTo s query.requester query.requesterNode
        (.shardHome shardId info.path info.node) (by simp)) s pending
    exact ite (refl s) (hreplies.trans (of_eq rfl rfl))
  · exact refl s

lemma observeEligibleSet (view : View) (s : Coordinator) (candidates : List RegionEntry) :
    Tracks s (s.observeEligibleSet view candidates).1 := by
  unfold Coordinator.observeEligibleSet
  dsimp only
  split
  · exact refl s
  · exact of_eq rfl rfl

lemma announcePlacement (key : JsString) :
    Tracks s (s.announcePlacement config shardId key) := by
  unfold Coordinator.announcePlacement
  split
  · exact refl s
  · rename_i info _
    have h := (sendToRegion s key (.shardHome shardId info.path info.node)
      (by simp)).trans (flushPending _ shardId)
    exact ite (h.trans (shipRememberedEntities _ shardId)) h

lemma assign (key : JsString) :
    Tracks s (s.assign shardId key) := by
  have hhomed : Tracks s { s with shardHome := s.shardHome.set shardId key } := of_eq rfl rfl
  exact hhomed.trans (updateRegion _ _ _)

lemma tryAllocate : Tracks s (s.tryAllocate config view shardId) := by
  have hobserved := observeEligibleSet view s (s.candidateRegions config view)
  unfold Coordinator.tryAllocate
  dsimp only
  split
  · exact hobserved
  · split
    · exact hobserved
    · exact (hobserved.trans (assign _ _ _)).trans (announcePlacement _ _ _)

lemma onGetShardHome (message : GetShardHome) :
    Tracks s (s.onGetShardHome config view message) := by
  have hseen : Tracks s (s.markRegionSeen view message.requester message.requesterNode) :=
    updateRegion s _ _
  unfold Coordinator.onGetShardHome
  dsimp only
  split
  · exact hseen
  · split
    · exact hseen
    · split
      · exact hseen.trans (replyTo _ _ _ _ (by simp))
      · have hwaits := fun pending => hseen.trans (of_eq (t := { s.markRegionSeen view
          message.requester message.requesterNode with pending := pending }) rfl rfl)
        split
        · exact hwaits _
        · exact (hwaits _).trans (tryAllocate _ _)

lemma endHandOff (fromKey : JsString) :
    Tracks s (s.endHandOff config view shardId fromKey) := by
  let ended := { s with rebalanceInProgress := s.rebalanceInProgress.delete shardId }
  have hended : Tracks s ended := of_eq rfl rfl
  have hreleased : Tracks s (ended.releaseFromPreviousOwner shardId fromKey) :=
    (hended.trans (updateRegion _ _ _)).trans (of_eq rfl rfl)
  exact hreleased.trans (tryAllocate _ _)

lemma rehome : Tracks s (s.rehome config view shardId) := by
  have hcleared : Tracks s { s with
    shardHome := s.shardHome.delete shardId
    rebalanceInProgress := s.rebalanceInProgress.delete shardId } := of_eq rfl rfl
  exact hcleared.trans (tryAllocate _ _)

lemma onRegionTerminated (region : JsString) (node : NodeAddress) :
    Tracks s (s.onRegionTerminated config view region node) := by
  unfold Coordinator.onRegionTerminated
  dsimp only
  split
  · exact refl s
  · have hdropped : Tracks s { s with regions := s.regions.delete (regionKey node region) } :=
      of_eq rfl rfl
    exact hdropped.trans (foldl rehome _ _)

lemma adopt (s : Coordinator) (shardId : ShardId) :
    Tracks s (Coordinator.adopt key s shardId) := by
  unfold Coordinator.adopt
  split
  · exact of_eq rfl rfl
  · split
    · exact of_eq rfl rfl
    · exact (updateRegion s _ _).trans (of_eq rfl rfl)

lemma releaseConflictingShards (conflicting : List ShardId) :
    Tracks s (s.releaseConflictingShards key conflicting) := by
  refine foldl (fun s shardId => ?_) s conflicting
  split
  · exact refl s
  · exact sendToRegion s key _ (by simp)

variable (message : RegisterRegion)

lemma answerRegister (verdict : ClaimVerdict) :
    Tracks s (s.answerRegister config message verdict) := by
  have hack := replyTo s message.region message.node .registerAcknowledgment (by simp)
  have hflushed := (hack.trans (releaseConflictingShards _ (regionKey message.node message.region)
    verdict.conflicting)).trans (foldl flushPending _ verdict.adopted)
  exact ite (hflushed.trans (foldl shipRememberedEntities _ verdict.adopted)) hflushed

lemma onRegister : Tracks s (s.onRegister config view message) := by
  unfold Coordinator.onRegister
  split
  · let refused := s.refusedRegions.add (regionKey message.node message.region)
    have hrefused : Tracks s { s with refusedRegions := refused } := of_eq rfl rfl
    exact hrefused.trans (replyTo _ _ _ _ (by simp))
  · refine Tracks.trans ?_ (answerRegister _ _ _)
    exact Tracks.trans (of_eq rfl rfl) (foldl (adopt _) _ _)

lemma onRegionHeartbeat (region : JsString) (node : NodeAddress) :
    Tracks s (s.onRegionHeartbeat view region node) := by
  unfold Coordinator.onRegionHeartbeat
  dsimp only
  split
  · exact ite (refl s) (replyTo _ _ _ _ (by simp))
  · exact of_eq rfl rfl

lemma applyAndPersist (hstore : config.rememberEntitiesStore = true) (s : Coordinator)
    (event : RememberEvent) :
    Tracks s ((s.applyRememberEvent event).persistRememberEvent config event) := by
  rw [persistRememberEvent, if_pos hstore]
  exact ⟨[.append event], rfl, rfl, trivial⟩

lemma dispatchShardingMessage (hremember : config.rememberEntities = true)
    (hstore : config.rememberEntitiesStore = true) (s : Coordinator) (message : ToCoordinator) :
    Tracks s (s.dispatchShardingMessage config view message) := by
  cases message with
  | register message => exact onRegister s message
  | getShardHome message => exact onGetShardHome s message
  | handOffComplete shardId region node =>
    have hseen : Tracks s (s.markRegionSeen view region node) := updateRegion s _ _
    unfold Coordinator.dispatchShardingMessage Coordinator.onHandOffComplete
    dsimp only
    split
    · exact hseen
    · exact ite hseen (hseen.trans (endHandOff _ _ _))
  | beginHandOffAcknowledgment shardId => exact refl s
  | regionTerminated region node => exact onRegionTerminated s region node
  | regionHeartbeat region node => exact onRegionHeartbeat s region node
  | entityStarted shardId entityId => exact ite (refl s) (applyAndPersist hstore s _)
  | entityStopped shardId entityId =>
    unfold Coordinator.dispatchShardingMessage Coordinator.onEntityStopped
    dsimp only
    rw [hremember, if_neg (by decide)]
    exact ite (refl s) (applyAndPersist hstore s _)
  | getRememberedEntities shardId => exact ite (refl s) (shipRememberedEntities s shardId)

lemma onLeaderChanged : Tracks s (s.onLeaderChanged view) :=
  ite (refl s) (of_eq rfl rfl)

lemma sweepRegion (entry : RegionEntry) :
    Tracks s (s.sweepRegion config view entry) :=
  ite (updateRegion s _ _)
    (ite ((onRegionTerminated s _ _).trans (replyTo _ _ _ _ (by simp))) (refl s))

lemma beginHandOff : Tracks s (s.beginHandOff shardId) := by
  unfold Coordinator.beginHandOff
  split
  · exact refl s
  · exact Tracks.trans (of_eq rfl rfl) (replyTo _ _ _ _ (by simp))

lemma rebalanceTick : Tracks s (s.rebalanceTick config view) := by
  have hswept : Tracks s (s.sweepStaleRegions config view) := ite (foldl sweepRegion s _) (refl s)
  have hobserved := hswept.trans (observeEligibleSet view _
    ((s.sweepStaleRegions config view).candidateRegions config view))
  unfold Coordinator.rebalanceTick
  dsimp only
  split
  · exact hobserved
  · exact hobserved.trans (foldl beginHandOff _ _)

lemma seedRegion (region : RegionInfoData) :
    Tracks s (s.seedRegion view region) :=
  ite (of_eq rfl rfl) (refl s)

lemma seedHome (entry : ShardId × JsString) : Tracks s (s.seedHome entry) :=
  ite (of_eq rfl rfl) (refl s)

lemma loadCoordinatorState (data : CoordinatorStateData) :
    Tracks s (s.loadCoordinatorState config view data) := by
  have hloaded := (foldl (@seedRegion view) s data.regions).trans (foldl seedHome _ data.shardHome)
  exact ite (refl s) (ite hloaded (hloaded.trans
    (foldl (fun s (region : RegionInfoData) => replyTo s _ _ _ (by simp)) _ _)))

lemma handle (view : View) (hremember : config.rememberEntities = true)
    (hstore : config.rememberEntitiesStore = true) (s : Coordinator) (input : Input) :
    Tracks s (s.handle config view input) := by
  cases input with
  | message message peer =>
    exact ite (refl s) (ite (refl s) (ite (ite (of_eq rfl rfl) (refl s))
      (dispatchShardingMessage hremember hstore s message)))
  | memberRemoved address =>
    exact foldl (fun s _ => ite (onRegionTerminated s _ _) (refl s)) s _
  | leaderChanged => exact onLeaderChanged s
  | loaded data =>
    cases data with
    | none => exact refl s
    | some data => exact loadCoordinatorState s data
  | rebalanceTick => exact ite (rebalanceTick s) (refl s)
  | handOffTimeout shardId =>
    unfold Coordinator.handle Coordinator.onHandOffTimeout
    dsimp only
    split
    · exact refl s
    · exact endHandOff s shardId _
  | reconcile =>
    exact ite (refl s) (ite (ite (of_eq rfl rfl) (refl s)) (ite (of_eq rfl rfl) (refl s)))
  | leaseAcquireResult got =>
    have hheld : Tracks s { s with leaseState := .held, acquireBuffer := [] } := of_eq rfl rfl
    exact ite (refl s) (ite (of_eq rfl rfl)
      (hheld.trans (foldl (dispatchShardingMessage hremember hstore) _ _)))
  | leaseLost => exact ite (refl s) (of_eq rfl rfl)

end Tracks

/-- What a step appends is what its memory follows, and it ships what it knows. -/
lemma step_tracks (view : View) (hremember : config.rememberEntities = true)
    (hstore : config.rememberEntitiesStore = true) (s : Coordinator) (input : Input) :
    (s.step config view input).entitiesPerShard =
        (appends (s.step config view input).outbox).foldl rememberIn s.entitiesPerShard ∧
      ShipsKnown s.entitiesPerShard (s.step config view input).outbox := by
  obtain ⟨effects, houtbox, hentities, hships⟩ :=
    Tracks.handle view hremember hstore { s with outbox := [] } input
  have heffects : (s.step config view input).outbox = effects := houtbox
  rw [heffects]
  exact ⟨hentities, hships⟩

/-! ### Coordinators over one log -/

/-- The nodes of a cluster, each with its coordinator, and the log of the store that they
share. Of each node it is noted what others have appended since its coordinator started. -/
structure Nodes (ι : Type*) where
  log : List RememberEvent
  coordinator : ι → Coordinator
  missed : ι → List RememberEvent

namespace Nodes

variable {ι : Type*} [DecidableEq ι]

/-- Every coordinator has started from the log. -/
def initial (config : CoordinatorConfig) (log : List RememberEvent) : Nodes ι where
  log := log
  coordinator _ := preStart config log
  missed _ := []

inductive Step (ι : Type*) where
  /-- The coordinator of a node starts, again or at last. -/
  | start (node : ι)
  | act (node : ι) (view : View) (input : Input)

def step (config : CoordinatorConfig) (w : Nodes ι) : Step ι → Nodes ι
  | .start node =>
    { w with
      coordinator := Function.update w.coordinator node (preStart config w.log)
      missed := Function.update w.missed node [] }
  | .act node view input =>
    let acted := (w.coordinator node).step config view input
    let appended := appends acted.outbox
    { log := w.log ++ appended
      coordinator := Function.update w.coordinator node acted
      missed := fun other =>
        if other = node then w.missed other else w.missed other ++ appended }

def run (config : CoordinatorConfig) (w : Nodes ι) (steps : List (Step ι)) : Nodes ι :=
  steps.foldl (step config) w

/-- Who missed no event of a shard remembers of it what the log says. -/
def Recalls (w : Nodes ι) : Prop :=
  ∀ node shardId, (∀ event ∈ w.missed node, event.shardId ≠ shardId) → ∀ entityId,
    Knows (w.coordinator node).entitiesPerShard shardId entityId ↔
      Remembered w.log shardId entityId

lemma knows_preStart (hremember : config.rememberEntities = true)
    (hstore : config.rememberEntitiesStore = true) (log : List RememberEvent) (shardId : ShardId)
    (entityId : JsString) :
    Knows (preStart config log).entitiesPerShard shardId entityId ↔
      Remembered log shardId entityId := by
  have hfold : ∀ (log : List RememberEvent) (s : Coordinator),
      (log.foldl applyRememberEvent s).entitiesPerShard = log.foldl rememberIn s.entitiesPerShard := by
    intro log
    induction log with
    | nil => exact fun _ => rfl
    | cons event log ih => exact fun s => ih (s.applyRememberEvent event)
  rw [preStart, hremember, hstore, if_pos (by rfl), hfold]
  have hempty : Knows ({} : Coordinator).entitiesPerShard shardId entityId ↔
      Remembered [] shardId entityId := by simp [Knows, Remembered]
  exact knows_foldl_iff log hempty

omit [DecidableEq ι] in
lemma recalls_initial (hremember : config.rememberEntities = true)
    (hstore : config.rememberEntitiesStore = true) (log : List RememberEvent) :
    Recalls (initial config log : Nodes ι) :=
  fun _ shardId _ entityId => knows_preStart hremember hstore log shardId entityId

lemma Recalls.step {w : Nodes ι} (h : w.Recalls) (hremember : config.rememberEntities = true)
    (hstore : config.rememberEntitiesStore = true) (x : Step ι) : (w.step config x).Recalls := by
  cases x with
  | start node =>
    intro other shardId hmissed entityId
    by_cases hnode : other = node
    · subst hnode
      simp only [Nodes.step, update_self]
      exact knows_preStart hremember hstore w.log shardId entityId
    · simp only [Nodes.step, update_of_ne hnode] at hmissed ⊢
      exact h other shardId hmissed entityId
  | act node view input =>
    obtain ⟨hentities, -⟩ := step_tracks view hremember hstore (w.coordinator node) input
    intro other shardId hmissed entityId
    by_cases hnode : other = node
    · subst hnode
      simp only [Nodes.step, if_true] at hmissed
      simp only [Nodes.step, update_self, hentities]
      exact knows_foldl_iff _ (h other shardId hmissed entityId)
    · simp only [Nodes.step, if_neg hnode, mem_append] at hmissed
      simp only [Nodes.step, update_of_ne hnode]
      rw [remembered_append_of_other fun event hmem => hmissed event (.inr hmem)]
      exact h other shardId (fun event hmem => hmissed event (.inl hmem)) entityId

lemma Recalls.run {w : Nodes ι} (h : w.Recalls) (hremember : config.rememberEntities = true)
    (hstore : config.rememberEntitiesStore = true) (steps : List (Step ι)) :
    (w.run config steps).Recalls := by
  induction steps generalizing w with
  | nil => exact h
  | cons x steps ih => exact ih (h.step hremember hstore x)

/-- Whenever a coordinator ships the entities of a shard, and no other has appended an event
of the shard since it started, these are the ones that the log has as started by then. -/
theorem ships_remembered (config : CoordinatorConfig) (hremember : config.rememberEntities = true)
    (hstore : config.rememberEntitiesStore = true) (log : List RememberEvent)
    (steps : List (Step ι)) (node : ι) (view : View) (input : Input) (before after : List Effect)
    (path : JsString) (address : NodeAddress) (shardId : ShardId) (entityIds : List JsString)
    (hships : ((((initial config log).run config steps).coordinator node).step config view
      input).outbox = before ++ .send ⟨path, address, .rememberedEntities shardId entityIds⟩ :: after)
    (hmissed : ∀ event ∈ ((initial config log).run config steps).missed node,
      event.shardId ≠ shardId) (entityId : JsString) :
    entityId ∈ entityIds ↔
      Remembered (((initial config log).run config steps).log ++ appends before) shardId entityId := by
  have hrecalls := (recalls_initial hremember hstore log).run hremember hstore steps
  generalize (initial config log).run config steps = w at *
  obtain ⟨-, hknown⟩ := step_tracks view hremember hstore (w.coordinator node) input
  rw [hships] at hknown
  obtain ⟨known, hget, rfl⟩ := hknown.at rfl
  rw [← knows_foldl_iff _ (hrecalls node shardId hmissed entityId), Knows, hget]
  simp [OrderedSet.mem_def]

/-! ### A stop that another coordinator was told of -/

def rememberingConfig : CoordinatorConfig where
  numShards := 10
  rememberEntities := true
  rememberEntitiesStore := true

/-- Entity `e` of shard 5 was started. -/
def startedBefore : List RememberEvent := [⟨true, 5, "e"⟩]

/-- Host `a` leads until entity `e` has stopped, then host `b` does. -/
def stopThenElection : List (Step NodeAddress) :=
  [.act (hostNode "a") leading .leaderChanged,
    .act (hostNode "a") leading (.message (.entityStopped 5 "e") (some (hostNode "b"))),
    .act (hostNode "a") following .leaderChanged,
    .act (hostNode "b") leading .leaderChanged]

/-- A coordinator that started from the log ships what the log says. -/
theorem ships_remembered_startedBefore : "e".toJs ∈ ["e".toJs] ↔
      Remembered ((initial rememberingConfig startedBefore : Nodes NodeAddress).run
        rememberingConfig []).log 5 "e".toJs := by
  have h := ships_remembered rememberingConfig rfl rfl startedBefore [] (hostNode "b") leading
    registersFive [.send ⟨regionPath, hostNode "b", .registerAcknowledgment⟩] [] regionPath
    (hostNode "b") 5 ["e".toJs] (by decide +kernel) (by intro event hmem; cases hmem) "e".toJs
  simpa [appends] using h

/-- Host `b` ships the entity, which the log has as stopped. -/
theorem not_ships_remembered : ((((initial rememberingConfig startedBefore).run rememberingConfig
        stopThenElection).coordinator (hostNode "b")).step rememberingConfig leading
        registersFive).outbox =
      [.send ⟨regionPath, hostNode "b", .registerAcknowledgment⟩] ++
        .send ⟨regionPath, hostNode "b", .rememberedEntities 5 ["e".toJs]⟩ :: [] ∧
    ¬("e".toJs ∈ ["e".toJs] ↔
      Remembered (((initial rememberingConfig startedBefore).run rememberingConfig
        stopThenElection : Nodes NodeAddress).log ++
          appends [.send ⟨regionPath, hostNode "b", .registerAcknowledgment⟩]) 5 "e".toJs) := by
  refine ⟨by decide +kernel, fun hiff => ?_⟩
  exact absurd (hiff.1 mem_cons_self) (by unfold Remembered; decide +kernel)

end Nodes

end ActorTs.Cluster.Sharding.Coordinator
