import ActorTs.Cluster.PubSub.Handlers

/-!
# Nodes that left

Handling the removal of a node takes its claims away, and nothing is published to a node without a
claim. But a frame is read whoever sent it, so the registry forgets what is gone exactly as long as
no frame of a removed node names a topic within the caps.
-/

open List Option OrderedSet

namespace ActorTs.Cluster.PubSub

open Mediator

variable {τ β : Type*}

/-- The node that an effect publishes something to. -/
def Effect.publishedTo : Effect τ β → Option JsString
  | .sendPublish node _ _ => some node
  | .sendPublishOne node _ _ => some node
  | _ => none

/-- Some effects, none of which publishes anything to another node. -/
def Quiet (effects : List (Effect τ β)) : Prop := ∀ e ∈ effects, e.publishedTo = none

@[simp] lemma quiet_nil : Quiet ([] : List (Effect τ β)) := nofun

@[simp] lemma quiet_cons (e : Effect τ β) (effects : List (Effect τ β)) :
    Quiet (e :: effects) ↔ e.publishedTo = none ∧ Quiet effects :=
  forall_mem_cons

@[simp] lemma quiet_append (effects later : List (Effect τ β)) :
    Quiet (effects ++ later) ↔ Quiet effects ∧ Quiet later :=
  forall_mem_append

lemma quiet_reply (recipient : Option JsString) {answer : JsString → Effect τ β}
    (h : ∀ node, (answer node).publishedTo = none) : Quiet (reply recipient answer) := by
  intro e he
  obtain ⟨node, -, rfl⟩ := map_eq_some_iff.1 (mem_toList.1 he)
  exact h node

variable (options : DistributedPubSubOptions)

@[simp] lemma quiet_deadLetter (body : β) :
    Quiet (deadLetter options body : List (Effect τ β)) := by
  unfold deadLetter
  split
  · simp [Effect.publishedTo]
  · exact quiet_nil

@[simp] lemma quiet_tellOne
    (throws : SubscriberEntry → Bool) (entry : SubscriberEntry) (topic : τ) (body : β)
    (origin : Option JsString) :
    Quiet (tellOne options throws entry topic body origin) := by
  unfold tellOne
  split
  · simp [Effect.publishedTo]
  · simp [Effect.publishedTo]

variable [DecidableEq τ]

namespace Mediator

variable {options : DistributedPubSubOptions} {m : Mediator τ}
variable (m)

@[simp] lemma quiet_eagerGossip (peers : List JsString) :
    Quiet (m.eagerGossip peers : List (Effect τ β)) := by
  intro e he
  obtain ⟨peer, -, rfl⟩ := mem_map.1 he
  rfl

variable (topic : τ)

@[simp] lemma quiet_deliverLocal (body : β)
    (origin : Option JsString) : Quiet (m.deliverLocal topic body origin) := by
  intro e he
  obtain ⟨entry, -, rfl⟩ := mem_map.1 he
  rfl

lemma quiet_onSubscribe (message : Subscribe τ) (peers : List JsString) :
    Quiet (onSubscribe options m message peers : Mediator τ × List (Effect τ β)).2 := by
  unfold onSubscribe
  dsimp only
  split
  · exact quiet_reply _ fun _ => rfl
  · rw [quiet_append, quiet_append]
    refine ⟨⟨?_, quiet_reply _ fun _ => rfl⟩, ?_⟩
    · split
      · exact quiet_nil
      · simp [Effect.publishedTo]
    · split
      · exact quiet_eagerGossip _ peers
      · exact quiet_nil

variable (ref : SubscriberRef)

lemma quiet_onUnsubscribe (sender : Option JsString) (peers : List JsString) :
    Quiet (onUnsubscribe m topic ref sender peers : Mediator τ × List (Effect τ β)).2 := by
  unfold onUnsubscribe
  split
  · rw [quiet_append, quiet_append]
    refine ⟨⟨?_, quiet_reply _ fun _ => rfl⟩, quiet_eagerGossip _ peers⟩
    split
    · exact quiet_nil
    · simp [Effect.publishedTo]
  · exact quiet_reply _ fun _ => rfl

lemma quiet_dropSubscriber (peers : List JsString) :
    Quiet (dropSubscriber m ref peers : Mediator τ × List (Effect τ β)).2 := by
  unfold dropSubscriber
  split
  · rw [quiet_cons]
    exact ⟨rfl, quiet_eagerGossip _ peers⟩
  · exact quiet_nil

variable (throws : SubscriberEntry → Bool)

lemma quiet_onPubSubPublish (topic : τ) (body : β) (origin : Option JsString) :
    Quiet (onPubSubPublish options m throws topic body origin).2 := by
  unfold onPubSubPublish
  rw [quiet_append]
  refine ⟨quiet_deliverLocal m topic body origin, ?_⟩
  split
  · exact quiet_deadLetter options body
  · exact quiet_nil

lemma quiet_onPubSubPublishOne (topic : τ) (body : β) (origin : Option JsString) :
    Quiet (onPubSubPublishOne options m throws topic body origin).2 := by
  unfold onPubSubPublishOne
  dsimp only
  split
  · exact quiet_deadLetter options body
  · split
    · exact quiet_deadLetter options body
    · exact quiet_tellOne options throws _ topic body origin

lemma quiet_handleGossip (entries : Option (List τ)) (sender : JsString) :
    Quiet (handleGossip options m entries sender : Mediator τ × List (Effect τ β)).2 := by
  unfold handleGossip
  dsimp only
  split
  · exact quiet_nil
  · split
    · exact quiet_nil
    · simp [Effect.publishedTo]

variable {m}
variable {node : JsString}

lemma claims_of_mem_remoteCandidatesOf {topic : τ}
    (h : node ∈ m.remoteCandidatesOf options topic) : m.Claims node topic := by
  unfold remoteCandidatesOf at h
  cases htopic : m.topics.get? topic with
  | none =>
    rw [htopic] at h
    exact absurd h not_mem_nil
  | some state =>
    rw [htopic] at h
    exact ⟨state, htopic, mem_mergeSort.1 (mem_of_mem_filter h)⟩

lemma claims_of_onPublish {throws : SubscriberEntry → Bool} {topic : τ} {body : β}
    {delivery : PubSubDelivery} {e : Effect τ β}
    (he : e ∈ (m.onPublish options throws topic body delivery).2)
    (hnode : e.publishedTo = some node) : m.Claims node topic := by
  have hquiet : ∀ {effects : List (Effect τ β)}, Quiet effects → e ∉ effects :=
    fun hq hmem => (nomatch (hq e hmem).symm.trans hnode)
  cases delivery with
  | allSubscribers =>
    rcases mem_append.1 he with he | he
    · rcases mem_append.1 he with he | he
      · exact absurd he (hquiet (quiet_deliverLocal m topic body _))
      · obtain ⟨node', hmem, rfl⟩ := mem_map.1 he
        obtain rfl := some.inj hnode
        exact claims_of_mem_remoteCandidatesOf hmem
    · refine absurd he (hquiet ?_)
      split
      · exact quiet_deadLetter options body
      · exact quiet_nil
  | oneSubscriber =>
    change e ∈ (m.publishToOneSubscriber options throws topic body).2 at he
    unfold publishToOneSubscriber at he
    dsimp only at he
    split at he
    · exact absurd he (hquiet (quiet_deadLetter options body))
    · split at he
      · exact absurd he (hquiet (quiet_deadLetter options body))
      · split at he
        · exact absurd he (hquiet (quiet_tellOne options throws _ topic body _))
        · obtain ⟨node', hmem, rfl⟩ := map_eq_some_iff.1 (mem_toList.1 he)
          obtain rfl := some.inj hnode
          exact claims_of_mem_remoteCandidatesOf (mem_of_getElem? hmem)

variable (m)

lemma modifyTopic_moves {f : TopicState → TopicState}
    (hf : ∀ state, (f state).remoteNodes = state.remoteNodes) :
    (m.Sound options → (m.modifyTopic topic f).Sound options) ∧
    ∀ node topic', (m.modifyTopic topic f).Claims node topic' ↔ m.Claims node topic' :=
  ⟨Kept.modifyTopic_of_same hf,
    fun node topic' => claims_modifyTopic_of_same hf m topic topic' node⟩

lemma onPublish_moves (topic : τ) (body : β) (delivery : PubSubDelivery) :
    (m.Sound options → (m.onPublish options throws topic body delivery).1.Sound options) ∧
    ∀ node topic', (m.onPublish options throws topic body delivery).1.Claims node topic' ↔
      m.Claims node topic' := by
  cases delivery with
  | allSubscribers => exact ⟨id, fun _ _ => Iff.rfl⟩
  | oneSubscriber =>
    show (m.Sound options → (m.publishToOneSubscriber options throws topic body).1.Sound
      options) ∧ ∀ node topic', (m.publishToOneSubscriber options throws topic body).1.Claims
        node topic' ↔ m.Claims node topic'
    unfold publishToOneSubscriber
    dsimp only
    split
    · exact ⟨id, fun _ _ => Iff.rfl⟩
    · split
      · exact ⟨id, fun _ _ => Iff.rfl⟩
      · split
        · refine modifyTopic_moves m topic ?_
          exact fun _ => rfl
        · refine modifyTopic_moves m topic ?_
          exact fun _ => rfl

lemma onPubSubPublishOne_moves (topic : τ) (body : β) (origin : Option JsString) :
    (m.Sound options → (onPubSubPublishOne options m throws topic body origin).1.Sound options) ∧
    ∀ node topic', (onPubSubPublishOne options m throws topic body origin).1.Claims node topic' ↔
      m.Claims node topic' := by
  unfold onPubSubPublishOne
  dsimp only
  split
  · exact ⟨id, fun _ _ => Iff.rfl⟩
  · split
    · exact ⟨id, fun _ _ => Iff.rfl⟩
    · refine modifyTopic_moves m topic ?_
      exact fun _ => rfl

variable {m}

lemma Sound.handleGossip (h : m.Sound options) (entries : Option (List τ)) (sender : JsString) :
    (handleGossip options m entries sender : Mediator τ × List (Effect τ β)).1.Sound options := by
  have hcleared : (m.clearClaims sender).Sound options := Kept.clearClaims h
  unfold Mediator.handleGossip
  dsimp only
  split
  · exact hcleared
  · next entries =>
    split
    · exact Kept.bookClaims hcleared entries
    · exact Kept.bookClaims hcleared entries

lemma claims_handleGossip_of_ne {sender : JsString} (hne : node ≠ sender) (m : Mediator τ)
    (entries : Option (List τ)) (topic : τ) :
    (handleGossip options m entries sender : Mediator τ × List (Effect τ β)).1.Claims node topic ↔
      m.Claims node topic := by
  have hcleared : (m.clearClaims sender).Claims node topic ↔ m.Claims node topic :=
    (claims_clearClaims m sender node topic).trans (and_iff_left hne)
  unfold handleGossip
  dsimp only
  split
  · exact hcleared
  · split
    · exact (claims_bookClaims_of_ne hne _ _ topic).trans hcleared
    · exact (claims_bookClaims_of_ne hne _ _ topic).trans hcleared

/-- The sender of a frame claims something afterwards exactly if the frame names a topic that
is within the caps once its old claims are gone. -/
lemma exists_claims_handleGossip (m : Mediator τ) (entries : Option (List τ))
    (sender : JsString) :
    (∃ topic, (handleGossip options m entries sender : Mediator τ × List (Effect τ β)).1.Claims
      sender topic) ↔
      ∃ l, entries = some l ∧ ∃ topic ∈ l, (m.clearClaims sender).HasRoom options topic := by
  have hnone : ∀ topic, ¬(m.clearClaims sender).Claims sender topic :=
    fun topic h => ((claims_clearClaims m sender sender topic).1 h).2 rfl
  unfold handleGossip
  split
  · simpa using hnone
  · next l =>
    simp only [some.injEq, exists_eq_left']
    split
    · exact exists_claims_bookClaims hnone l
    · exact exists_claims_bookClaims hnone l

lemma Sound.forgetNode (h : m.Sound options) (node : JsString) :
    (m.forgetNode node).Sound options := by
  have hanswered : ({ m with answeredPeers := m.answeredPeers.delete node } :
    Mediator τ).Sound options := h
  exact Kept.clearClaims hanswered

lemma claims_forgetNode (m : Mediator τ) (node node' : JsString) (topic : τ) :
    (m.forgetNode node).Claims node' topic ↔ m.Claims node' topic ∧ node' ≠ node :=
  claims_clearClaims { m with answeredPeers := m.answeredPeers.delete node } node node' topic

end Mediator

namespace Registry

variable {options : DistributedPubSubOptions} {r : Registry τ}

/-- The tables are as they should be, and no node that left claims a topic. -/
def Sound (options : DistributedPubSubOptions) (r : Registry τ) : Prop :=
  r.mediator.Sound options ∧ ∀ node ∈ r.departed, ∀ topic, ¬r.mediator.Claims node topic

/-- A frame of a node that left names a topic that is within the caps. -/
def Revives (options : DistributedPubSubOptions) (r : Registry τ) : Input τ β → Prop
  | .gossip (some entries) sender => sender ∈ r.departed ∧
      ∃ topic ∈ entries, (r.mediator.clearClaims sender).HasRoom options topic
  | _ => False

lemma revives_gossip_iff (entries : Option (List τ)) (sender : JsString) :
    r.Revives options (.gossip entries sender : Input τ β) ↔ sender ∈ r.departed ∧
      ∃ l, entries = some l ∧
        ∃ topic ∈ l, (r.mediator.clearClaims sender).HasRoom options topic := by
  cases entries with
  | none => simp [Revives]
  | some l => simp [Revives]

lemma sound_handle {m : Mediator τ} (h : m.Sound options) (input : Input τ β) :
    (handle options m input).1.Sound options := by
  cases input with
  | subscribe message peers => exact h.onSubscribe message peers
  | unsubscribe topic ref sender peers => exact h.onUnsubscribe topic ref sender peers
  | unsubscribeAll ref peers => exact h.dropSubscriber ref peers
  | terminated ref peers => exact h.dropSubscriber ref peers
  | publish topic body delivery throws => exact (m.onPublish_moves throws topic body delivery).1 h
  | pubSubPublish topic body origin throws => exact h
  | pubSubPublishOne topic body origin throws =>
    exact (m.onPubSubPublishOne_moves throws topic body origin).1 h
  | gossip entries sender => exact h.handleGossip entries sender
  | gossipTick target => exact h
  | memberUp node peers => exact h
  | memberRemoved node => exact h.forgetNode node
  | otherClusterEvent returned => exact h

lemma claims_of_effect {input : Input τ β} {e : Effect τ β} {node : JsString}
    (he : e ∈ effects options r input) (hnode : e.publishedTo = some node) :
    ∃ topic, r.mediator.Claims node topic := by
  have hquiet : ∀ {effects : List (Effect τ β)}, Quiet effects → e ∉ effects :=
    fun hq hmem => (nomatch (hq e hmem).symm.trans hnode)
  cases input with
  | subscribe message peers => exact absurd he (hquiet (quiet_onSubscribe _ message peers))
  | unsubscribe topic ref sender peers =>
    exact absurd he (hquiet (quiet_onUnsubscribe _ topic ref sender peers))
  | unsubscribeAll ref peers => exact absurd he (hquiet (quiet_dropSubscriber _ ref peers))
  | terminated ref peers => exact absurd he (hquiet (quiet_dropSubscriber _ ref peers))
  | publish topic body delivery throws => exact ⟨topic, claims_of_onPublish he hnode⟩
  | pubSubPublish topic body origin throws =>
    exact absurd he (hquiet (quiet_onPubSubPublish _ throws topic body origin))
  | pubSubPublishOne topic body origin throws =>
    exact absurd he (hquiet (quiet_onPubSubPublishOne _ throws topic body origin))
  | gossip entries sender => exact absurd he (hquiet (quiet_handleGossip _ entries sender))
  | gossipTick target => exact absurd he (hquiet (quiet_eagerGossip _ _))
  | memberUp node' peers => exact absurd he (hquiet (quiet_eagerGossip _ peers))
  | memberRemoved node' => exact absurd he not_mem_nil
  | otherClusterEvent returned => exact absurd he not_mem_nil

/-- One input keeps a sound registry sound exactly if it does not revive a node. -/
lemma sound_step_iff (h : r.Sound options) (input : Input τ β) :
    (step options r input).Sound options ↔ ¬r.Revives options input := by
  obtain ⟨hm, hgone⟩ := h
  have hsame : ∀ {m : Mediator τ} {departed : OrderedSet JsString},
      (∀ node ∈ departed, node ∈ r.departed) →
      (∀ node topic, m.Claims node topic ↔ r.mediator.Claims node topic) →
      ∀ node ∈ departed, ∀ topic, ¬m.Claims node topic :=
    fun hsub hclaims node hnode topic hc => hgone node (hsub node hnode) topic ((hclaims ..).1 hc)
  have hplain : ∀ {input : Input τ β}, ¬r.Revives options input →
      (∀ node ∈ departures r.departed input, ∀ topic,
        ¬(handle options r.mediator input).1.Claims node topic) →
      ((step options r input).Sound options ↔ ¬r.Revives options input) :=
    fun hno hkept => iff_of_true ⟨sound_handle hm _, hkept⟩ hno
  cases input with
  | subscribe message peers =>
    exact hplain id (hsame (fun _ => id) (r.mediator.claims_onSubscribe message peers))
  | unsubscribe topic ref sender peers =>
    exact hplain id (hsame (fun _ => id) (r.mediator.claims_onUnsubscribe topic ref sender peers))
  | unsubscribeAll ref peers =>
    exact hplain id (hsame (fun _ => id) (r.mediator.claims_dropSubscriber ref peers))
  | terminated ref peers =>
    exact hplain id (hsame (fun _ => id) (r.mediator.claims_dropSubscriber ref peers))
  | publish topic body delivery throws =>
    exact hplain id (hsame (fun _ => id) (r.mediator.onPublish_moves throws topic body delivery).2)
  | pubSubPublish topic body origin throws => exact hplain id hgone
  | pubSubPublishOne topic body origin throws =>
    exact hplain id (hsame (fun _ => id)
      (r.mediator.onPubSubPublishOne_moves throws topic body origin).2)
  | gossipTick target => exact hplain id hgone
  | memberUp node peers =>
    refine hplain id (hsame (fun node' hnode' => ?_) fun _ _ => Iff.rfl)
    exact ((mem_delete _ node node').1 hnode').1
  | memberRemoved node =>
    refine hplain id fun node' hnode' topic hc => ?_
    obtain ⟨hclaim, hne⟩ := (r.mediator.claims_forgetNode node node' topic).1 hc
    exact hgone node' (((mem_add _ node node').1 hnode').resolve_left hne) topic hclaim
  | otherClusterEvent returned =>
    refine hplain id (hsame (fun node' hnode' => ?_) fun _ _ => Iff.rfl)
    cases returned with
    | none => exact hnode'
    | some node => exact ((mem_delete _ node node').1 hnode').1
  | gossip entries sender =>
    have hbooked : (∃ topic, (handleGossip options r.mediator entries sender :
        Mediator τ × List (Effect τ β)).1.Claims sender topic) ↔ _ :=
      exists_claims_handleGossip r.mediator entries sender
    rw [revives_gossip_iff, ← hbooked]
    constructor
    · rintro ⟨-, hkept⟩ ⟨hdeparted, topic, hclaim⟩
      exact hkept sender hdeparted topic hclaim
    · intro hno
      refine ⟨sound_handle hm _, fun node hnode topic hclaim => ?_⟩
      by_cases heq : node = sender
      · subst heq
        exact hno ⟨hnode, topic, hclaim⟩
      · exact hgone node hnode topic ((claims_handleGossip_of_ne heq ..).1 hclaim)

lemma sound_init : (init : Registry τ).Sound options :=
  ⟨Mediator.sound_init options, fun node h => absurd h (not_mem_empty node)⟩

/-- Every state of a run is sound, and every step of it publishes to members alone. -/
def Faithful (options : DistributedPubSubOptions) (inputs : List (Input τ β)) : Prop :=
  (∀ earlier later, inputs = earlier ++ later → (run options earlier).Sound options) ∧
  ∀ earlier input later, inputs = earlier ++ input :: later →
    ∀ e ∈ effects options (run options earlier) input, ∀ node, e.publishedTo = some node →
      node ∉ (run options earlier).departed

/-- The registry stays bounded and forgets what is gone in exactly those runs where no frame
of a node that left names a topic within the caps. -/
theorem faithful_iff (options : DistributedPubSubOptions) (inputs : List (Input τ β)) :
    Faithful options inputs ↔
      Machine.Along (step options) (fun r input => ¬r.Revives options input) init inputs := by
  have hsound : (∀ earlier later, inputs = earlier ++ later →
      (run options earlier).Sound options) ↔
        Machine.Along (step options) (fun r input => ¬r.Revives options input) init inputs :=
    Machine.along_iff_invariant (I := Sound options) (J := fun _ => True) (fun _ _ _ => trivial)
      (fun _ input _ h => sound_step_iff h input) trivial sound_init inputs
  rw [← hsound]
  refine ⟨And.left, fun h => ⟨h, fun earlier input later hsplit e he node hnode hdeparted => ?_⟩⟩
  obtain ⟨topic, hclaim⟩ := claims_of_effect he hnode
  exact (h earlier (input :: later) hsplit).2 node hdeparted topic hclaim

/-- A peer that is removed while a frame of its is on the wire. -/
def lateOptions : DistributedPubSubOptions where
  selfAddress := "app@one:2551"
  subscribersPositive := by decide
  topicsPositive := by decide
  remoteNodesPositive := by decide

def lateInputs : List (Input JsString JsString) :=
  [.memberUp "app@two:2552" ["app@two:2552"], .memberRemoved "app@two:2552",
    .gossip (some ["orders"]) "app@two:2552"]

/-- The frame that is handled after the removal makes the node a claimant again, and nothing
is to come that takes the claim away. -/
theorem not_faithful_late :
    ¬∀ (options : DistributedPubSubOptions) (inputs : List (Input JsString JsString)),
      Faithful options inputs := by
  intro h
  have hsound := (h lateOptions lateInputs).1 lateInputs [] (append_nil _).symm
  refine hsound.2 "app@two:2552" (by decide) "orders" ?_
  exact ⟨_, rfl, by decide⟩

end Registry

end ActorTs.Cluster.PubSub
