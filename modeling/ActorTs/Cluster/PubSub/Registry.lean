import ActorTs.Cluster.PubSub.Mediator

/-!
# The registry is bounded

The tables of a mediator stay within the caps, a topic is kept for as long as somebody holds it, and
the subscribers that are known are those that subscribe. The invariant names the topics that are
still to be looked at; the handlers leave none.
-/

open List Option OrderedMap OrderedSet

namespace ActorTs.Cluster.PubSub

variable {τ β : Type*} [DecidableEq τ]

/-- The tables of a mediator, where some topics are still to be looked at. -/
structure Tables (options : DistributedPubSubOptions) (pending : τ → Prop)
    (topics : OrderedMap τ TopicState) (subscriptions : BidirectionalMultiMap τ JsString)
    (subscriberRefs : OrderedMap JsString SubscriberEntry) : Prop where
  topicsBounded : topics.size ≤ options.maxTopics
  subscribersBounded : ∀ topic,
    (subscriptions.get topic).size ≤ options.maxSubscribersPerTopic
  claimsBounded : ∀ topic state, topics.get? topic = some state →
    state.remoteNodes.size ≤ options.maxRemoteNodesPerTopic
  held : ∀ topic state, topics.get? topic = some state →
    pending topic ∨ (∃ path, path ∈ subscriptions.get topic) ∨ ∃ node, node ∈ state.remoteNodes
  known : ∀ topic path, path ∈ subscriptions.get topic → ∃ state, topics.get? topic = some state
  refs : ∀ path, subscriberRefs.has path = true ↔ ∃ topic, path ∈ subscriptions.get topic

namespace Mediator

variable {options : DistributedPubSubOptions} {pending : τ → Prop} {m : Mediator τ}
  {pending' : τ → Prop}

def Kept (options : DistributedPubSubOptions) (pending : τ → Prop) (m : Mediator τ) : Prop :=
  Tables options pending m.topics m.subscriptions m.subscriberRefs

lemma Kept.mono (h : m.Kept options pending) (hpending : ∀ t, pending t → pending' t) :
    m.Kept options pending' where
  topicsBounded := h.topicsBounded
  subscribersBounded := h.subscribersBounded
  claimsBounded := h.claimsBounded
  held t state hstate := (h.held t state hstate).imp_left (hpending t)
  known := h.known
  refs := h.refs

/-- A node claims to have subscribers for a topic. -/
def Claims (m : Mediator τ) (node : JsString) (topic : τ) : Prop :=
  ∃ state, m.topics.get? topic = some state ∧ node ∈ state.remoteNodes

variable (m) (topic : τ)

@[simp] lemma subscriptions_maybeDropTopic :
    (m.maybeDropTopic topic).subscriptions = m.subscriptions := by
  unfold maybeDropTopic
  split
  · rfl
  · split <;> rfl

@[simp] lemma subscriberRefs_maybeDropTopic :
    (m.maybeDropTopic topic).subscriberRefs = m.subscriberRefs := by
  unfold maybeDropTopic
  split
  · rfl
  · split <;> rfl

lemma get?_maybeDropTopic (topic topic' : τ) (state : TopicState) :
    (m.maybeDropTopic topic).topics.get? topic' = some state ↔
      m.topics.get? topic' = some state ∧ ¬(topic' = topic ∧
        (∀ path, path ∉ m.subscriptions.get topic) ∧ ∀ node, node ∉ state.remoteNodes) := by
  have hleft : m.subscriptions.hasLeft topic = false ↔
      ∀ path, path ∉ m.subscriptions.get topic := by
    rw [← Bool.not_eq_true, m.subscriptions.hasLeft_iff, not_exists]
  have hsize : ∀ s : TopicState, s.remoteNodes.size = 0 ↔ ∀ node, node ∉ s.remoteNodes := by
    intro s
    rw [← not_exists, ← OrderedSet.size_pos_iff, Nat.pos_iff_ne_zero, not_not]
  unfold maybeDropTopic
  cases htopic : m.topics.get? topic with
  | none =>
    refine ⟨fun h => ⟨h, fun hdrop => ?_⟩, And.left⟩
    rw [hdrop.1, htopic] at h
    cases h
  | some s =>
    dsimp only
    split
    · next hdrop =>
      rw [Bool.not_eq_true', hleft, hsize] at hdrop
      rw [OrderedMap.get?_delete]
      by_cases heq : topic = topic'
      · subst heq
        rw [if_pos rfl, htopic]
        refine ⟨nofun, fun h => absurd ⟨rfl, hdrop.1, ?_⟩ h.2⟩
        obtain rfl := Option.some.inj h.1
        exact hdrop.2
      · rw [if_neg heq]
        exact ⟨fun h => ⟨h, fun hdrop => heq hdrop.1.symm⟩, And.left⟩
    · next hkeep =>
      rw [Bool.not_eq_true', hleft, hsize] at hkeep
      refine ⟨fun h => ⟨h, fun hdrop => hkeep ?_⟩, And.left⟩
      obtain ⟨rfl, hpaths, hnodes⟩ := hdrop
      obtain rfl := Option.some.inj (htopic.symm.trans h)
      exact ⟨hpaths, hnodes⟩

lemma claims_maybeDropTopic (topic topic' : τ) (node : JsString) :
    (m.maybeDropTopic topic).Claims node topic' ↔ m.Claims node topic' := by
  refine exists_congr fun state => ?_
  rw [get?_maybeDropTopic]
  exact ⟨fun h => ⟨h.1.1, h.2⟩, fun h => ⟨⟨h.1, fun hdrop => hdrop.2.2 node h.2⟩, h.2⟩⟩

lemma size_maybeDropTopic_le : (m.maybeDropTopic topic).topics.size ≤ m.topics.size := by
  unfold maybeDropTopic
  split
  · exact le_rfl
  · split
    · exact size_delete_le _ topic
    · exact le_rfl

variable {m} {topic : τ}

lemma Kept.maybeDropTopic (h : m.Kept options fun t => t = topic ∨ pending t) :
    (m.maybeDropTopic topic).Kept options pending where
  topicsBounded := (size_maybeDropTopic_le m topic).trans h.topicsBounded
  subscribersBounded := by
    rw [subscriptions_maybeDropTopic]
    exact h.subscribersBounded
  claimsBounded := fun t state hstate =>
    h.claimsBounded t state ((get?_maybeDropTopic m topic t state).1 hstate).1
  held := by
    intro t state hstate
    rw [subscriptions_maybeDropTopic]
    obtain ⟨hget, hnot⟩ := (get?_maybeDropTopic m topic t state).1 hstate
    rcases h.held t state hget with (rfl | hpending) | hholder
    · refine .inr ?_
      by_contra hfree
      rw [not_or, not_exists, not_exists] at hfree
      exact hnot ⟨rfl, hfree.1, hfree.2⟩
    · exact .inl hpending
    · exact .inr hholder
  known := by
    intro t path hpath
    rw [subscriptions_maybeDropTopic] at hpath
    obtain ⟨state, hstate⟩ := h.known t path hpath
    refine ⟨state, (get?_maybeDropTopic m topic t state).2 ⟨hstate, ?_⟩⟩
    rintro ⟨rfl, hpaths, -⟩
    exact hpaths path hpath
  refs := by
    rw [subscriptions_maybeDropTopic, subscriberRefs_maybeDropTopic]
    exact h.refs

variable (m)

@[simp] lemma subscriptions_modifyTopic (topic : τ)
    (f : TopicState → TopicState) : (m.modifyTopic topic f).subscriptions = m.subscriptions := by
  unfold modifyTopic
  split <;> rfl

@[simp] lemma subscriberRefs_modifyTopic (topic : τ)
    (f : TopicState → TopicState) : (m.modifyTopic topic f).subscriberRefs = m.subscriberRefs := by
  unfold modifyTopic
  split <;> rfl

lemma get?_modifyTopic (topic topic' : τ) (f : TopicState → TopicState) :
    (m.modifyTopic topic f).topics.get? topic' =
      if topic = topic' then (m.topics.get? topic').map f else m.topics.get? topic' := by
  unfold modifyTopic
  cases htopic : m.topics.get? topic with
  | none =>
    dsimp only
    split
    · next heq =>
      rw [← heq, htopic]
      rfl
    · rfl
  | some state =>
    rw [get?_set]
    split
    · next heq =>
      rw [← heq, htopic]
      rfl
    · rfl

lemma size_modifyTopic (topic : τ) (f : TopicState → TopicState) :
    (m.modifyTopic topic f).topics.size = m.topics.size := by
  unfold modifyTopic
  cases htopic : m.topics.get? topic with
  | none => rfl
  | some state =>
    refine size_set_of_mem ?_ (f state)
    exact (m.topics.mem_keys_iff topic).2 ⟨state, htopic⟩

variable {m} {f : TopicState → TopicState}

/-- A changed topic is to be looked at, unless it was and its claims did not become fewer. -/
lemma Kept.modifyTopic (h : m.Kept options pending)
    (hf : ∀ state, m.topics.get? topic = some state →
      (f state).remoteNodes.size ≤ options.maxRemoteNodesPerTopic)
    (hpending : ∀ t, pending t → pending' t ∨
      ∃ state, t = topic ∧ m.topics.get? topic = some state ∧ ∃ node, node ∈ (f state).remoteNodes)
    (hnew : ∀ state, m.topics.get? topic = some state →
      (∀ node, node ∈ state.remoteNodes → node ∈ (f state).remoteNodes) ∨ pending' topic) :
    (m.modifyTopic topic f).Kept options pending' where
  topicsBounded := (size_modifyTopic m topic f).trans_le h.topicsBounded
  subscribersBounded := by
    rw [subscriptions_modifyTopic]
    exact h.subscribersBounded
  claimsBounded := by
    intro t state hstate
    rw [get?_modifyTopic] at hstate
    split at hstate
    · next heq =>
      subst heq
      obtain ⟨s, hs, rfl⟩ := map_eq_some_iff.1 hstate
      exact hf s hs
    · exact h.claimsBounded t state hstate
  held := by
    intro t state hstate
    rw [subscriptions_modifyTopic]
    rw [get?_modifyTopic] at hstate
    split at hstate
    · next heq =>
      subst heq
      obtain ⟨s, hs, rfl⟩ := map_eq_some_iff.1 hstate
      rcases h.held topic s hs with hpend | hpath | ⟨node, hnode⟩
      · rcases hpending topic hpend with hpend | ⟨s', -, hs', hclaimed⟩
        · exact .inl hpend
        · obtain rfl := some.inj (hs.symm.trans hs')
          exact .inr (.inr hclaimed)
      · exact .inr (.inl hpath)
      · rcases hnew s hs with hmore | hpend
        · exact .inr (.inr ⟨node, hmore node hnode⟩)
        · exact .inl hpend
    · next hne =>
      rcases h.held t state hstate with hpend | hholder
      · rcases hpending t hpend with hpend | ⟨-, heq, -⟩
        · exact .inl hpend
        · exact absurd heq.symm hne
      · exact .inr hholder
  known := by
    intro t path hpath
    rw [subscriptions_modifyTopic] at hpath
    obtain ⟨state, hstate⟩ := h.known t path hpath
    rw [get?_modifyTopic, hstate]
    split
    · exact ⟨f state, rfl⟩
    · exact ⟨state, rfl⟩
  refs := by
    rw [subscriptions_modifyTopic, subscriberRefs_modifyTopic]
    exact h.refs

lemma claims_modifyTopic (m : Mediator τ) (topic topic' : τ) (f : TopicState → TopicState)
    (node : JsString) : (m.modifyTopic topic f).Claims node topic' ↔
      ∃ state, m.topics.get? topic' = some state ∧
        node ∈ (if topic = topic' then f state else state).remoteNodes := by
  unfold Claims
  simp only [get?_modifyTopic]
  split
  · simp only [map_eq_some_iff]
    constructor
    · rintro ⟨_, ⟨state, hstate, rfl⟩, hnode⟩
      exact ⟨state, hstate, hnode⟩
    · rintro ⟨state, hstate, hnode⟩
      exact ⟨f state, ⟨state, hstate, rfl⟩, hnode⟩
  · rfl

lemma claims_modifyTopic_of_same (hf : ∀ state, (f state).remoteNodes = state.remoteNodes)
    (m : Mediator τ) (topic topic' : τ) (node : JsString) :
    (m.modifyTopic topic f).Claims node topic' ↔ m.Claims node topic' := by
  rw [claims_modifyTopic]
  refine exists_congr fun state => and_congr_right fun _ => ?_
  split
  · rw [hf]
  · rfl

lemma Kept.modifyTopic_of_same (hf : ∀ state, (f state).remoteNodes = state.remoteNodes)
    (h : m.Kept options pending) : (m.modifyTopic topic f).Kept options pending := by
  refine h.modifyTopic (fun state hstate => ?_) (fun t ht => .inl ht)
    (fun state _ => .inl fun node hnode => ?_)
  · rw [hf]
    exact h.claimsBounded topic state hstate
  · rwa [hf]

variable (m)

@[simp] lemma subscriptions_getOrCreateTopicState (topic : τ) :
    (m.getOrCreateTopicState topic).subscriptions = m.subscriptions := by
  unfold getOrCreateTopicState
  split <;> rfl

@[simp] lemma subscriberRefs_getOrCreateTopicState (topic : τ) :
    (m.getOrCreateTopicState topic).subscriberRefs = m.subscriberRefs := by
  unfold getOrCreateTopicState
  split <;> rfl

lemma get?_getOrCreateTopicState (topic topic' : τ) :
    (m.getOrCreateTopicState topic).topics.get? topic' =
      if topic = topic' then some ((m.topics.get? topic).getD freshTopicState)
      else m.topics.get? topic' := by
  unfold getOrCreateTopicState
  cases htopic : m.topics.get? topic with
  | none =>
    rw [get?_set]
    rfl
  | some state =>
    dsimp only
    split
    · next heq =>
      rw [← heq, htopic]
      rfl
    · rfl

lemma claims_getOrCreateTopicState (topic topic' : τ) (node : JsString) :
    (m.getOrCreateTopicState topic).Claims node topic' ↔ m.Claims node topic' := by
  unfold Claims
  rw [get?_getOrCreateTopicState]
  split
  · next heq =>
    subst heq
    cases htopic : m.topics.get? topic with
    | none =>
      refine ⟨?_, nofun⟩
      rintro ⟨_, hstate, hnode⟩
      obtain rfl := some.inj hstate
      exact absurd hnode (not_mem_empty node)
    | some state => rfl
  · rfl

variable {m}

lemma Kept.getOrCreateTopicState (h : m.Kept options fun _ => False)
    (hroom : m.topics.get? topic = none → m.topics.size < options.maxTopics) :
    (m.getOrCreateTopicState topic).Kept options
      fun t => t = topic ∧ m.topics.get? topic = none where
  topicsBounded := by
    unfold Mediator.getOrCreateTopicState
    cases htopic : m.topics.get? topic with
    | none => exact (size_set_le _ topic _).trans (hroom htopic)
    | some state => exact h.topicsBounded
  subscribersBounded := by
    rw [subscriptions_getOrCreateTopicState]
    exact h.subscribersBounded
  claimsBounded := by
    intro t state hstate
    rw [get?_getOrCreateTopicState] at hstate
    split at hstate
    · cases htopic : m.topics.get? topic with
      | none =>
        rw [htopic] at hstate
        obtain rfl := some.inj hstate
        exact Nat.zero_le _
      | some s =>
        rw [htopic] at hstate
        obtain rfl := some.inj hstate
        exact h.claimsBounded topic s htopic
    · exact h.claimsBounded t state hstate
  held := by
    intro t state hstate
    rw [subscriptions_getOrCreateTopicState]
    rw [get?_getOrCreateTopicState] at hstate
    split at hstate
    · next heq =>
      subst heq
      cases htopic : m.topics.get? topic with
      | none => exact .inl ⟨rfl, rfl⟩
      | some s =>
        rw [htopic] at hstate
        obtain rfl := some.inj hstate
        exact .inr ((h.held topic s htopic).resolve_left id)
    · exact .inr ((h.held t state hstate).resolve_left id)
  known := by
    intro t path hpath
    rw [subscriptions_getOrCreateTopicState] at hpath
    rw [get?_getOrCreateTopicState]
    split
    · exact ⟨_, rfl⟩
    · exact h.known t path hpath
  refs := by
    rw [subscriptions_getOrCreateTopicState, subscriberRefs_getOrCreateTopicState]
    exact h.refs

variable {node : JsString}

lemma Kept.withoutNode (h : m.Kept options pending) :
    ((m.modifyTopic topic (withoutNode node)).maybeDropTopic topic).Kept options pending := by
  have hpending : (m.modifyTopic topic (Mediator.withoutNode node)).Kept options
      fun t => t = topic ∨ pending t := by
    refine h.modifyTopic (fun state hstate => ?_) (fun t ht => .inl (.inr ht))
      (fun state _ => .inr (.inl rfl))
    refine le_trans (size_le_of_subset fun n hn => ?_) (h.claimsBounded topic state hstate)
    exact ((mem_delete _ node n).1 hn).1
  exact hpending.maybeDropTopic

lemma claims_withoutNode (m : Mediator τ) (topic topic' : τ) (node node' : JsString) :
    ((m.modifyTopic topic (withoutNode node)).maybeDropTopic topic).Claims node' topic' ↔
      m.Claims node' topic' ∧ ¬(topic' = topic ∧ node' = node) := by
  rw [claims_maybeDropTopic, claims_modifyTopic, Claims, ← exists_and_right]
  refine exists_congr fun state => ?_
  rw [and_assoc]
  refine and_congr_right fun _ => ?_
  split
  · next heq => simp [Mediator.withoutNode, heq]
  · next hne => simp [Ne.symm hne]

lemma Kept.clearClaims (h : m.Kept options pending) :
    (m.clearClaims node).Kept options pending := by
  unfold Mediator.clearClaims
  generalize m.topics.entries = entries
  induction entries generalizing m with
  | nil => exact h
  | cons entry entries ih => exact ih h.withoutNode

lemma claims_clearClaims (m : Mediator τ) (node node' : JsString) (topic : τ) :
    (m.clearClaims node).Claims node' topic ↔ m.Claims node' topic ∧ node' ≠ node := by
  have hwalk : ∀ (entries : List (τ × TopicState)) (m : Mediator τ), (entries.foldl (fun m entry =>
        (m.modifyTopic entry.1 (withoutNode node)).maybeDropTopic entry.1) m).Claims node' topic ↔
        m.Claims node' topic ∧ ¬(topic ∈ entries.map Prod.fst ∧ node' = node) := by
    intro entries
    induction entries with
    | nil => simp
    | cons entry entries ih =>
      intro m
      rw [foldl_cons, ih, claims_withoutNode, map_cons, mem_cons]
      tauto
  rw [clearClaims, hwalk]
  refine and_congr_right fun hclaims => not_congr ⟨And.right, fun hnode => ⟨?_, hnode⟩⟩
  obtain ⟨state, hstate, -⟩ := hclaims
  exact (m.topics.mem_keys_iff topic).2 ⟨state, hstate⟩

lemma Kept.bookClaim (h : m.Kept options fun _ => False) :
    (bookClaim options node m topic).Kept options fun _ => False := by
  unfold Mediator.bookClaim
  split
  · next hroom =>
    unfold HasRoom at hroom
    have hmade := h.getOrCreateTopicState fun hnone => by
      rw [hnone] at hroom
      exact hroom
    refine hmade.modifyTopic (fun state hstate => ?_) (fun t ht => .inr ?_)
      (fun state _ => .inl fun n hn => (mem_add _ node n).2 (.inr hn))
    · rw [get?_getOrCreateTopicState, if_pos rfl] at hstate
      obtain rfl := some.inj hstate
      refine (size_add_le _ node).trans ?_
      cases htopic : m.topics.get? topic with
      | none => exact options.remoteNodesPositive
      | some s =>
        rw [htopic] at hroom
        exact hroom
    · obtain ⟨rfl, hnone⟩ := ht
      refine ⟨freshTopicState, rfl, ?_, node, (mem_add _ node node).2 (.inl rfl)⟩
      rw [get?_getOrCreateTopicState, if_pos rfl, hnone]
      rfl
  · exact h

lemma claims_bookClaim (m : Mediator τ) (topic topic' : τ) (node node' : JsString) :
    (bookClaim options node m topic).Claims node' topic' ↔
      m.Claims node' topic' ∨ topic' = topic ∧ node' = node ∧ m.HasRoom options topic := by
  unfold bookClaim
  split
  · next hroom =>
    rw [claims_modifyTopic]
    constructor
    · rintro ⟨state, hstate, hnode⟩
      split at hnode
      · next heq =>
        rcases (mem_add _ node node').1 hnode with hnew | hold
        · exact .inr ⟨heq.symm, hnew, hroom⟩
        · exact .inl ((claims_getOrCreateTopicState m topic topic' node').1 ⟨state, hstate, hold⟩)
      · exact .inl ((claims_getOrCreateTopicState m topic topic' node').1 ⟨state, hstate, hnode⟩)
    · rintro (hclaims | ⟨rfl, rfl, -⟩)
      · obtain ⟨state, hstate, hnode⟩ :=
          (claims_getOrCreateTopicState m topic topic' node').2 hclaims
        refine ⟨state, hstate, ?_⟩
        split
        · exact (mem_add _ node node').2 (.inr hnode)
        · exact hnode
      · refine ⟨(m.topics.get? topic').getD freshTopicState, ?_, ?_⟩
        · rw [get?_getOrCreateTopicState, if_pos rfl]
        · rw [if_pos rfl]
          exact (mem_add _ node' node').2 (.inl rfl)
  · next hroom => simp [hroom]

lemma Kept.bookClaims (h : m.Kept options fun _ => False) (entries : List τ) :
    (entries.foldl (Mediator.bookClaim options node) m).Kept options fun _ => False := by
  induction entries generalizing m with
  | nil => exact h
  | cons topic entries ih => exact ih h.bookClaim

lemma claims_bookClaims_of_ne {node node' : JsString} (hne : node' ≠ node) (m : Mediator τ)
    (entries : List τ) (topic : τ) :
    (entries.foldl (bookClaim options node) m).Claims node' topic ↔ m.Claims node' topic := by
  induction entries generalizing m with
  | nil => rfl
  | cons t entries ih =>
    rw [foldl_cons, ih, claims_bookClaim]
    exact or_iff_left fun h => hne h.2.1

/-- A node without claims gets one exactly if one of those asked for is within the caps: the
first such one is booked, and until then nothing changes. -/
lemma exists_claims_bookClaims (hnone : ∀ topic, ¬m.Claims node topic) (entries : List τ) :
    (∃ topic, (entries.foldl (bookClaim options node) m).Claims node topic) ↔
      ∃ topic ∈ entries, m.HasRoom options topic := by
  have hmono : ∀ (entries : List τ) (m : Mediator τ) (topic : τ), m.Claims node topic →
      (entries.foldl (bookClaim options node) m).Claims node topic := by
    intro entries
    induction entries with
    | nil => exact fun _ _ h => h
    | cons t entries ih => exact fun m topic h => ih _ topic ((claims_bookClaim m ..).2 (.inl h))
  induction entries with
  | nil => simpa using hnone
  | cons t entries ih =>
    rw [foldl_cons, exists_mem_cons_iff]
    by_cases hroom : m.HasRoom options t
    · have hbooked : (bookClaim options node m t).Claims node t :=
        (claims_bookClaim m t t node node).2 (.inr ⟨rfl, rfl, hroom⟩)
      exact ⟨fun _ => .inl hroom, fun _ => ⟨t, hmono entries _ t hbooked⟩⟩
    · rw [bookClaim, if_neg hroom]
      exact ih.trans (or_iff_right hroom).symm

end Mediator

end ActorTs.Cluster.PubSub
