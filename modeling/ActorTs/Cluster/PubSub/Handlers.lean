import ActorTs.Cluster.PubSub.Registry

/-!
# What the handlers keep

Each handler keeps the tables of the mediator, and each but the two that are about a node
leaves who claims what as it is.
-/

open List OrderedSet Nat

namespace ActorTs.Cluster.PubSub

open BidirectionalMultiMap

namespace Mediator

variable {τ β : Type*} [DecidableEq τ] {options : DistributedPubSubOptions} {m : Mediator τ}
  {pending : τ → Prop} {κ α : Type*}

/-- The tables, with no topic still to be looked at. -/
def Sound (options : DistributedPubSubOptions) (m : Mediator τ) : Prop :=
  m.Kept options fun _ => False

lemma sound_init (options : DistributedPubSubOptions) :
    (init : Mediator τ).Sound options where
  topicsBounded := zero_le _
  subscribersBounded _ := zero_le _
  claimsBounded _ _ h := nomatch h
  held _ _ h := nomatch h
  known _ path h := absurd h (not_mem_empty path)
  refs path := by
    refine ⟨nofun, ?_⟩
    rintro ⟨_, h⟩
    exact absurd h (not_mem_empty path)

lemma capRefusal_eq_none_iff (m : Mediator τ) (topic : τ) :
    m.capRefusal options topic = none ↔
      (m.topics.get? topic = none → m.topics.size < options.maxTopics) ∧
      (∀ state, m.topics.get? topic = some state →
        (m.subscriptions.get topic).size < options.maxSubscribersPerTopic) := by
  unfold capRefusal
  cases m.topics.get? topic with
  | none => simp
  | some state => simp

lemma has_set_iff [DecidableEq κ] (t : OrderedMap κ α) (k k' : κ) (a : α) :
    (t.set k a).has k' = true ↔ k' = k ∨ t.has k' = true := by
  rw [OrderedMap.has_iff, OrderedMap.has_iff, OrderedMap.mem_keys_set]

lemma has_delete_iff [DecidableEq κ] (t : OrderedMap κ α) (k k' : κ) :
    (t.delete k).has k' = true ↔ t.has k' = true ∧ k' ≠ k := by
  rw [OrderedMap.has_iff, OrderedMap.has_iff, OrderedMap.mem_keys_delete]
  exact and_congr_right fun _ => ne_comm

lemma Kept.rememberSubscription {message : Subscribe τ} (h : m.Kept options pending)
    (hpending : ∀ t, pending t → t = message.topic)
    (hknown : ∃ state, m.topics.get? message.topic = some state)
    (hroom : message.ref.path ∈ m.subscriptions.get message.topic ∨
      (m.subscriptions.get message.topic).size < options.maxSubscribersPerTopic) :
    (m.rememberSubscription message).Sound options where
  topicsBounded := h.topicsBounded
  subscribersBounded := by
    intro t
    show ((m.subscriptions.add message.topic message.ref.path).get t).size ≤ _
    by_cases ht : message.topic = t
    · subst ht
      rw [get_add]
      rcases hroom with hmem | hroom
      · refine (size_le_of_subset fun path hpath => ?_).trans (h.subscribersBounded message.topic)
        rcases (mem_add _ message.ref.path path).1 hpath with rfl | hpath
        · exact hmem
        · exact hpath
      · exact (size_add_le _ _).trans hroom
    · rw [get_add_of_ne m.subscriptions ht]
      exact h.subscribersBounded t
  claimsBounded := h.claimsBounded
  held := by
    intro t state hstate
    refine .inr ?_
    have hmem := m.subscriptions.mem_get_add message.topic t message.ref.path
    rcases h.held t state hstate with hpend | ⟨path, hpath⟩ | hclaim
    · exact .inl ⟨message.ref.path, (hmem _).2 (.inl ⟨hpending t hpend, rfl⟩)⟩
    · exact .inl ⟨path, (hmem _).2 (.inr hpath)⟩
    · exact .inr hclaim
  known := by
    intro t path hpath
    rcases (m.subscriptions.mem_get_add message.topic t message.ref.path path).1 hpath with
      ⟨rfl, -⟩ | hpath
    · exact hknown
    · exact h.known t path hpath
  refs := by
    intro path
    refine (has_set_iff ..).trans ?_
    have hmem := fun t => m.subscriptions.mem_get_add message.topic t message.ref.path path
    refine Iff.trans ?_ (exists_congr hmem).symm
    rw [h.refs path, exists_or]
    exact or_congr_left ⟨fun hp => ⟨message.topic, rfl, hp⟩, fun hp => hp.choose_spec.2⟩

lemma Sound.onSubscribe (h : m.Sound options) (message : Subscribe τ) (peers : List JsString) :
    (onSubscribe options m message peers : Mediator τ × List (Effect τ β)).1.Sound options := by
  unfold Mediator.onSubscribe
  dsimp only
  split
  · exact h
  · next hrefusal =>
    have hmade : (m.topics.get? message.topic = none → m.topics.size < options.maxTopics) ∧
        (message.ref.path ∈ m.subscriptions.get message.topic ∨
          (m.subscriptions.get message.topic).size < options.maxSubscribersPerTopic) := by
      by_cases hmem : message.ref.path ∈ m.subscriptions.get message.topic
      · obtain ⟨state, hstate⟩ := h.known message.topic _ hmem
        exact ⟨fun hnone => (nomatch hnone.symm.trans hstate), .inl hmem⟩
      · have hhas : m.subscriptions.has message.topic message.ref.path = false := by
          rw [← Bool.not_eq_true, m.subscriptions.has_iff]
          exact hmem
        rw [hhas, Bool.not_false, if_pos rfl, capRefusal_eq_none_iff] at hrefusal
        refine ⟨hrefusal.1, .inr ?_⟩
        cases htopic : m.topics.get? message.topic with
        | some state => exact hrefusal.2 state htopic
        | none =>
          -- A topic that is not there has no subscribers, and the cap is positive.
          have hempty : (m.subscriptions.get message.topic).size = 0 := by
            by_contra hne
            obtain ⟨path, hpath⟩ := (size_pos_iff _).1 (pos_of_ne_zero hne)
            obtain ⟨state, hstate⟩ := h.known message.topic path hpath
            exact nomatch htopic.symm.trans hstate
          rw [hempty]
          exact options.subscribersPositive
    have hkept : ((m.getOrCreateTopicState message.topic).rememberSubscription message).Sound
        options := by
      refine (Kept.getOrCreateTopicState h hmade.1).rememberSubscription (fun _ ht => ht.1)
        ⟨_, by rw [get?_getOrCreateTopicState, if_pos rfl]⟩ ?_
      rw [subscriptions_getOrCreateTopicState]
      exact hmade.2
    split
    · exact hkept
    · exact hkept

lemma claims_onSubscribe (m : Mediator τ) (message : Subscribe τ) (peers : List JsString)
    (node : JsString) (topic : τ) :
    (onSubscribe options m message peers : Mediator τ × List (Effect τ β)).1.Claims node topic ↔
      m.Claims node topic := by
  unfold onSubscribe
  dsimp only
  split
  · rfl
  · have hmade := claims_getOrCreateTopicState m message.topic topic node
    split
    · exact hmade
    · exact hmade

/-- A relation that lost pairs of one subscriber, whose entry goes if it has none left. -/
lemma Sound.shrink (h : m.Sound options) {subscriptions : BidirectionalMultiMap τ JsString}
    {subscriberRefs : OrderedMap JsString SubscriberEntry}
    (hsub : ∀ t path, path ∈ subscriptions.get t → path ∈ m.subscriptions.get t)
    (hlost : ∀ t path, path ∈ m.subscriptions.get t → path ∉ subscriptions.get t → pending t)
    (hrefs : ∀ path, subscriberRefs.has path = true ↔ ∃ t, path ∈ subscriptions.get t) :
    ({ m with subscriptions := subscriptions, subscriberRefs := subscriberRefs } :
      Mediator τ).Kept options pending where
  topicsBounded := h.topicsBounded
  subscribersBounded t := (size_le_of_subset (hsub t)).trans (h.subscribersBounded t)
  claimsBounded := h.claimsBounded
  held := by
    intro t state hstate
    rcases (h.held t state hstate).resolve_left id with ⟨path, hpath⟩ | hclaim
    · by_cases hkept : path ∈ subscriptions.get t
      · exact .inr (.inl ⟨path, hkept⟩)
      · exact .inl (hlost t path hpath hkept)
    · exact .inr (.inr hclaim)
  known t path hpath := h.known t path (hsub t path hpath)
  refs := hrefs

lemma Sound.onUnsubscribe (h : m.Sound options) (topic : τ) (ref : SubscriberRef)
    (sender : Option JsString) (peers : List JsString) :
    (onUnsubscribe m topic ref sender peers : Mediator τ × List (Effect τ β)).1.Sound options := by
  have hmem := fun t path => m.subscriptions.mem_get_delete topic t ref.path path
  unfold Mediator.onUnsubscribe
  dsimp only
  split
  · refine Kept.maybeDropTopic ?_
    have hlost : ∀ t path, path ∈ m.subscriptions.get t →
        path ∉ (m.subscriptions.delete topic ref.path).get t → t = topic ∨ False := by
      intro t path hpath hgone
      rw [hmem, not_and, not_not] at hgone
      exact .inl (hgone hpath).1
    have hsub := fun t path (hpath : path ∈ (m.subscriptions.delete topic ref.path).get t) =>
      ((hmem t path).1 hpath).1
    unfold forgetSubscriber
    dsimp only
    split
    · next hright =>
      refine h.shrink hsub hlost fun path => ?_
      rw [h.refs path]
      refine ⟨fun hheld => ?_, fun hheld => hheld.imp fun t ht => hsub t path ht⟩
      by_cases hpath : path = ref.path
      · subst hpath
        exact (hasRight_iff _ _).1 hright
      · exact hheld.imp fun t ht => (hmem t path).2 ⟨ht, fun h => hpath h.2⟩
    · next hright =>
      refine h.shrink hsub hlost fun path => ?_
      rw [hasRight_iff, not_exists] at hright
      rw [has_delete_iff, h.refs path]
      constructor
      · rintro ⟨hheld, hpath⟩
        exact hheld.imp fun t ht => (hmem t path).2 ⟨ht, fun h => hpath h.2⟩
      · rintro ⟨t, ht⟩
        refine ⟨⟨t, hsub t path ht⟩, ?_⟩
        rintro rfl
        exact hright t ht
  · exact h

lemma claims_onUnsubscribe (m : Mediator τ) (topic : τ) (ref : SubscriberRef)
    (sender : Option JsString) (peers : List JsString) (node : JsString) (topic' : τ) :
    (onUnsubscribe m topic ref sender peers : Mediator τ × List (Effect τ β)).1.Claims node topic' ↔
      m.Claims node topic' := by
  unfold onUnsubscribe
  dsimp only
  split
  · rw [claims_maybeDropTopic]
    unfold forgetSubscriber
    dsimp only
    split
    · rfl
    · rfl
  · rfl

/-- The walk over the topics that a subscriber held. -/
def lookAt (m : Mediator τ) (topics : List τ) : Mediator τ :=
  topics.foldl (fun m topic => { m with version := m.version + 1 }.maybeDropTopic topic) m

lemma Kept.lookAt {topics : List τ} (h : m.Kept options fun t => t ∈ topics) :
    (m.lookAt topics).Sound options := by
  induction topics generalizing m with
  | nil => exact h.mono fun t ht => absurd ht not_mem_nil
  | cons topic topics ih => exact ih (Kept.maybeDropTopic (h.mono fun t => mem_cons.1))

lemma claims_lookAt (m : Mediator τ) (topics : List τ) (node : JsString) (topic : τ) :
    (m.lookAt topics).Claims node topic ↔ m.Claims node topic := by
  unfold lookAt
  induction topics generalizing m with
  | nil => rfl
  | cons t topics ih =>
    rw [foldl_cons, ih, claims_maybeDropTopic]
    rfl

lemma Sound.dropSubscriber (h : m.Sound options) (ref : SubscriberRef) (peers : List JsString) :
    (dropSubscriber m ref peers : Mediator τ × List (Effect τ β)).1.Sound options := by
  have hmem := fun t path => m.subscriptions.mem_get_deleteRight t ref.path path
  unfold Mediator.dropSubscriber
  dsimp only
  split
  · refine Kept.lookAt (h.shrink (fun t path hpath => ((hmem t path).1 hpath).1) ?_ ?_)
    · intro t path hpath hgone
      rw [hmem, not_and, not_not] at hgone
      exact (m.subscriptions.mem_getKeys t ref.path).2 (hgone hpath ▸ hpath)
    · intro path
      rw [has_delete_iff, h.refs path]
      simp only [hmem]
      exact exists_and_right.symm
  · exact h

lemma claims_dropSubscriber (m : Mediator τ) (ref : SubscriberRef) (peers : List JsString)
    (node : JsString) (topic : τ) :
    (dropSubscriber m ref peers : Mediator τ × List (Effect τ β)).1.Claims node topic ↔
      m.Claims node topic := by
  unfold dropSubscriber
  dsimp only
  split
  · exact claims_lookAt _ _ node topic
  · rfl

end Mediator

end ActorTs.Cluster.PubSub
