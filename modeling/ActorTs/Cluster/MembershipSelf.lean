import ActorTs.Cluster.MembershipMerge

/-!
# What peers can make of a node's own record

A node is told of itself in every frame it gets. It believes one thing of it, that a leader
has promoted it, and then stores the record it was sent. What only the node knows is put
back into that record first: its address with the incarnation, the version of the
application, the identities of its stores and the facts it has published.

The roles are not put back, and where the node has published no identities or no facts, those of the
record stay. So the record of the node is what the node made it as long as nobody promotes it with
other ones.
-/

open List Option Bool

namespace ActorTs.Cluster.Membership

variable {config : MembershipConfig} {s t u : Membership} {me : Member}

/-- The node's entry, as the node wrote it: with its own address and its own version of the
application. -/
structure SelfRecord (config : MembershipConfig) (s : Membership) (me : Member) : Prop where
  entry : s.get? config.selfAddress = some me
  address : me.address = config.selfAddress
  appVersion : me.appVersion = config.selfAppVersion

/-- What the node knows of itself, before and after. It may have been promoted. -/
structure Kept (config : MembershipConfig) (before after : Member) : Prop where
  address : after.address = before.address
  status : after.status = before.status ∨ awaitsPromotion before = true ∧ after.status = .up
  version : before.version ≤ after.version
  roles : ∀ role, after.hasRole role = before.hasRole role
  appVersion : after.appVersion = before.appVersion
  storageIdentities : after.storageIdentities = before.storageIdentities ∨
    config.selfStorageIdentities ≠ {} ∧
      after.storageIdentities = some config.selfStorageIdentities
  configurationFacts : after.configurationFacts = before.configurationFacts ∨
    config.selfConfigurationFacts ≠ [] ∧
      after.configurationFacts = some config.selfConfigurationFacts

lemma Kept.refl (config : MembershipConfig) (member : Member) : Kept config member member :=
  ⟨rfl, .inl rfl, le_rfl, fun _ => rfl, rfl, .inl rfl, .inl rfl⟩

lemma Kept.trans {a b c : Member} (hab : Kept config a b) (hbc : Kept config b c) :
    Kept config a c where
  address := hbc.address.trans hab.address
  status := by
    rcases hbc.status with hsame | ⟨hawaits, hup⟩
    · rw [hsame]
      exact hab.status
    · rcases hab.status with hsame' | ⟨hawaits', -⟩
      · rw [awaitsPromotion, hsame'] at hawaits
        exact .inr ⟨hawaits, hup⟩
      · exact .inr ⟨hawaits', hup⟩
  version := hab.version.trans hbc.version
  roles role := (hbc.roles role).trans (hab.roles role)
  appVersion := hbc.appVersion.trans hab.appVersion
  storageIdentities := by
    rcases hbc.storageIdentities with hsame | hown
    · rw [hsame]
      exact hab.storageIdentities
    · exact .inr hown
  configurationFacts := by
    rcases hbc.configurationFacts with hsame | hown
    · rw [hsame]
      exact hab.configurationFacts
    · exact .inr hown

/-- From the one state to the other, the node keeps its record. -/
def KeepsSelf (config : MembershipConfig) (s t : Membership) : Prop :=
  ∀ me, SelfRecord config s me → ∃ me', SelfRecord config t me' ∧ Kept config me me'

lemma KeepsSelf.trans (hst : KeepsSelf config s t) (htu : KeepsSelf config t u) :
    KeepsSelf config s u := by
  intro me hme
  obtain ⟨me', hme', hkept⟩ := hst me hme
  obtain ⟨me'', hme'', hkept'⟩ := htu me' hme'
  exact ⟨me'', hme'', hkept.trans hkept'⟩

lemma KeepsSelf.of_entry (h : t.get? config.selfAddress = s.get? config.selfAddress) :
    KeepsSelf config s t :=
  fun me hme => ⟨me, ⟨h.trans hme.entry, hme.address, hme.appVersion⟩, .refl config me⟩

lemma KeepsSelf.of_members (h : t.members = s.members) : KeepsSelf config s t :=
  .of_entry (by rw [get?, get?, h])

variable {member : Member} {address : NodeAddress}

lemma get?_setMember_of_ne (h : addrKey member ≠ address.toString) :
    (s.setMember member).get? address = s.get? address := by
  rw [get?_setMember]
  exact if_neg h

lemma Overlays.get?_of_ne {key : JsString} (h : Overlays key s t) (hne : key ≠ address.toString) :
    t.get? address = s.get? address := by
  induction h with
  | refl => rfl
  | restate _ _ hkey _ ih => rw [get?_setMember_of_ne (hkey ▸ hne), ih]

lemma get?_updateMember_of_ne (h : addrKey member ≠ address.toString) :
    (s.updateMember config member).get? address = s.get? address := by
  rw [get?, members_updateMember]
  exact get?_setMember_of_ne h

variable {incoming : Member}

lemma get?_admitFirstSighting_of_ne (h : addrKey incoming ≠ address.toString) :
    (s.admitFirstSighting config incoming).get? address = s.get? address := by
  rw [get?, members_admitFirstSighting]
  exact get?_setMember_of_ne h

lemma get?_replaceMember_of_ne {existing : Member} (hkey : addrKey existing = addrKey incoming)
    (h : addrKey incoming ≠ address.toString) :
    (s.replaceMember config existing incoming).get? address = s.get? address := by
  have hne : addrKey existing ≠ address.toString := hkey ▸ h
  unfold replaceMember
  split
  · rw [replaceIncarnation, get?_admitFirstSighting_of_ne h, get?_emit, get?, get?_deleteMember]
    refine (if_neg hne).trans ?_
    exact get?_updateMember_of_ne hne
  · rw [get?_emitStatusTransition]
    exact get?_setMember_of_ne h

/-- The record promotes the node, and will be believed. -/
structure PromotesSelf (config : MembershipConfig) (s : Membership) (report : Report)
    (me : Member) : Prop where
  about : report.record.address.equals config.selfAddress = true
  promotion : s.isOwnPromotion config report.record.status = true
  believable : report.record.version ≤ report.now + config.maxVersionSkewMs
  news : me.version < report.record.version ∨ promotedAtEqualVersion me report.record = true

/-- What a promotion says of the node where that is not put back is what the node says
itself, and no address the peer may speak of prints like the node's without being it. -/
structure RepeatsSelf (config : MembershipConfig) (s : Membership) (report : Report) :
    Prop where
  address : addrKey report.record = config.selfAddress.toString →
    (s.maySpeakFor config report.sender report.senderStatus report.record.address
      report.record.status).2 = true →
    report.record.address.equals config.selfAddress = true
  roles : ∀ me, s.get? config.selfAddress = some me → PromotesSelf config s report me →
    ∀ role, report.record.hasRole role = me.hasRole role
  storageIdentities : ∀ me, s.get? config.selfAddress = some me →
    PromotesSelf config s report me → config.selfStorageIdentities = {} →
    report.record.storageIdentities = me.storageIdentities
  configurationFacts : ∀ me, s.get? config.selfAddress = some me →
    PromotesSelf config s report me → config.selfConfigurationFacts = [] →
    report.record.configurationFacts = me.configurationFacts

lemma withLocalSelfIdentity_of_other (h : member.address.equals config.selfAddress = false) :
    withLocalSelfIdentity config member = member := by
  rw [withLocalSelfIdentity, h, if_neg Bool.false_ne_true]

lemma withLocalSelfIdentity_of_self (h : member.address.equals config.selfAddress = true) :
    withLocalSelfIdentity config member =
      { member with
        address := config.selfAddress
        storageIdentities := (selfStorageIdentitiesSnapshot config).or member.storageIdentities
        configurationFacts :=
          (selfConfigurationFactsSnapshot config).or member.configurationFacts
        appVersion := config.selfAppVersion } := by
  rw [withLocalSelfIdentity, if_pos h]

lemma of_isOwnPromotion {status : MemberStatus} (hme : s.get? config.selfAddress = some me)
    (h : s.isOwnPromotion config status = true) : status = .up ∧ awaitsPromotion me = true := by
  rw [isOwnPromotion, hme, any_some, and_eq_true, decide_eq_true_eq] at h
  exact h

variable {report : Report}

lemma isOwnPromotion_of_speaks (hself : incoming.address.equals config.selfAddress = true)
    (hspeaks : (s.maySpeakFor config report.sender report.senderStatus incoming.address
      incoming.status).2 = true) : s.isOwnPromotion config incoming.status = true := by
  by_contra hno
  unfold maySpeakFor at hspeaks
  rw [if_pos hself, if_neg hno] at hspeaks
  split at hspeaks <;> cases hspeaks

lemma kept_promotion (hme : SelfRecord config s me) (hrepeats : RepeatsSelf config s report)
    (hpromotes : PromotesSelf config s report me) :
    Kept config me (withLocalSelfIdentity config report.record) := by
  obtain ⟨hup, hawaits⟩ := of_isOwnPromotion hme.entry hpromotes.promotion
  rw [withLocalSelfIdentity_of_self hpromotes.about]
  refine ⟨hme.address.symm, .inr ⟨hawaits, hup⟩, ?_,
    hrepeats.roles me hme.entry hpromotes, hme.appVersion.symm, ?_, ?_⟩
  · rcases hpromotes.news with hlt | hpromoted
    · exact hlt.le
    · simp only [promotedAtEqualVersion, and_eq_true, decide_eq_true_eq] at hpromoted
      exact hpromoted.1.1.ge
  · by_cases hnone : config.selfStorageIdentities = {}
    · refine .inl ?_
      rw [selfStorageIdentitiesSnapshot, if_pos hnone, none_or]
      exact hrepeats.storageIdentities me hme.entry hpromotes hnone
    · refine .inr ⟨hnone, ?_⟩
      rw [selfStorageIdentitiesSnapshot, if_neg hnone, some_or]
  · by_cases hnone : config.selfConfigurationFacts = []
    · refine .inl ?_
      rw [selfConfigurationFactsSnapshot, if_pos hnone, none_or]
      exact hrepeats.configurationFacts me hme.entry hpromotes hnone
    · refine .inr ⟨hnone, ?_⟩
      rw [selfConfigurationFactsSnapshot, if_neg hnone, some_or]

lemma SelfRecord.set (hme : SelfRecord config s me) {next : Member}
    (hmembers : t.members = (s.setMember next).members) (hkept : Kept config me next) :
    SelfRecord config t next where
  entry := by
    rw [get?, hmembers, ← hme.address, ← hkept.address]
    exact OrderedMap.get?_set_self _ _ _
  address := hkept.address.trans hme.address
  appVersion := hkept.appVersion.trans hme.appVersion

lemma KeepsSelf.mergeMember (hkeyed : s.Keyed) (hrepeats : RepeatsSelf config s report) :
    KeepsSelf config s (s.mergeMember config report) := by
  have hmerge := merge_mergeMember config s report
  generalize s.mergeMember config report = t at hmerge
  -- What is not about the node is written under another key.
  have hother : ∀ {incoming : Member}, incoming = withLocalSelfIdentity config report.record →
      (s.maySpeakFor config report.sender report.senderStatus incoming.address
        incoming.status).2 = true →
      incoming.address.equals config.selfAddress = false →
      addrKey incoming ≠ config.selfAddress.toString := by
    rintro incoming rfl hspeaks hno hkey
    cases habout : report.record.address.equals config.selfAddress with
    | true =>
      rw [withLocalSelfIdentity_of_self habout] at hno
      simp [NodeAddress.equals] at hno
    | false =>
      rw [withLocalSelfIdentity_of_other habout] at hkey hspeaks
      rw [hrepeats.address hkey hspeaks] at habout
      cases habout
  cases hmerge with
  | refused counts => exact .of_members rfl
  | @overlaid existing incoming hincoming hspeaks hentry hold =>
    cases hself : incoming.address.equals config.selfAddress with
    | true =>
      rw [adoptOverlays_of_self hself]
      exact .of_members rfl
    | false =>
      exact .of_entry ((overlays_adoptOverlays hkeyed hentry _).get?_of_ne
        (hother hincoming hspeaks hself))
  | @filed incoming hincoming hspeaks hentry hroom =>
    cases hself : incoming.address.equals config.selfAddress with
    | false => exact .of_entry (get?_admitFirstSighting_of_ne (hother hincoming hspeaks hself))
    | true =>
      -- The node's entry is no tombstone while it waits for its promotion.
      intro me hme
      have hawaits := (of_isOwnPromotion hme.entry (isOwnPromotion_of_speaks hself hspeaks)).2
      have hremoved := hentry me (by
        rw [get?, NodeAddress.toString_of_equals hself]
        exact hme.entry)
      rw [awaitsPromotion, hremoved] at hawaits
      cases hawaits
  | @replaced existing incoming hincoming hspeaks hbelievable hentry hlive hnews hroom =>
    cases hself : incoming.address.equals config.selfAddress with
    | false =>
      exact .of_entry (get?_replaceMember_of_ne (hkeyed _ _ hentry)
        (hother hincoming hspeaks hself))
    | true =>
      intro me hme
      have hexisting : existing = me := by
        rw [get?, NodeAddress.toString_of_equals hself] at hentry
        exact some.inj (hentry.symm.trans hme.entry)
      subst hexisting
      have habout : report.record.address.equals config.selfAddress = true := by
        by_contra hno
        rw [hincoming, withLocalSelfIdentity_of_other (eq_false_of_not_eq_true hno)] at hself
        exact hno hself
      have hrecord := withLocalSelfIdentity_of_self habout
      rw [← hincoming] at hrecord
      have hstatus : incoming.status = report.record.status := by rw [hrecord]
      have hversion : incoming.version = report.record.version := by rw [hrecord]
      have haddress : incoming.address = config.selfAddress := by rw [hrecord]
      have hpromotes : PromotesSelf config s report existing := by
        refine ⟨habout, hstatus ▸ isOwnPromotion_of_speaks hself hspeaks, ?_, ?_⟩
        · rw [← hversion]
          by_contra hno
          rw [admitsVersion, if_neg hno] at hbelievable
          cases hbelievable
        · rwa [← hversion, promotedAtEqualVersion, ← hstatus, ← hversion]
      have hkept := kept_promotion hme hrepeats hpromotes
      rw [← hincoming] at hkept
      refine ⟨incoming, hme.set ?_ hkept, hkept⟩
      -- The address is the node's own, so the promotion is no restart.
      have hrestart : isRestartOf existing incoming = false := by
        unfold isRestartOf
        rw [hme.address, haddress]
        split
        · rfl
        · cases config.selfAddress.incarnation <;> simp
      rw [replaceMember, hrestart, if_neg Bool.false_ne_true]
      exact members_emitStatusTransition _ _

/-- Along the records of a frame, each in the state it meets. -/
def AlongReports (config : MembershipConfig) (P : Membership → Report → Prop) :
    Membership → List Report → Prop
  | _, [] => True
  | s, report :: reports => P s report ∧ AlongReports config P (s.mergeMember config report) reports

lemma KeepsSelf.mergeMembers (hkeyed : s.Keyed) {reports : List Report}
    (h : AlongReports config (RepeatsSelf config) s reports) :
    KeepsSelf config s (s.mergeMembers config reports) := by
  induction reports generalizing s with
  | nil => exact .of_members rfl
  | cons report reports ih =>
    exact (KeepsSelf.mergeMember hkeyed h.1).trans (ih (hkeyed.mergeMember report) h.2)

lemma KeepsSelf.fileSender (sender : NodeAddress) :
    KeepsSelf config s (s.fileSender config sender) := by
  rcases fileSender_cases config s sender with ⟨counts, heq⟩ | ⟨hnone, member, rfl, -, -, heq⟩
  · exact .of_members (heq ▸ rfl)
  · intro me hme
    -- The node has an entry, so it is not filed again.
    have hne : addrKey member ≠ config.selfAddress.toString := fun hkey => by
      rw [get?, ← addrKey, hkey] at hnone
      cases hnone.symm.trans hme.entry
    refine KeepsSelf.of_entry ?_ me hme
    rw [heq, get?_emit, get?_setMember_of_ne hne]

lemma kept_up (h : awaitsPromotion me = true) : Kept config me (me.withStatus .up) :=
  ⟨rfl, .inr ⟨h, rfl⟩, by simp [Member.withStatus], fun _ => rfl, rfl, .inl rfl, .inl rfl⟩

lemma KeepsSelf.promoted {key : JsString} (hkeyed : s.Keyed)
    (hget : s.members.get? key = some member) (hawaits : awaitsPromotion member = true) :
    KeepsSelf config s (s.updateMember config (member.withStatus .up)) := by
  by_cases hself : addrKey member = config.selfAddress.toString
  · intro me hme
    have heq : member = me := by
      have hentry := hme.entry
      rw [get?, ← hself, hkeyed key member hget, hget] at hentry
      exact some.inj hentry
    subst heq
    have hkept : Kept config member (member.withStatus .up) := kept_up hawaits
    exact ⟨_, hme.set (members_updateMember _) hkept, hkept⟩
  · exact .of_entry (get?_updateMember_of_ne hself)

lemma promotable_keepsSelf (s : Membership) :
    Promotable config fun t => t.Keyed ∧ KeepsSelf config s t where
  keyed _ h := h.1
  held _ _ h := ⟨h.1.of_members rfl, h.2.trans (.of_members rfl)⟩
  promoted _ _ _ h hget hawaits := ⟨h.1.updateMember _, h.2.trans (.promoted h.1 hget hawaits)⟩

/-- A gossip or `leave` frame on the connection of somebody else. -/
def Input.IsFromPeer (config : MembershipConfig) : Input → Prop
  | .gossip _ peer _ | .leave _ peer _ => peer.equals config.selfAddress = false
  | _ => False

/-- The frame leaves the node's record to the node: its records repeat what the node says of
itself, and who leaves does not print like the node. -/
def LeavesSelf (config : MembershipConfig) (s : Membership) : Input → Prop
  | .gossip now peer message =>
    s.admitsGossipSequence config now peer message.sequence = true →
      AlongReports config (RepeatsSelf config) s (s.reportsOf now peer message)
  | .leave _ peer node =>
    node.equals peer = true → node.toString = config.selfAddress.toString →
      node.equals config.selfAddress = true
  | _ => True

lemma KeepsSelf.onGossip (hkeyed : s.Keyed) {now : ℚ} {peer : NodeAddress}
    {message : GossipMessage} (h : LeavesSelf config s (.gossip now peer message)) :
    (s.onGossip config now peer message).Keyed ∧
      KeepsSelf config s (s.onGossip config now peer message) := by
  unfold Membership.onGossip
  split
  · rename_i hadmits
    have hmerged := KeepsSelf.mergeMembers hkeyed (h hadmits)
    have hfiled := hmerged.trans (.fileSender message.sender)
    have hremembered := hfiled.trans
      (.of_members (members_rememberGossipSequence peer message.sequence))
    refine (promotable_keepsSelf s).leaderActionsTick ⟨?_, hremembered⟩
    exact ((hkeyed.mergeMembers _).fileSender _).of_members (members_rememberGossipSequence _ _)
  · exact ⟨hkeyed.of_members rfl, .of_members rfl⟩

lemma KeepsSelf.onLeave (hkeyed : s.Keyed) {now : ℚ} {peer node : NodeAddress}
    (hpeer : peer.equals config.selfAddress = false)
    (h : LeavesSelf config s (.leave now peer node)) :
    KeepsSelf config s (s.onLeave config now peer node) := by
  unfold Membership.onLeave
  split
  · exact .of_members rfl
  · rename_i hequals
    have hequals' : node.equals peer = true := by simpa using hequals
    have hne : node.toString ≠ config.selfAddress.toString := by
      intro hkey
      have hself := h hequals' hkey
      rw [NodeAddress.equals_congr_left hequals', hpeer] at hself
      cases hself
    split
    · exact .of_members rfl
    · rename_i existing hget
      refine .of_entry ?_
      simp only [get?_maybeEmitLeaderChange, get?_emit]
      refine get?_setMember_of_ne fun heq => hne ?_
      rw [← heq, ← hkeyed _ _ hget]
      rfl

/-- As long as every frame leaves the node's record to the node, it may be promoted, its version
does not fall, and what the node says of itself stays. -/
theorem self_kept (hkeyed : s.Keyed) (hme : SelfRecord config s me) {inputs : List Input}
    (hpeers : ∀ input ∈ inputs, input.IsFromPeer config)
    (h : Along config (LeavesSelf config) s inputs) :
    ∃ me', SelfRecord config (s.run config inputs) me' ∧ Kept config me me' := by
  induction inputs generalizing s me with
  | nil => exact ⟨me, hme, .refl config me⟩
  | cons input inputs ih =>
    have hstep : (s.step config input).Keyed ∧ KeepsSelf config s (s.step config input) := by
      cases input with
      | gossip now peer message => exact KeepsSelf.onGossip hkeyed h.1
      | leave now peer node =>
        exact ⟨hkeyed.onLeave now peer node, .onLeave hkeyed (hpeers _ mem_cons_self) h.1⟩
      | heartbeat | failureDetection | downing | down | leaderActions | selfElection
      | weaklyUp | prune => exact (hpeers _ mem_cons_self).elim
    obtain ⟨me', hme', hkept⟩ := hstep.2 me hme
    obtain ⟨me'', hme'', hkept'⟩ := ih hstep.1 hme'
      (fun i hi => hpeers i (mem_cons_of_mem _ hi)) h.2
    exact ⟨me'', hme'', hkept.trans hkept'⟩

def workerConfig : MembershipConfig where
  selfAddress := ⟨"app", "self", 2552, some "run"⟩
  maxVersionSkewMs := 1000
  maxMembers := 10
  maxTombstones := 10
  tombstoneTtlMs := 1000
  locale := Downing.codeUnitCompare
  minimumMembersBeforeUp := 3

/-- The node as it joins, with one role. -/
def worker : Member :=
  { address := workerConfig.selfAddress, status := .joining, version := 0,
    roles := ["worker"] }

/-- A peer's frame that promotes the node and gives it these roles. -/
def promotion (roles : List JsString) : Input :=
  .gossip 0 ⟨"app", "leader", 2552, none⟩
    { sender := ⟨"app", "leader", 2552, none⟩, sequence := 1,
      members := [{ worker with status := .up, version := 1, roles := roles }] }

lemma selfRecord_worker :
    SelfRecord workerConfig (start workerConfig 0 ["worker"]) worker :=
  ⟨rfl, rfl, rfl⟩

lemma isFromPeer_promotion (roles : List JsString) :
    (promotion roles).IsFromPeer workerConfig := by
  change NodeAddress.equals ⟨"app", "leader", 2552, none⟩ _ = false
  decide

lemma keyed_start (now : ℚ) (roles : List JsString) : (start config now roles).Keyed :=
  (keyed_empty.setMember _).of_members rfl

/-- The promotion with the node's own role is stored as the node's record. -/
theorem self_kept_worker :
    ∃ me', SelfRecord workerConfig ((start workerConfig 0 ["worker"]).run workerConfig
      [promotion ["worker"]]) me' ∧ Kept workerConfig worker me' := by
  refine self_kept (keyed_start _ _) selfRecord_worker ?_ ⟨fun _ => ⟨?_, trivial⟩, trivial⟩
  · intro input hinput
    rw [mem_singleton.1 hinput]
    exact isFromPeer_promotion _
  · have hown : ∀ me, (start workerConfig 0 ["worker"]).get? workerConfig.selfAddress =
        some me → worker = me := fun me hme =>
      some.inj (selfRecord_worker.entry.symm.trans hme)
    exact ⟨fun _ _ => by decide, fun me hme _ role => hown me hme ▸ rfl,
      fun me hme _ _ => hown me hme ▸ rfl, fun me hme _ _ => hown me hme ▸ rfl⟩

/-- The promotion with another role takes the node's own away. -/
theorem not_self_kept_worker :
    SelfRecord workerConfig (start workerConfig 0 ["worker"]) worker ∧
      (promotion ["intruder"]).IsFromPeer workerConfig ∧
      ¬ ∃ me', SelfRecord workerConfig ((start workerConfig 0 ["worker"]).run workerConfig
        [promotion ["intruder"]]) me' ∧ Kept workerConfig worker me' := by
  refine ⟨selfRecord_worker, isFromPeer_promotion _, ?_⟩
  rintro ⟨me', hme', hkept⟩
  have hroles : (((start workerConfig 0 ["worker"]).run workerConfig
      [promotion ["intruder"]]).get? workerConfig.selfAddress).any
        (Member.hasRole · "worker") = false := by
    decide +kernel
  rw [hme'.entry, any_some, hkept.roles] at hroles
  revert hroles
  decide

end ActorTs.Cluster.Membership
