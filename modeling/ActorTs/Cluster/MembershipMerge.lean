import ActorTs.Cluster.MembershipOrder
import ActorTs.Cluster.MembershipSteps

/-!
# What a merge comes to

Whatever a record says, `mergeMember` does one of four things with it. It refuses it, or takes no
more than what the member says of itself, or files it for an address without a live entry, or puts
it in the place of a live entry.
-/

open Option OrderedMap Bool List

namespace ActorTs.Cluster.Membership

variable {config : MembershipConfig} {s t : Membership}

/-! ### Events leave the table as it is -/

variable (event : ClusterEvent)

@[simp] lemma members_emit : (s.emit event).members = s.members := rfl

lemma foldl_emit (events : List ClusterEvent) :
    events.foldl emit s = { s with events := s.events ++ events } := by
  induction events generalizing s with
  | nil => simp
  | cons event events ih =>
    rw [foldl_cons, ih]
    simp [emit]

@[simp] lemma members_maybeEmitLeaderChange :
    (s.maybeEmitLeaderChange config).members = s.members := by
  unfold maybeEmitLeaderChange
  simp only
  split
  · rfl
  · rfl

@[simp] lemma tombstoneCount_maybeEmitLeaderChange :
    (s.maybeEmitLeaderChange config).tombstoneCount = s.tombstoneCount := by
  unfold maybeEmitLeaderChange
  simp only
  split
  · rfl
  · rfl

@[simp] lemma members_emitStatusTransition (prev next : Member) :
    (s.emitStatusTransition config prev next).members = s.members := by
  unfold emitStatusTransition
  split
  · rfl
  · rw [members_maybeEmitLeaderChange, foldl_emit]

@[simp] lemma tombstoneCount_emitStatusTransition (prev next : Member) :
    (s.emitStatusTransition config prev next).tombstoneCount = s.tombstoneCount := by
  unfold emitStatusTransition
  split
  · rfl
  · rw [tombstoneCount_maybeEmitLeaderChange, foldl_emit]

@[simp] lemma members_updateMember (next : Member) :
    (s.updateMember config next).members = (s.setMember next).members := by
  unfold updateMember
  split
  · exact members_emitStatusTransition _ _
  · rfl

@[simp] lemma tombstoneCount_updateMember (next : Member) :
    (s.updateMember config next).tombstoneCount = (s.setMember next).tombstoneCount := by
  unfold updateMember
  split
  · exact tombstoneCount_emitStatusTransition _ _
  · rfl

variable (incoming : Member)

@[simp] lemma members_admitFirstSighting :
    (s.admitFirstSighting config incoming).members = (s.setMember incoming).members := by
  unfold admitFirstSighting
  split
  · rfl
  · exact members_emitStatusTransition _ _

@[simp] lemma tombstoneCount_admitFirstSighting :
    (s.admitFirstSighting config incoming).tombstoneCount =
      (s.setMember incoming).tombstoneCount := by
  unfold admitFirstSighting
  split
  · rfl
  · exact tombstoneCount_emitStatusTransition _ _

/-! ### Checks -/

/-- A check lets the state through, or refuses and counts. -/
def Checks (s : Membership) (result : Membership × Bool) : Prop :=
  result = (s, true) ∨ ∃ counts, result = ({ s with refusalCounts := counts }, false)

variable (config) (s)

lemma checks_maySpeakFor (sender : NodeAddress)
    (senderStatus : Option MemberStatus) (subject : NodeAddress) (status : MemberStatus) :
    Checks s (s.maySpeakFor config sender senderStatus subject status) := by
  unfold maySpeakFor Checks
  split_ifs
  · exact .inl rfl
  · exact .inr ⟨_, rfl⟩
  · exact .inr ⟨s.refusalCounts, rfl⟩
  · cases subject.equals sender || hasStanding senderStatus with
    | true => exact .inl rfl
    | false => exact .inr ⟨s.refusalCounts, rfl⟩

lemma checks_admitsVersion (now : ℚ) (incoming : Member) :
    Checks s (s.admitsVersion config now incoming) := by
  unfold admitsVersion
  split_ifs
  · exact .inl rfl
  · exact .inr ⟨_, rfl⟩

lemma checks_admitsTombstone (now : ℚ) (incoming : Member) :
    Checks s (s.admitsTombstone config now incoming) := by
  unfold admitsTombstone
  split
  · split_ifs
    · exact .inr ⟨_, rfl⟩
    · rename_i removedAt _ _ _
      cases decide (now - removedAt < config.tombstoneTtlMs) with
      | true => exact .inl rfl
      | false => exact .inr ⟨s.refusalCounts, rfl⟩
  · exact .inl rfl

lemma checks_admitsMember (existing : Option Member) :
    Checks s (s.admitsMember config incoming existing) := by
  unfold admitsMember Checks
  simp only
  generalize (if isTombstone incoming = true then config.maxTombstones else config.maxMembers) = cap
  generalize (if isTombstone incoming = true then s.tombstoneCount
    else s.members.size - s.tombstoneCount) = held
  split_ifs
  · exact .inl rfl
  · exact .inl rfl
  · exact .inl rfl
  · exact .inr ⟨_, rfl⟩

variable {s} {config}

/-- There is room for the record in the bucket it moves to. -/
def HasRoom (config : MembershipConfig) (s : Membership) (incoming : Member)
    (existing : Option Member) : Prop :=
  s.admitsMember config incoming existing = (s, true)

variable {incoming : Member}

lemma hasRoom_cases {existing : Option Member} (h : HasRoom config s incoming existing) :
    (∃ held, existing = some held ∧ isTombstone held = isTombstone incoming) ∨
      (isTombstone incoming = true ∧
        (config.maxTombstones = 0 ∨ s.tombstoneCount < config.maxTombstones)) ∨
      (isTombstone incoming = false ∧
        (config.maxMembers = 0 ∨ s.members.size - s.tombstoneCount < config.maxMembers)) := by
  unfold HasRoom admitsMember at h
  simp only at h
  split at h
  · rename_i hsame
    obtain ⟨held, rfl, heq⟩ := (any_eq_true _ _).1 hsame
    exact .inl ⟨held, rfl, eq_of_beq heq⟩
  · right
    cases htombstone : isTombstone incoming with
    | true =>
      split_ifs at h with hcap hheld
      · exact .inl ⟨rfl, .inl hcap⟩
      · exact .inl ⟨rfl, .inr hheld⟩
      · cases (Prod.mk.inj h).2
    | false =>
      rw [htombstone, if_neg Bool.false_ne_true, if_neg Bool.false_ne_true] at h
      split_ifs at h with hcap hheld
      · exact .inr ⟨rfl, .inl hcap⟩
      · exact .inr ⟨rfl, .inr hheld⟩
      · cases (Prod.mk.inj h).2

/-! ### What a record comes to -/

/-- What only the member itself says is taken over from a record. -/
def adoptOverlays (s : Membership) (config : MembershipConfig) (sender : NodeAddress)
    (existing incoming : Member) : Membership :=
  ((s.adoptStorageIdentities config existing incoming).adoptConfigurationFacts config sender
    existing incoming).adoptAppVersion config sender existing incoming

/-- What a merge comes to. -/
inductive Merge (config : MembershipConfig) (s : Membership) (report : Report) :
    Membership → Prop where
  | refused (counts : GossipRefusalCounts) :
      Merge config s report { s with refusalCounts := counts }
  | overlaid {existing incoming : Member}
      (hincoming : incoming = withLocalSelfIdentity config report.record)
      (hspeaks : (s.maySpeakFor config report.sender report.senderStatus incoming.address
        incoming.status).2 = true)
      (hentry : s.get? incoming.address = some existing)
      (hold : incoming.version ≤ existing.version) :
      Merge config s report (s.adoptOverlays config report.sender existing incoming)
  | filed {incoming : Member}
      (hincoming : incoming = withLocalSelfIdentity config report.record)
      (hspeaks : (s.maySpeakFor config report.sender report.senderStatus incoming.address
        incoming.status).2 = true)
      (hentry : ∀ existing, s.get? incoming.address = some existing → existing.status = .removed)
      (hroom : HasRoom config s incoming (s.get? incoming.address)) :
      Merge config s report (s.admitFirstSighting config incoming)
  | replaced {existing incoming : Member}
      (hincoming : incoming = withLocalSelfIdentity config report.record)
      (hspeaks : (s.maySpeakFor config report.sender report.senderStatus incoming.address
        incoming.status).2 = true)
      (hbelievable : (s.admitsVersion config report.now incoming).2 = true)
      (hentry : s.get? incoming.address = some existing) (hlive : existing.status ≠ .removed)
      (hnews : existing.version < incoming.version ∨
        promotedAtEqualVersion existing incoming = true)
      (hroom : HasRoom config s incoming (some existing)) :
      Merge config s report (s.replaceMember config existing incoming)

lemma merge_mergeAdmitted {report : Report}
    (hincoming : incoming = withLocalSelfIdentity config report.record)
    (hspeaks : (s.maySpeakFor config report.sender report.senderStatus incoming.address
      incoming.status).2 = true)
    (hbelievable : (s.admitsVersion config report.now incoming).2 = true) :
    Merge config s report (s.mergeAdmitted config report.sender incoming) := by
  unfold mergeAdmitted
  cases hentry : s.get? incoming.address with
  | none =>
    rcases checks_admitsMember config s incoming none with
      hroom | ⟨counts, heq⟩
    · simp only [hroom, if_true]
      refine .filed hincoming hspeaks ?_ (hentry ▸ hroom)
      intro existing h
      rw [hentry] at h
      cases h
    · simp only [heq, false_eq_true, if_false]
      exact .refused counts
  | some existing =>
    simp only
    unfold mergeInto
    split
    · rename_i hrevival
      rcases checks_admitsMember config s incoming (some existing) with
        hroom | ⟨counts, heq⟩
      · simp only [hroom, if_true]
        refine .filed hincoming hspeaks ?_ (hentry ▸ hroom)
        intro m h
        rw [hentry, some.injEq] at h
        exact h ▸ hrevival.1
      · simp only [heq, false_eq_true, if_false]
        exact .refused counts
    · rename_i hrevival
      split
      · rename_i hignored
        exact .overlaid hincoming hspeaks hentry hignored.1
      · rename_i hnews
        rcases checks_admitsMember config s incoming (some existing) with
          hroom | ⟨counts, heq⟩
        · simp only [hroom, if_true]
          have hwhy : existing.version < incoming.version ∨
              promotedAtEqualVersion existing incoming = true := by
            rw [not_and_or, not_le, not_eq_false] at hnews
            exact hnews
          refine .replaced hincoming hspeaks hbelievable hentry (fun hremoved => ?_) hwhy hroom
          -- A tombstone is revived by a higher version and is never promoted.
          rcases hwhy with hlt | hpromoted
          · exact hrevival ⟨hremoved, hlt⟩
          · simp [promotedAtEqualVersion, hremoved] at hpromoted
        · simp only [heq, false_eq_true, if_false]
          exact .refused counts

lemma merge_mergeMember (config : MembershipConfig) (s : Membership) (report : Report) :
    Merge config s report (s.mergeMember config report) := by
  unfold mergeMember
  simp only
  rcases checks_maySpeakFor config s report.sender report.senderStatus
      (withLocalSelfIdentity config report.record).address
      (withLocalSelfIdentity config report.record).status with hspeaks | ⟨counts, hrefused⟩
  · rw [hspeaks]
    rcases checks_admitsVersion config s report.now
        (withLocalSelfIdentity config report.record) with hversion | ⟨counts, hrefused⟩
    · rw [hversion]
      rcases checks_admitsTombstone config s report.now
          (withLocalSelfIdentity config report.record) with htombstone | ⟨counts, hrefused⟩
      · rw [htombstone]
        exact merge_mergeAdmitted rfl (by rw [hspeaks]) (by rw [hversion])
      · rw [hrefused]
        exact .refused counts
    · rw [hrefused]
      exact .refused counts
  · rw [hrefused]
    exact .refused counts

/-! ### Every entry is filed under its own address -/

/-- Every entry is filed under the printed address of its member. -/
def Keyed (s : Membership) : Prop :=
  ∀ key member, s.members.get? key = some member → addrKey member = key

lemma Keyed.of_members (h : s.Keyed) (heq : t.members = s.members) : t.Keyed := by
  intro key member
  rw [heq]
  exact h key member

variable {key : JsString}

lemma Keyed.get?_address (h : s.Keyed) {held : Member} (hget : s.members.get? key = some held) :
    s.get? held.address = some held := by
  change s.members.get? (addrKey held) = some held
  rw [h key held hget, hget]

lemma keyed_empty : ({} : Membership).Keyed := by
  intro key member h
  cases h

lemma Keyed.setMember (h : s.Keyed) (member : Member) : (s.setMember member).Keyed := by
  intro key held hget
  rcases get?_set_cases hget with ⟨rfl, rfl⟩ | hget
  · rfl
  · exact h key held hget

lemma get?_deleteMember (key key' : JsString) :
    (s.deleteMember key).members.get? key' = if key = key' then none else s.members.get? key' := by
  unfold deleteMember
  split
  · rename_i hnone
    split
    · rename_i heq
      rw [← heq, hnone]
    · rfl
  · exact get?_delete _ _ _

lemma Keyed.deleteMember (h : s.Keyed) (key : JsString) : (s.deleteMember key).Keyed := by
  intro key' held hget
  rw [get?_deleteMember] at hget
  split at hget
  · cases hget
  · exact h key' held hget

lemma Keyed.updateMember (h : s.Keyed) (next : Member) : (s.updateMember config next).Keyed :=
  (h.setMember next).of_members (members_updateMember next)

lemma Keyed.admitFirstSighting (h : s.Keyed) (incoming : Member) :
    (s.admitFirstSighting config incoming).Keyed :=
  (h.setMember incoming).of_members (members_admitFirstSighting incoming)

lemma Keyed.replaceMember (h : s.Keyed) (existing incoming : Member) :
    (s.replaceMember config existing incoming).Keyed := by
  unfold Membership.replaceMember
  split
  · refine Keyed.admitFirstSighting ?_ incoming
    exact ((h.updateMember _).deleteMember _).of_members rfl
  · exact (h.setMember incoming).of_members (members_emitStatusTransition _ _)

/-! ### What a member says of itself -/

/-- The records differ at most in what the member says of itself. -/
structure Restates (held member : Member) : Prop where
  address : member.address = held.address
  status : member.status = held.status
  version : member.version = held.version
  roles : member.roles = held.roles

lemma Restates.refl (member : Member) : Restates member member := ⟨rfl, rfl, rfl, rfl⟩

lemma Restates.trans {a b c : Member} (hab : Restates a b) (hbc : Restates b c) :
    Restates a c :=
  ⟨hbc.address.trans hab.address, hbc.status.trans hab.status, hbc.version.trans hab.version,
    hbc.roles.trans hab.roles⟩

/-- The entry under the key was restated, any number of times. -/
inductive Overlays (key : JsString) (s : Membership) : Membership → Prop where
  | refl : Overlays key s s
  | restate {t : Membership} {held member : Member} (h : Overlays key s t)
      (hget : t.members.get? key = some held) (hkey : addrKey member = key)
      (hrestates : Restates held member) : Overlays key s (t.setMember member)

variable {existing : Member}

lemma Overlays.entry (h : Overlays key s t) (hget : s.members.get? key = some existing) :
    ∃ held, t.members.get? key = some held ∧ Restates existing held := by
  induction h with
  | refl => exact ⟨existing, hget, .refl existing⟩
  | @restate t held member h hheld hkey hrestates ih =>
    obtain ⟨held', hheld', hrestates'⟩ := ih
    rw [hheld, some.injEq] at hheld'
    subst hheld'
    refine ⟨member, ?_, hrestates'.trans hrestates⟩
    rw [← hkey]
    exact get?_set_self _ _ _

lemma Overlays.keyed (h : Overlays key s t) (hs : s.Keyed) : t.Keyed := by
  induction h with
  | refl => exact hs
  | restate _ _ _ _ ih => exact ih.setMember _

lemma Overlays.adoptStorageIdentities (config : MembershipConfig) (hs : s.Keyed)
    (hget : s.get? incoming.address = some existing) :
    Overlays (addrKey incoming) s (s.adoptStorageIdentities config existing incoming) := by
  unfold Membership.adoptStorageIdentities
  split
  · exact .refl
  · split_ifs
    · exact .refl
    · exact .refl
    · exact .restate .refl hget (hs _ existing hget) ⟨rfl, rfl, rfl, rfl⟩

lemma Overlays.adoptConfigurationFacts {incoming held : Member}
    (h : Overlays (addrKey incoming) s t) (hs : s.Keyed)
    (hget : t.get? incoming.address = some held) (config : MembershipConfig)
    (sender : NodeAddress) (existing : Member) :
    Overlays (addrKey incoming) s (t.adoptConfigurationFacts config sender existing incoming) := by
  have hrestate : ∀ facts, Overlays (addrKey incoming) s
      (t.setMember (held.withConfigurationFacts facts)) := fun facts =>
    .restate h hget (h.keyed hs _ held hget) ⟨rfl, rfl, rfl, rfl⟩
  unfold Membership.adoptConfigurationFacts
  rw [hget]
  split
  · exact h
  · simp only [getD_some]
    split_ifs
    · exact h
    · split
      · exact hrestate _
      · split_ifs
        · exact h
        · exact hrestate _

lemma Overlays.adoptAppVersion {incoming held : Member} (h : Overlays (addrKey incoming) s t)
    (hs : s.Keyed) (hget : t.get? incoming.address = some held) (sender : NodeAddress) :
    Overlays (addrKey incoming) s (t.adoptAppVersion config sender existing incoming) := by
  have hrestate : ∀ appVersion, Overlays (addrKey incoming) s
      (t.setMember (held.withAppVersion appVersion)) := fun appVersion =>
    .restate h hget (h.keyed hs _ held hget) ⟨rfl, rfl, rfl, rfl⟩
  unfold Membership.adoptAppVersion
  rw [hget]
  simp only [getD_some]
  split_ifs
  · exact h
  · exact h
  · exact h
  · exact hrestate _
  · exact h
  · exact h
  · exact hrestate _

lemma overlays_adoptOverlays (hs : s.Keyed) (hget : s.get? incoming.address = some existing)
    (sender : NodeAddress) :
    Overlays (addrKey incoming) s (s.adoptOverlays config sender existing incoming) := by
  have hfirst := Overlays.adoptStorageIdentities config hs hget
  obtain ⟨held, hheld, -⟩ := hfirst.entry hget
  have hsecond := hfirst.adoptConfigurationFacts hs hheld config sender existing
  obtain ⟨held', hheld', -⟩ := hsecond.entry hget
  exact hsecond.adoptAppVersion hs hheld' sender

lemma adoptOverlays_of_self (hself : incoming.address.equals config.selfAddress = true)
    (sender : NodeAddress) : s.adoptOverlays config sender existing incoming = s := by
  have hidentities : s.adoptStorageIdentities config existing incoming = s := by
    unfold adoptStorageIdentities
    split
    · rfl
    · rw [if_pos hself, ite_self]
  have hfacts : s.adoptConfigurationFacts config sender existing incoming = s := by
    unfold adoptConfigurationFacts
    split
    · rfl
    · simp only
      rw [if_pos hself]
  rw [adoptOverlays, hidentities, hfacts]
  unfold adoptAppVersion
  rw [if_pos hself]

lemma Keyed.mergeMember (h : s.Keyed) (report : Report) :
    (s.mergeMember config report).Keyed := by
  have hmerge := merge_mergeMember config s report
  generalize s.mergeMember config report = t at hmerge
  cases hmerge with
  | refused counts => exact h.of_members rfl
  | overlaid _ _ hentry _ => exact (overlays_adoptOverlays h hentry _).keyed h
  | filed _ _ _ _ => exact h.admitFirstSighting _
  | replaced _ _ _ _ _ _ _ => exact h.replaceMember _ _

/-! ### Frames keep the entries where they belong -/

lemma Keyed.mergeMembers (h : s.Keyed) (reports : List Report) :
    (s.mergeMembers config reports).Keyed :=
  foldlRecOn reports _ h fun _ ih report _ => ih.mergeMember report

/-- A sender that has no entry is filed, if there is room. -/
lemma fileSender_cases (config : MembershipConfig) (s : Membership) (sender : NodeAddress) :
    (∃ counts, s.fileSender config sender = { s with refusalCounts := counts }) ∨
      s.get? sender = none ∧ ∃ member : Member, member.address = sender ∧
        member.status = .joining ∧ HasRoom config s member none ∧
        s.fileSender config sender = (s.setMember member).emit (.memberJoined member) := by
  unfold fileSender
  split
  · exact .inl ⟨s.refusalCounts, rfl⟩
  · rename_i hhas
    rw [has, not_eq_true, isSome_eq_false_iff, isNone_iff_eq_none] at hhas
    rcases checks_admitsMember config s
        { address := sender, status := .joining, version := 1 } none with hroom | ⟨counts, heq⟩
    · exact .inr ⟨hhas, _, rfl, rfl, hroom, by simp only [hroom, if_true]⟩
    · exact .inl ⟨counts, by simp only [heq, false_eq_true, if_false]⟩

lemma Keyed.fileSender (h : s.Keyed) (sender : NodeAddress) :
    (s.fileSender config sender).Keyed := by
  rcases fileSender_cases config s sender with ⟨counts, heq⟩ | ⟨-, member, -, -, -, heq⟩
  · exact h.of_members (heq ▸ rfl)
  · exact (h.setMember member).of_members (heq ▸ rfl)

@[simp] lemma members_rememberGossipSequence (peer : NodeAddress) (sequence : ℚ) :
    (s.rememberGossipSequence peer sequence).members = s.members := by
  unfold rememberGossipSequence
  split
  · rfl
  · rfl

lemma get?_promote_of_ne {member : Member} (h : key ≠ addrKey member) :
    (s.promote config member).members.get? key = s.members.get? key := by
  unfold promote
  split
  · rw [members_updateMember]
    exact (get?_set _ _ _ _).trans (if_neg fun heq => h heq.symm)
  · rfl

/-- A property of tables with every entry under its own address, that a held election keeps
and the promotion of an entry. -/
structure Promotable (config : MembershipConfig) (P : Membership → Prop) : Prop where
  keyed : ∀ t, P t → t.Keyed
  held : ∀ t held, P t → P { t with heldSelfElection := held }
  promoted : ∀ t key member, P t → t.members.get? key = some member →
    awaitsPromotion member = true → P (t.updateMember config (member.withStatus .up))

namespace Promotable

variable {P : Membership → Prop}

lemma selfElect (hP : Promotable config P) (h : P s) : P (s.selfElect config) := by
  unfold Membership.selfElect
  split
  · exact h
  · split
    · exact h
    · rename_i me hget
      split_ifs with hawaits
      · exact h
      · exact hP.held s true h
      · exact hP.promoted _ _ me (hP.held s false h) hget (by simpa using hawaits)

lemma leaderActionsTick (hP : Promotable config P) (h : P s) : P (s.leaderActionsTick config) := by
  have hheld : P (s.runHeldSelfElection config) := by
    unfold Membership.runHeldSelfElection
    split
    · exact hP.selfElect (hP.held s false h)
    · exact h
  unfold Membership.leaderActionsTick promoteJoiningMembers
  split_ifs
  · exact hheld
  · exact hheld
  · rw [values, foldl_map]
    refine foldl_entries Membership.members (fun t key member ht hget => ?_) hheld
    refine ⟨?_, fun key' hne => get?_promote_of_ne (hP.keyed t ht key member hget ▸ hne)⟩
    unfold promote
    split
    · rename_i hawaits
      exact hP.promoted t key member ht hget hawaits
    · exact ht
  · exact h

end Promotable

lemma Keyed.onLeave (h : s.Keyed) (now : ℚ) (peer node : NodeAddress) :
    (s.onLeave config now peer node).Keyed := by
  unfold Membership.onLeave
  split
  · exact h
  · split
    · exact h
    · exact (h.setMember _).of_members members_maybeEmitLeaderChange

@[simp] lemma members_trackReachability (member : Member) (decision : FailureDecision) :
    (s.trackReachability member decision).members = s.members := by
  unfold trackReachability
  simp only
  split_ifs <;> rfl

lemma get?_detectFailure_of_ne {verdict : NodeAddress → FailureDecision} {member : Member}
    (h : key ≠ addrKey member) :
    (s.detectFailure config verdict member).members.get? key = s.members.get? key := by
  have hset : ∀ (t : Membership) (status : MemberStatus), t.members = s.members →
      (t.updateMember config (member.withStatus status)).members.get? key = s.members.get? key := by
    intro t status hmembers
    rw [members_updateMember, ← hmembers]
    exact (get?_set _ _ _ _).trans (if_neg fun heq => h heq.symm)
  have htrack : (s.trackReachability member (verdict member.address)).members = s.members :=
    members_trackReachability _ _
  unfold Membership.detectFailure holdForResolver removeDetected
  simp only
  split_ifs
  · rfl
  · exact hset _ _ htrack
  · rw [htrack]
  · exact hset _ _ htrack
  · rw [members_emit, get?_deleteMember, if_neg fun heq => h heq.symm]
    exact hset _ _ htrack
  · rw [htrack]

end ActorTs.Cluster.Membership
