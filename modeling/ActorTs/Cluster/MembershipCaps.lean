import ActorTs.Cluster.MembershipMerge

/-!
# How many members peers can make a node hold

Live members and tombstones are two buckets with a cap each. A record that stays in its
bucket takes the place of the entry it is about; one that changes it, or that makes a new
entry, is only let in below the cap. So gossip and heartbeats keep both caps.

A `leave` frame makes a tombstone of the entry of its peer whatever the cap. So the tombstones may
exceed their cap by the frames that retired a live member, and by no more.
-/

open Option OrderedMap Nat

namespace ActorTs.Cluster.Membership

variable {config : MembershipConfig} {s t : Membership} {leaves : ℕ} {existing incoming : Member}

/-- The entries that are tombstones, or the others. -/
def bucket (s : Membership) (tombstone : Bool) : ℕ :=
  (s.members.keysWhere fun m => isTombstone m == tombstone).length

lemma bucket_add (s : Membership) : s.bucket true + s.bucket false = s.members.size := by
  have h := s.members.length_keysWhere_add_not isTombstone
  simpa [bucket] using h

lemma bucket_setMember (s : Membership) (member : Member) (tombstone : Bool) :
    (s.setMember member).bucket tombstone +
        (if (s.get? member.address).any (fun m => isTombstone m == tombstone) then 1 else 0) =
      s.bucket tombstone + (if isTombstone member == tombstone then 1 else 0) :=
  length_keysWhere_set _ _ _ _

lemma bucket_deleteMember (s : Membership) (key : JsString) (tombstone : Bool) :
    (s.deleteMember key).bucket tombstone +
        (if (s.members.get? key).any (fun m => isTombstone m == tombstone) then 1 else 0) =
      s.bucket tombstone := by
  unfold deleteMember
  split
  · rename_i hnone
    rw [hnone]
    rfl
  · exact length_keysWhere_delete _ _ _

def Counted (s : Membership) : Prop := s.tombstoneCount = s.bucket true

lemma Counted.setMember (h : s.Counted) (member : Member) : (s.setMember member).Counted := by
  have hbucket := bucket_setMember s member true
  unfold Counted at h ⊢
  change s.tombstoneCount - (if (s.get? member.address).any isTombstone then 1 else 0) +
    (if isTombstone member then 1 else 0) = _
  simp only [beq_true] at hbucket
  split_ifs at hbucket ⊢ <;> omega

lemma Counted.deleteMember (h : s.Counted) (key : JsString) : (s.deleteMember key).Counted := by
  have hbucket := bucket_deleteMember s key true
  unfold Counted at h ⊢
  simp only [beq_true] at hbucket
  unfold Membership.deleteMember at hbucket ⊢
  split at hbucket
  · exact h
  · rename_i previous hget
    rw [hget, any_some] at hbucket
    simp only
    split_ifs at hbucket ⊢ <;> omega

/-- The caps hold, with this many tombstones of `leave` frames beyond them. -/
structure Within (config : MembershipConfig) (leaves : ℕ) (s : Membership) : Prop where
  keyed : s.Keyed
  counted : s.Counted
  live_le : s.bucket false ≤ config.maxMembers
  removed_le : s.bucket true ≤ config.maxTombstones + leaves

namespace Within

section

variable (h : Within config leaves s)
include h

lemma of_table (hmembers : t.members = s.members)
    (hcount : t.tombstoneCount = s.tombstoneCount) : Within config leaves t := by
  have hbucket : ∀ tombstone, t.bucket tombstone = s.bucket tombstone := by
    intro tombstone
    rw [bucket, bucket, hmembers]
  refine ⟨h.keyed.of_members hmembers, ?_, ?_, ?_⟩
  · rw [Counted, hbucket, hcount]
    exact h.counted
  · rw [hbucket]
    exact h.live_le
  · rw [hbucket]
    exact h.removed_le

lemma setMember_same {held member : Member} (hget : s.get? member.address = some held)
    (hsame : isTombstone held = isTombstone member) :
    Within config leaves (s.setMember member) := by
  have hbucket : ∀ tombstone, (s.setMember member).bucket tombstone = s.bucket tombstone := by
    intro tombstone
    have heq := bucket_setMember s member tombstone
    rw [hget, any_some, hsame] at heq
    omega
  refine ⟨h.keyed.setMember member, h.counted.setMember member, ?_, ?_⟩
  · rw [hbucket]
    exact h.live_le
  · rw [hbucket]
    exact h.removed_le

lemma overlays {key : JsString} (hoverlays : Overlays key s t) : Within config leaves t := by
  induction hoverlays with
  | refl => exact h
  | restate _ hget hkey hrestates ih =>
    refine ih.setMember_same (hkey.symm ▸ hget) ?_
    rw [isTombstone, isTombstone, hrestates.status]

lemma replaceIncarnation (hget : s.get? incoming.address = some existing)
    (hlive : existing.status ≠ .removed) (hincoming : incoming.status ≠ .removed) :
    Within config leaves (s.replaceIncarnation config existing incoming) := by
  have hkey : addrKey existing = addrKey incoming := h.keyed _ _ hget
  have hheld : s.get? (existing.withStatus .down).address = some existing :=
    h.keyed.get?_address hget
  have hdowned : Within config leaves (s.updateMember config (existing.withStatus .down)) :=
    (h.setMember_same hheld (by simp [isTombstone, hlive])).of_table (members_updateMember _)
      (tombstoneCount_updateMember _)
  have hentry : (s.updateMember config (existing.withStatus .down)).members.get?
      (addrKey existing) = some (existing.withStatus .down) := by
    rw [members_updateMember]
    exact get?_set_self _ _ _
  unfold Membership.replaceIncarnation
  simp only
  generalize s.updateMember config (existing.withStatus .down) = downed at hdowned hentry ⊢
  have hgone : (downed.deleteMember (addrKey existing)).get? incoming.address = none := by
    change (downed.deleteMember (addrKey existing)).members.get? (addrKey incoming) = none
    rw [get?_deleteMember, if_pos hkey]
  have hbucket := bucket_deleteMember downed (addrKey existing)
  have hadded := bucket_setMember (downed.deleteMember (addrKey existing)) incoming
  have hstored : Within config leaves
      ((downed.deleteMember (addrKey existing)).setMember incoming) := by
    refine ⟨(hdowned.keyed.deleteMember _).setMember _,
      (hdowned.counted.deleteMember _).setMember _, ?_, ?_⟩
    · have hle := hdowned.live_le
      have hout := hbucket false
      have hin := hadded false
      simp only [hentry, hgone, any_some, any_none, isTombstone,
        Member.status_withStatus, hincoming] at hout hin
      simp at hout hin
      omega
    · have hle := hdowned.removed_le
      have hout := hbucket true
      have hin := hadded true
      simp only [hentry, hgone, any_some, any_none, isTombstone,
        Member.status_withStatus, hincoming] at hout hin
      simp at hout hin
      omega
  exact hstored.of_table (by rw [members_admitFirstSighting]; rfl)
    (by rw [tombstoneCount_admitFirstSighting]; rfl)

lemma updateMember_same {held next : Member} (hget : s.get? next.address = some held)
    (hsame : isTombstone held = isTombstone next) :
    Within config leaves (s.updateMember config next) :=
  (h.setMember_same hget hsame).of_table (members_updateMember _) (tombstoneCount_updateMember _)

end

lemma isTombstone_of_awaitsPromotion {member : Member} (h : awaitsPromotion member = true) :
    isTombstone member = false := by
  rw [awaitsPromotion, decide_eq_true_eq] at h
  rcases h with h | h <;> rw [isTombstone, h] <;> rfl

lemma promotable : Promotable config (Within config leaves) where
  keyed _ h := h.keyed
  held _ _ h := h.of_table rfl rfl
  promoted _ _ _ h hget hawaits := by
    have hheld := h.keyed.get?_address hget
    refine h.updateMember_same hheld ?_
    rw [isTombstone_of_awaitsPromotion hawaits]
    rfl

section Capped

variable (hmembers : config.maxMembers ≠ 0) (htombstones : config.maxTombstones ≠ 0)
include hmembers htombstones

section

variable (h : Within config leaves s)
include h

lemma setMember_room {member : Member} (hroom : HasRoom config s member (s.get? member.address)) :
    Within config leaves (s.setMember member) := by
  have hsize := s.bucket_add
  have hcounted : s.tombstoneCount = s.bucket true := h.counted
  rcases hasRoom_cases hroom with ⟨held, hget, hsame⟩ | ⟨htombstone, hcap⟩ | ⟨hlive, hcap⟩
  · exact h.setMember_same hget hsame
  · have hbelow : s.bucket true < config.maxTombstones := by
      have := hcap.resolve_left htombstones
      omega
    refine ⟨h.keyed.setMember member, h.counted.setMember member, ?_, ?_⟩
    · have heq := bucket_setMember s member false
      have hle := h.live_le
      simp only [htombstone] at heq
      simp at heq
      omega
    · have heq := bucket_setMember s member true
      simp only [htombstone, beq_self_eq_true, if_true] at heq
      omega
  · have hbelow : s.bucket false < config.maxMembers := by
      have := hcap.resolve_left hmembers
      omega
    refine ⟨h.keyed.setMember member, h.counted.setMember member, ?_, ?_⟩
    · have heq := bucket_setMember s member false
      simp only [hlive, beq_self_eq_true, if_true] at heq
      omega
    · have heq := bucket_setMember s member true
      have hle := h.removed_le
      simp only [hlive] at heq
      simp at heq
      omega

lemma replaceMember (hget : s.get? incoming.address = some existing)
    (hlive : existing.status ≠ .removed) (hroom : HasRoom config s incoming (some existing)) :
    Within config leaves (s.replaceMember config existing incoming) := by
  unfold Membership.replaceMember
  split
  · rename_i hrestart
    refine h.replaceIncarnation hget hlive fun hremoved => ?_
    rw [isRestartOf, if_pos (.inr hremoved)] at hrestart
    cases hrestart
  · exact (h.setMember_room hmembers htombstones (hget ▸ hroom)).of_table
      (members_emitStatusTransition _ _) (tombstoneCount_emitStatusTransition _ _)

lemma mergeMember (report : Report) : Within config leaves (s.mergeMember config report) := by
  have hmerge := merge_mergeMember config s report
  generalize s.mergeMember config report = t at hmerge
  cases hmerge with
  | refused counts => exact h.of_table rfl rfl
  | overlaid _ _ hentry _ =>
    exact h.overlays (overlays_adoptOverlays h.keyed hentry report.sender)
  | filed _ _ _ hroom =>
    exact (h.setMember_room hmembers htombstones hroom).of_table
      (members_admitFirstSighting _) (tombstoneCount_admitFirstSighting _)
  | replaced _ _ _ hentry hlive _ hroom =>
    exact h.replaceMember hmembers htombstones hentry hlive hroom

lemma fileSender (sender : NodeAddress) : Within config leaves (s.fileSender config sender) := by
  rcases fileSender_cases config s sender with ⟨counts, heq⟩ | ⟨hnone, member, rfl, -, hroom, heq⟩
  · rw [heq]
    exact h.of_table rfl rfl
  · rw [heq]
    exact (h.setMember_room hmembers htombstones (hnone ▸ hroom)).of_table rfl rfl

lemma onGossip (now : ℚ) (peer : NodeAddress)
    (message : GossipMessage) : Within config leaves (s.onGossip config now peer message) := by
  unfold Membership.onGossip
  split
  · have hmerged : Within config leaves (s.mergeMembers config (s.reportsOf now peer message)) :=
      List.foldlRecOn _ _ h fun _ ih report _ => ih.mergeMember hmembers htombstones report
    have hfiled := hmerged.fileSender hmembers htombstones message.sender
    refine promotable.leaderActionsTick (hfiled.of_table (members_rememberGossipSequence _ _) ?_)
    unfold rememberGossipSequence
    split <;> rfl
  · exact h.of_table rfl rfl

end

end Capped

lemma onHeartbeat (h : Within config leaves s) (now : ℚ) (peer : NodeAddress)
    (message : HeartbeatMessage) :
    Within config leaves (s.onHeartbeat config now peer message) := by
  unfold Membership.onHeartbeat
  split
  · exact h
  · split
    · exact h
    · rename_i existing hget
      split
      · rename_i hunreachable
        have hup : Within config leaves (s.updateMember config (existing.withStatus .up)) := by
          have hheld := h.keyed.get?_address hget
          refine h.updateMember_same hheld ?_
          rw [isTombstone, isTombstone, hunreachable]
          rfl
        simp only
        split
        · split
          · exact hup.of_table rfl rfl
          · exact hup
        · exact hup
      · exact h

end Within

/-- The inputs that peers send. -/
def Input.IsFrame : Input → Prop
  | .gossip _ _ _ | .heartbeat _ _ _ | .leave _ _ _ => True
  | _ => False

/-- Whether the input is a `leave` frame that retires a live member. -/
def retires (s : Membership) : Input → ℕ
  | .leave _ peer node =>
    if node.equals peer && (s.get? node).any fun m => !isTombstone m then 1 else 0
  | _ => 0

/-- How many of the inputs retire a live member, in the state each of them meets. -/
def retirements (config : MembershipConfig) : Membership → List Input → ℕ
  | _, [] => 0
  | s, input :: inputs => s.retires input + retirements config (s.step config input) inputs

lemma Within.onLeave (h : Within config leaves s) (now : ℚ) (peer node : NodeAddress) :
    Within config (leaves + s.retires (.leave now peer node)) (s.onLeave config now peer node) := by
  change Within config (leaves +
    if node.equals peer && (s.get? node).any fun m => !isTombstone m then 1 else 0) _
  unfold Membership.onLeave
  cases hequals : node.equals peer with
  | false => exact h
  | true =>
    rw [Bool.not_true, if_neg Bool.false_ne_true, Bool.true_and]
    cases hget : s.get? node with
    | none => exact h
    | some existing =>
      rw [any_some]
      simp only
      have hheld := h.keyed.get?_address hget
      generalize hremoved : (existing.withStatus .leaving).withRemoved now = removed
      have haddress : removed.address = existing.address := hremoved ▸ rfl
      have htombstone : isTombstone removed = true := hremoved ▸ rfl
      rw [← haddress] at hheld
      suffices hset : Within config (leaves + if (!isTombstone existing) = true then 1 else 0)
          (s.setMember removed) from
        hset.of_table members_maybeEmitLeaderChange tombstoneCount_maybeEmitLeaderChange
      cases hlive : isTombstone existing with
      | true => exact h.setMember_same hheld (hlive.trans htombstone.symm)
      | false =>
        have hbucket := bucket_setMember s removed
        refine ⟨h.keyed.setMember _, h.counted.setMember _, ?_, ?_⟩
        · have hle := h.live_le
          have heq := hbucket false
          simp only [hheld, any_some, hlive, htombstone] at heq
          simp at heq
          omega
        · have hle := h.removed_le
          have heq := hbucket true
          simp only [hheld, any_some, hlive, htombstone] at heq
          simp at heq ⊢
          omega

lemma Within.step (hmembers : config.maxMembers ≠ 0) (htombstones : config.maxTombstones ≠ 0)
    (h : Within config leaves s) {input : Input} (hframe : input.IsFrame) :
    Within config (leaves + s.retires input) (s.step config input) := by
  cases input with
  | gossip now peer message => exact h.onGossip hmembers htombstones now peer message
  | heartbeat now peer message => exact h.onHeartbeat now peer message
  | leave now peer node => exact h.onLeave now peer node
  | failureDetection | downing | down | leaderActions | selfElection | weaklyUp | prune =>
    exact hframe.elim

lemma Within.run (hmembers : config.maxMembers ≠ 0) (htombstones : config.maxTombstones ≠ 0)
    {inputs : List Input} (hframes : ∀ input ∈ inputs, input.IsFrame)
    (h : Within config leaves s) :
    Within config (leaves + retirements config s inputs) (s.run config inputs) := by
  induction inputs generalizing s leaves with
  | nil => exact h
  | cons input inputs ih =>
    have hstep := h.step hmembers htombstones (hframes input List.mem_cons_self)
    have hrest := ih (fun i hi => hframes i (List.mem_cons_of_mem _ hi)) hstep
    rw [retirements, ← add_assoc]
    exact hrest

/-- Whatever frames peers send, the tombstones are counted, the live members keep their cap,
and the tombstones exceed theirs by no more than the frames that retired a live member. -/
theorem caps_of_frames (hmembers : config.maxMembers ≠ 0) (htombstones : config.maxTombstones ≠ 0)
    (h : Within config 0 s) {inputs : List Input} (hframes : ∀ input ∈ inputs, input.IsFrame) :
    (s.run config inputs).tombstoneCount = (s.run config inputs).bucket true ∧
      (s.run config inputs).bucket false ≤ config.maxMembers ∧
      (s.run config inputs).bucket true ≤ config.maxTombstones + retirements config s inputs ∧
      (s.run config inputs).members.size ≤
        config.maxMembers + config.maxTombstones + retirements config s inputs := by
  have hrun := h.run hmembers htombstones hframes
  have hlive := hrun.live_le
  have hremoved := hrun.removed_le
  have hsize := (s.run config inputs).bucket_add
  rw [zero_add] at hremoved
  exact ⟨hrun.counted, hlive, hremoved, by omega⟩

/-- One place for a tombstone, three for live members. -/
def cappedConfig : MembershipConfig where
  selfAddress := ⟨"app", "self", 2552, none⟩
  maxVersionSkewMs := 1000
  maxMembers := 3
  maxTombstones := 1
  tombstoneTtlMs := 1000
  locale := Downing.codeUnitCompare

def leaver (port : ℕ) : NodeAddress := ⟨"app", "peer", port, none⟩

/-- The node and two peers that are joining. -/
def threeMembers : Membership :=
  ((start cappedConfig 0 []).setMember
    { address := leaver 1, status := .joining, version := 1 }).setMember
    { address := leaver 2, status := .joining, version := 1 }

def twoLeaves : List Input :=
  [.leave 1 (leaver 1) (leaver 1), .leave 2 (leaver 2) (leaver 2)]

lemma within_threeMembers : Within cappedConfig 0 threeMembers where
  keyed := ((keyed_empty.setMember _).of_members rfl).setMember _ |>.setMember _
  counted := ((show ({} : Membership).Counted from rfl).setMember _).setMember _ |>.setMember _
  live_le := by decide +kernel
  removed_le := by decide +kernel

/-- With caps that hold, two frames of peers that leave. -/
theorem caps_of_twoLeaves :
    cappedConfig.maxMembers ≠ 0 ∧ cappedConfig.maxTombstones ≠ 0 ∧
      (∀ input ∈ twoLeaves, input.IsFrame) ∧
      (threeMembers.run cappedConfig twoLeaves).bucket true ≤
        cappedConfig.maxTombstones + retirements cappedConfig threeMembers twoLeaves := by
  have hframes : ∀ input ∈ twoLeaves, input.IsFrame := by
    simp [twoLeaves, Input.IsFrame]
  have hcaps := caps_of_frames (by decide) (by decide) within_threeMembers hframes
  exact ⟨by decide, by decide, hframes, hcaps.2.2.1⟩

/-- The caps held, and two frames later there is a tombstone more than may be. -/
theorem not_capped_of_twoLeaves :
    cappedConfig.maxMembers ≠ 0 ∧ cappedConfig.maxTombstones ≠ 0 ∧
      Within cappedConfig 0 threeMembers ∧ (∀ input ∈ twoLeaves, input.IsFrame) ∧
      ¬ (threeMembers.run cappedConfig twoLeaves).bucket true ≤ cappedConfig.maxTombstones := by
  refine ⟨by decide, by decide, within_threeMembers, by simp [twoLeaves, Input.IsFrame], ?_⟩
  decide +kernel

end ActorTs.Cluster.Membership
