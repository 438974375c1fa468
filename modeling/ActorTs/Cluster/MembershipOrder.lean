import ActorTs.Cluster.Downing.SplitBrain
import ActorTs.Cluster.Membership

/-!
# The order of gossip does not matter

For an address other than the node's own, and records that pass the checks, `mergeMember` keeps one
record: the one with the highest version, and `up` rather than `weakly-up` where the version is the
same. So the stored status and version are the highest of the records given, which depends on the
records and not on their order.
-/

open List Option

namespace ActorTs.Cluster.Membership

variable {config : MembershipConfig} {s : Membership}

/-- The status and version held for an address. -/
def stored (s : Membership) (address : NodeAddress) : Option (MemberStatus × ℚ) :=
  (s.get? address).map fun m => (m.status, m.version)

@[simp] lemma get?_emit (event : ClusterEvent) (address : NodeAddress) :
    (s.emit event).get? address = s.get? address := rfl

lemma get?_setMember (member : Member) (address : NodeAddress) :
    (s.setMember member).get? address =
      if member.address.toString = address.toString then some member else s.get? address :=
  OrderedMap.get?_set _ _ _ _

@[simp] lemma get?_setMember_self (member : Member) :
    (s.setMember member).get? member.address = some member := by
  rw [get?_setMember, if_pos rfl]

@[simp] lemma get?_maybeEmitLeaderChange (address : NodeAddress) :
    (s.maybeEmitLeaderChange config).get? address = s.get? address := by
  unfold maybeEmitLeaderChange
  simp only
  split
  · rfl
  · rfl

@[simp] lemma get?_emitStatusTransition (prev next : Member) (address : NodeAddress) :
    (s.emitStatusTransition config prev next).get? address = s.get? address := by
  unfold emitStatusTransition
  split
  · rfl
  · rw [get?_maybeEmitLeaderChange]
    generalize statusEventsOf config next = events
    induction events generalizing s with
    | nil => rfl
    | cons event events ih =>
      rw [foldl_cons, ih]
      rfl

@[simp] lemma get?_admitFirstSighting (incoming : Member) :
    (s.admitFirstSighting config incoming).get? incoming.address = some incoming := by
  unfold admitFirstSighting
  split
  · simp
  · simp

lemma get?_replaceMember (existing incoming : Member) :
    (s.replaceMember config existing incoming).get? incoming.address = some incoming := by
  unfold replaceMember
  split
  · exact get?_admitFirstSighting incoming
  · simp

variable {address : NodeAddress}

lemma stored_setMember {held member : Member} (hheld : s.get? address = some held)
    (hstatus : member.status = held.status) (hversion : member.version = held.version) :
    (s.setMember member).stored address = s.stored address := by
  unfold stored
  rw [get?_setMember, hheld]
  split
  · rw [map_some, map_some, hstatus, hversion]
  · rfl

lemma isSome_get?_of_stored {t : Membership} {held : Member} (hheld : s.get? address = some held)
    (h : t.stored address = s.stored address) :
    ∃ m, t.get? address = some m ∧ m.status = held.status ∧ m.version = held.version := by
  unfold stored at h
  rw [hheld, map_some, map_eq_some_iff] at h
  obtain ⟨m, hm, hpair⟩ := h
  rw [Prod.mk.injEq] at hpair
  exact ⟨m, hm, hpair⟩

variable (config)

lemma stored_adoptStorageIdentities {existing incoming : Member}
    (h : s.get? incoming.address = some existing) :
    (s.adoptStorageIdentities config existing incoming).stored incoming.address =
      s.stored incoming.address := by
  unfold adoptStorageIdentities
  split
  · rfl
  · split_ifs
    · rfl
    · rfl
    · exact stored_setMember h rfl rfl

variable (sender : NodeAddress)

lemma stored_adoptConfigurationFacts
    (existing : Member) {incoming held : Member} (h : s.get? incoming.address = some held) :
    (s.adoptConfigurationFacts config sender existing incoming).stored incoming.address =
      s.stored incoming.address := by
  unfold adoptConfigurationFacts
  rw [h]
  split
  · rfl
  · simp only [getD_some]
    split_ifs
    · rfl
    · split
      · exact stored_setMember h rfl rfl
      · split_ifs
        · rfl
        · exact stored_setMember h rfl rfl

lemma stored_adoptAppVersion
    (existing : Member) {incoming held : Member} (h : s.get? incoming.address = some held) :
    (s.adoptAppVersion config sender existing incoming).stored incoming.address =
      s.stored incoming.address := by
  unfold adoptAppVersion
  rw [h]
  simp only [getD_some]
  split_ifs
  all_goals first | rfl | exact stored_setMember h rfl rfl

variable {config}

/-- The caps are off. -/
def Uncapped (config : MembershipConfig) : Prop :=
  config.maxMembers = 0 ∧ config.maxTombstones = 0

/-- The record is news to a node that holds this status and version. -/
def IsNews (held : MemberStatus × ℚ) (incoming : Member) : Prop :=
  held.2 < incoming.version ∨
    incoming.version = held.2 ∧ held.1 = .weaklyUp ∧ incoming.status = .up

lemma admitsMember_of_uncapped (hcaps : Uncapped config) (incoming : Member)
    (existing : Option Member) : s.admitsMember config incoming existing = (s, true) := by
  unfold admitsMember
  simp only
  split
  · rfl
  · rw [hcaps.1, hcaps.2, ite_self, if_pos rfl]

lemma stored_mergeInto (hcaps : Uncapped config) (sender : NodeAddress)
    {existing incoming : Member} (h : s.get? incoming.address = some existing) :
    (IsNews (existing.status, existing.version) incoming →
      (s.mergeInto config sender existing incoming).get? incoming.address = some incoming) ∧
    (¬ IsNews (existing.status, existing.version) incoming →
      (s.mergeInto config sender existing incoming).stored incoming.address =
        s.stored incoming.address) := by
  unfold mergeInto
  simp only [admitsMember_of_uncapped hcaps, if_true]
  split
  · rename_i hrevival
    refine ⟨fun _ => get?_admitFirstSighting incoming, fun hnews => ?_⟩
    exact absurd (.inl hrevival.2) hnews
  · split
    · rename_i hignored
      obtain ⟨hversion, hpromoted⟩ := hignored
      refine ⟨fun hnews => ?_, fun _ => ?_⟩
      · rcases hnews with hlt | ⟨heq, hweakly, hup⟩
        · exact absurd hlt (not_lt.2 hversion)
        · simp only at heq hweakly
          simp [promotedAtEqualVersion, heq, hweakly, hup] at hpromoted
      · have hfirst := stored_adoptStorageIdentities config h
        obtain ⟨m, hm, -, -⟩ := isSome_get?_of_stored h hfirst
        have hsecond := stored_adoptConfigurationFacts config sender existing hm
        obtain ⟨m', hm', -, -⟩ := isSome_get?_of_stored hm hsecond
        rw [stored_adoptAppVersion config sender existing hm', hsecond, hfirst]
    · rename_i hnews
      refine ⟨fun _ => get?_replaceMember existing incoming, fun hno => ?_⟩
      refine absurd ?_ hnews
      rw [IsNews, not_or] at hno
      refine ⟨not_lt.1 hno.1, ?_⟩
      rw [promotedAtEqualVersion, Bool.and_eq_false_iff, Bool.and_eq_false_iff]
      by_contra hcon
      simp only [not_or, Bool.not_eq_false, decide_eq_true_eq] at hcon
      exact hno.2 ⟨hcon.1.1, hcon.1.2, hcon.2⟩

lemma stored_congr {a b : NodeAddress} (h : a.equals b = true) (s : Membership) :
    s.stored a = s.stored b := by
  rw [stored, stored, get?, get?, NodeAddress.toString_of_equals h]

lemma stored_mergeAdmitted (hcaps : Uncapped config) (sender : NodeAddress) (incoming : Member) :
    (s.stored incoming.address = none → (s.mergeAdmitted config sender incoming).stored
        incoming.address = some (incoming.status, incoming.version)) ∧
      ∀ held, s.stored incoming.address = some held →
        (IsNews held incoming → (s.mergeAdmitted config sender incoming).stored
          incoming.address = some (incoming.status, incoming.version)) ∧
        (¬ IsNews held incoming →
          (s.mergeAdmitted config sender incoming).stored incoming.address = some held) := by
  unfold mergeAdmitted
  cases h : s.get? incoming.address with
  | none =>
    have hnone : s.stored incoming.address = none := by rw [stored, h, map_none]
    simp only [admitsMember_of_uncapped hcaps, if_true]
    refine ⟨fun _ => ?_, fun held hheld => ?_⟩
    · rw [stored, get?_admitFirstSighting, map_some]
    · rw [hnone] at hheld
      cases hheld
  | some existing =>
    have hsome : s.stored incoming.address = some (existing.status, existing.version) := by
      rw [stored, h, map_some]
    obtain ⟨hnews, hold⟩ := stored_mergeInto hcaps sender h
    refine ⟨fun hnone => ?_, fun held hheld => ?_⟩
    · rw [hsome] at hnone
      cases hnone
    · rw [hsome, some.injEq] at hheld
      subst hheld
      refine ⟨fun h => ?_, fun h => (hold h).trans hsome⟩
      simp only [stored, hnews h, map_some]

/-- A report about an address other than the node's own, by a sender whose word counts, with
a version that is not too far ahead, and no tombstone that has expired. -/
structure Sent (config : MembershipConfig) (address : NodeAddress) (report : Report) : Prop where
  about : report.record.address.equals address = true
  standing : report.record.address.equals report.sender = true ∨
    hasStanding report.senderStatus = true
  version_le : report.record.version ≤ report.now + config.maxVersionSkewMs
  fresh : report.record.status = .removed → ∀ removedAt, report.record.removedAt = some removedAt →
    report.now - removedAt < config.tombstoneTtlMs

/-- A report whose tombstone, if it is one, is not dated too far ahead either. -/
structure Acceptable (config : MembershipConfig) (address : NodeAddress) (report : Report) : Prop
    extends Sent config address report where
  dated : report.record.status = .removed → ∀ removedAt, report.record.removedAt = some removedAt →
    removedAt ≤ report.now + maxWallClockSkewMs

lemma mergeMember_of_acceptable (hother : address.equals config.selfAddress = false)
    {report : Report} (h : Acceptable config address report) :
    s.mergeMember config report = s.mergeAdmitted config report.sender report.record := by
  have hself : report.record.address.equals config.selfAddress = false := by
    rw [NodeAddress.equals_congr_left h.about, hother]
  have hspeaks : s.maySpeakFor config report.sender report.senderStatus report.record.address
      report.record.status = (s, true) := by
    rw [maySpeakFor, hself, if_neg Bool.false_ne_true]
    rcases h.standing with hsender | hstanding
    · rw [hsender, Bool.true_or]
    · rw [hstanding, Bool.or_true]
  have hversion : s.admitsVersion config report.now report.record = (s, true) := by
    rw [admitsVersion, if_pos h.version_le]
  have htombstone : s.admitsTombstone config report.now report.record = (s, true) := by
    unfold admitsTombstone
    split
    · rename_i removedAt hremoved hdate
      rw [if_neg (not_lt.2 (h.dated hremoved removedAt hdate)),
        decide_eq_true (h.fresh hremoved removedAt hdate)]
    · rfl
  simp only [mergeMember, withLocalSelfIdentity, hself, Bool.false_eq_true, if_false, hspeaks,
    hversion, htombstone, Bool.not_true]

/-- The one record is at least as new as the other: its version is higher, or the versions
are the same and so is the status, or it is `up` where the other is `weakly-up`. -/
def AtLeast (kept : MemberStatus × ℚ) (record : Member) : Prop :=
  record.version < kept.2 ∨
    record.version = kept.2 ∧
      (record.status = kept.1 ∨ record.status = .weaklyUp ∧ kept.1 = .up)

/-- Two records of one version have the same status, or are `weakly-up` and `up`. -/
def Compatible (records : List Member) : Prop :=
  ∀ m ∈ records, ∀ m' ∈ records, m.version = m'.version →
    m.status = m'.status ∨ (m.status = .weaklyUp ∧ m'.status = .up) ∨
      (m.status = .up ∧ m'.status = .weaklyUp)

/-- The status and version of the highest of the records, or nothing where there is none. -/
def IsHighest (records : List Member) : Option (MemberStatus × ℚ) → Prop
  | none => records = []
  | some kept => (∃ m ∈ records, (m.status, m.version) = kept) ∧ ∀ m ∈ records, AtLeast kept m

lemma AtLeast.antisymm {a b : Member} (hab : AtLeast (a.status, a.version) b)
    (hba : AtLeast (b.status, b.version) a) : (a.status, a.version) = (b.status, b.version) := by
  unfold AtLeast at hab hba
  simp only at hab hba
  rcases hab with hlt | ⟨hversion, hstatus⟩
  · rcases hba with hlt' | ⟨hversion', -⟩
    · exact absurd hlt' (not_lt.2 hlt.le)
    · exact absurd hversion' hlt.ne'
  · rcases hba with hlt' | ⟨-, hstatus'⟩
    · exact absurd hversion hlt'.ne'
    · rcases hstatus with hstatus | ⟨hweakly, hup⟩
      · rw [hversion, hstatus]
      · rcases hstatus' with hstatus' | ⟨hweakly', -⟩
        · rw [hversion, hstatus']
        · rw [hup] at hweakly'
          cases hweakly'

lemma IsHighest.unique {records records' : List Member} (h : ∀ m, m ∈ records ↔ m ∈ records')
    {kept kept' : Option (MemberStatus × ℚ)} (hkept : IsHighest records kept)
    (hkept' : IsHighest records' kept') : kept = kept' := by
  cases kept with
  | none =>
    cases kept' with
    | none => rfl
    | some best =>
      obtain ⟨⟨m, hm, -⟩, -⟩ := hkept'
      rw [← h, show records = [] from hkept] at hm
      cases hm
  | some best =>
    obtain ⟨⟨m, hm, rfl⟩, hall⟩ := hkept
    cases kept' with
    | none =>
      rw [h, show records' = [] from hkept'] at hm
      cases hm
    | some best' =>
      obtain ⟨⟨m', hm', rfl⟩, hall'⟩ := hkept'
      exact congrArg some ((hall m' ((h m').2 hm')).antisymm (hall' m ((h m).1 hm)))

lemma AtLeast.of_isNews {held : MemberStatus × ℚ} {incoming m : Member}
    (hnews : IsNews held incoming) (h : AtLeast held m) :
    AtLeast (incoming.status, incoming.version) m := by
  rcases hnews with hlt | ⟨heq, hweakly, hup⟩
  · rcases h with hlower | ⟨hversion, -⟩
    · exact .inl (hlower.trans hlt)
    · exact .inl (hversion.trans_lt hlt)
  · rcases h with hlower | ⟨hversion, hstatus⟩
    · exact .inl (hlower.trans_eq heq.symm)
    · refine .inr ⟨hversion.trans heq.symm, .inr ⟨?_, hup⟩⟩
      rcases hstatus with hstatus | ⟨hstatus, -⟩
      · rw [hstatus, hweakly]
      · exact hstatus

lemma atLeast_of_not_isNews {held incoming : Member}
    (hcompatible : held.version = incoming.version → held.status = incoming.status ∨
      (held.status = .weaklyUp ∧ incoming.status = .up) ∨
        (held.status = .up ∧ incoming.status = .weaklyUp))
    (hno : ¬ IsNews (held.status, held.version) incoming) :
    AtLeast (held.status, held.version) incoming := by
  rw [IsNews, not_or] at hno
  rcases (not_lt.1 hno.1).lt_or_eq with hlt | heq
  · exact .inl hlt
  · refine .inr ⟨heq, ?_⟩
    rcases hcompatible heq.symm with hsame | ⟨hweakly, hup⟩ | ⟨hup, hweakly⟩
    · exact .inl hsame.symm
    · exact absurd ⟨heq, hweakly, hup⟩ hno.2
    · exact .inr ⟨hweakly, hup⟩

lemma IsHighest.mergeMember (hcaps : Uncapped config)
    (hother : address.equals config.selfAddress = false) {report : Report}
    (h : Acceptable config address report) {seen : List Member}
    (hcompatible : Compatible (seen ++ [report.record]))
    (hheld : IsHighest seen (s.stored address)) :
    IsHighest (seen ++ [report.record]) ((s.mergeMember config report).stored address) := by
  have hlast : report.record ∈ seen ++ [report.record] :=
    mem_append_right _ mem_cons_self
  have hself : AtLeast (report.record.status, report.record.version) report.record :=
    .inr ⟨rfl, .inl rfl⟩
  rw [mergeMember_of_acceptable hother h, ← stored_congr h.about]
  rw [← stored_congr h.about] at hheld
  obtain ⟨hfirst, hthen⟩ := stored_mergeAdmitted (s := s) hcaps report.sender report.record
  cases hstored : s.stored report.record.address with
  | none =>
    rw [hstored] at hheld
    rw [hfirst hstored, show seen = [] from hheld]
    refine ⟨⟨_, mem_singleton_self _, rfl⟩, fun m hm => ?_⟩
    rw [nil_append, mem_singleton] at hm
    rw [hm]
    exact hself
  | some held =>
    rw [hstored] at hheld
    obtain ⟨⟨best, hbest, hbestEq⟩, hall⟩ := hheld
    have hmem : best ∈ seen ++ [report.record] := mem_append_left _ hbest
    by_cases hnews : IsNews held report.record
    · rw [(hthen held hstored).1 hnews]
      refine ⟨⟨_, hlast, rfl⟩, fun m hm => ?_⟩
      rcases mem_append.1 hm with hm | hm
      · exact (hall m hm).of_isNews hnews
      · rw [mem_singleton.1 hm]
        exact hself
    · rw [(hthen held hstored).2 hnews]
      refine ⟨⟨best, hmem, hbestEq⟩, fun m hm => ?_⟩
      rcases mem_append.1 hm with hm | hm
      · exact hall m hm
      · rw [mem_singleton.1 hm]
        subst hbestEq
        exact atLeast_of_not_isNews (hcompatible best hmem _ hlast) hnews

lemma isHighest_mergeMembers (hcaps : Uncapped config)
    (hother : address.equals config.selfAddress = false) {reports : List Report}
    (h : ∀ report ∈ reports, Acceptable config address report) (seen : List Member)
    (hcompatible : Compatible (seen ++ reports.map Report.record))
    (hheld : IsHighest seen (s.stored address)) :
    IsHighest (seen ++ reports.map Report.record)
      ((s.mergeMembers config reports).stored address) := by
  induction reports generalizing s seen with
  | nil =>
    rw [map_nil, append_nil]
    exact hheld
  | cons report reports ih =>
    rw [map_cons, append_cons] at hcompatible ⊢
    have hstep : IsHighest (seen ++ [report.record])
        ((s.mergeMember config report).stored address) :=
      IsHighest.mergeMember hcaps hother (h report mem_cons_self)
        (fun m hm m' hm' => hcompatible m (mem_append_left _ hm) m' (mem_append_left _ hm')) hheld
    exact ih (fun report' hmem => h report' (mem_cons_of_mem _ hmem)) _ hcompatible hstep

/-- Whatever order the reports come in, and however often, the node ends with the highest
of the records. -/
theorem stored_mergeMembers_order {address : NodeAddress} (hcaps : Uncapped config)
    (hother : address.equals config.selfAddress = false) (hnew : s.stored address = none)
    {reports : List Report} (h : ∀ report ∈ reports, Acceptable config address report)
    (hcompatible : Compatible (reports.map Report.record)) :
    IsHighest (reports.map Report.record) ((s.mergeMembers config reports).stored address) ∧
      ∀ (t : Membership) (reports' : List Report), t.stored address = none →
        (∀ report ∈ reports', Acceptable config address report) →
        (∀ m, m ∈ reports.map Report.record ↔ m ∈ reports'.map Report.record) →
        (t.mergeMembers config reports').stored address =
          (s.mergeMembers config reports).stored address := by
  have hhighest : ∀ (t : Membership) (list : List Report), t.stored address = none →
      (∀ report ∈ list, Acceptable config address report) →
      Compatible (list.map Report.record) →
      IsHighest (list.map Report.record) ((t.mergeMembers config list).stored address) := by
    intro t list hnone hlist hcompat
    have hempty : IsHighest [] (t.stored address) := by rw [hnone]; rfl
    exact isHighest_mergeMembers hcaps hother hlist [] hcompat hempty
  refine ⟨hhighest s reports hnew h hcompatible, fun t reports' hnone h' hsame => ?_⟩
  have hcompatible' : Compatible (reports'.map Report.record) := fun m hm m' hm' =>
    hcompatible m ((hsame m).2 hm) m' ((hsame m').2 hm')
  exact ((hhighest s reports hnew h hcompatible).unique hsame
    (hhighest t reports' hnone h' hcompatible')).symm

/-- A peer that is told of. -/
def samplePeer : NodeAddress := ⟨"app", "peer", 2552, none⟩

def sampleConfig : MembershipConfig where
  selfAddress := ⟨"app", "self", 2552, none⟩
  maxVersionSkewMs := 1000
  maxMembers := 0
  maxTombstones := 0
  tombstoneTtlMs := 1000
  locale := Downing.codeUnitCompare

def sampleReport (status : MemberStatus) (version : ℚ) (removedAt : Option ℚ) : Report where
  now := 100
  sender := ⟨"app", "other", 2552, none⟩
  senderStatus := some .up
  record := { address := samplePeer, status, version, removedAt }

lemma sent_sampleReport {status : MemberStatus} {version : ℚ} {removedAt : Option ℚ}
    (hversion : version ≤ 100) (hdate : ∀ date, removedAt = some date → 100 ≤ date) :
    Sent sampleConfig samplePeer (sampleReport status version removedAt) where
  about := NodeAddress.equals_iff.2 ⟨rfl, rfl, rfl⟩
  standing := .inr rfl
  version_le := by
    change version ≤ 100 + 1000
    linarith
  fresh := fun _ date hsome => by
    have hle := hdate date hsome
    change 100 - date < 1000
    linarith

lemma acceptable_sampleReport {status : MemberStatus} {version : ℚ} {removedAt : Option ℚ}
    (hversion : version ≤ 100) (hdate : ∀ date, removedAt = some date → date = 100) :
    Acceptable sampleConfig samplePeer (sampleReport status version removedAt) where
  toSent := sent_sampleReport hversion fun date hsome => (hdate date hsome).ge
  dated := fun _ date hsome => by
    rw [hdate date hsome]
    norm_num [sampleReport, maxWallClockSkewMs]

/-- A tombstone and a promotion, told in two orders. -/
theorem stored_mergeMembers_order_tombstone :
    (mergeMembers sampleConfig {} [sampleReport .removed 2 (some 100),
        sampleReport .up 1 none]).stored samplePeer =
      (mergeMembers sampleConfig {} [sampleReport .up 1 none, sampleReport .removed 2 (some 100),
        sampleReport .up 1 none]).stored samplePeer := by
  have hup : Acceptable sampleConfig samplePeer (sampleReport .up 1 none) :=
    acceptable_sampleReport (by norm_num) (fun _ hsome => by cases hsome)
  have hremoved : Acceptable sampleConfig samplePeer (sampleReport .removed 2 (some 100)) :=
    acceptable_sampleReport (by norm_num) (fun _ hsome => by cases hsome; rfl)
  have hall : ∀ report ∈ [sampleReport .up 1 none, sampleReport .removed 2 (some 100),
      sampleReport .up 1 none], Acceptable sampleConfig samplePeer report := by
    simp only [forall_mem_cons]
    exact ⟨hup, hremoved, hup, by simp⟩
  have hcompatible : Compatible ([sampleReport .up 1 none, sampleReport .removed 2 (some 100),
      sampleReport .up 1 none].map Report.record) := by
    simp [Compatible, sampleReport]
  have hnew : ({} : Membership).stored samplePeer = none := rfl
  refine (stored_mergeMembers_order ⟨rfl, rfl⟩ (by decide) hnew hall hcompatible).2 {} _ rfl ?_ ?_
  · simp only [forall_mem_cons]
    exact ⟨hremoved, hup, by simp⟩
  · intro m
    simp only [List.map_cons, List.map_nil, List.mem_cons, List.not_mem_nil, or_false]
    tauto

/-- A tombstone dated two days ahead is refused, so the node does not hold the highest
record it was given. -/
theorem not_isHighest_future_tombstone :
    Uncapped sampleConfig ∧ samplePeer.equals sampleConfig.selfAddress = false ∧
    ({} : Membership).stored samplePeer = none ∧
    (∀ report ∈ [sampleReport .removed 2 (some 172800100)], Sent sampleConfig samplePeer report) ∧
    Compatible ([sampleReport .removed 2 (some 172800100)].map Report.record) ∧
    ¬ IsHighest ([sampleReport .removed 2 (some 172800100)].map Report.record)
      ((mergeMembers sampleConfig {} [sampleReport .removed 2 (some 172800100)]).stored
        samplePeer) := by
  refine ⟨⟨rfl, rfl⟩, by decide, rfl, ?_, ?_, ?_⟩
  · intro report hmem
    rw [mem_singleton.1 hmem]
    exact sent_sampleReport (by norm_num) (fun _ hsome => by cases hsome; norm_num)
  · simp [Compatible]
  · have hnone : (mergeMembers sampleConfig {} [sampleReport .removed 2 (some 172800100)]).stored
        samplePeer = none := by
      decide +kernel
    rw [hnone]
    exact cons_ne_nil _ _

end ActorTs.Cluster.Membership
