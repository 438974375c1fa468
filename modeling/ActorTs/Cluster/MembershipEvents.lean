import ActorTs.Cluster.MembershipMerge

/-!
# What a listener knows of the members

A listener is told events and nothing else. Its account of an address is whether the
address has joined and not been removed, and which status was told last since it joined;
the leader is who it was told last. The account is compared with the table of members.

Every change of a status is told, with one exception: nothing is told of a member that goes back to
`joining`. That happens where a gossiped record is newer than a live entry, says `joining`, and is
not known to be of another run.
-/

open List Option Bool

namespace ActorTs.Cluster.Membership

open OrderedMap Membership

variable {config : MembershipConfig} {s t : Membership} {key : JsString}

/-! ### The account of a listener -/

/-- What a listener has been told of an address. -/
structure Account where
  joined : Bool := false
  /-- The status told last since the address joined. -/
  status : Option MemberStatus := none
  deriving DecidableEq

/-- The member that an event is about, and the status it tells. -/
def announces : ClusterEvent → Option (Member × MemberStatus)
  | .memberJoined member => some (member, .joining)
  | .memberWeaklyUp member => some (member, .weaklyUp)
  | .memberUp member => some (member, .up)
  | .memberUnreachable member => some (member, .unreachable)
  | .memberDown member => some (member, .down)
  | .memberLeft member => some (member, .leaving)
  | .memberRemoved member => some (member, .removed)
  | .selfUp _ | .selfRemoved _ | .memberReachable _ | .reachabilityChanged _ _
  | .leaderChanged _ => none

/-- An account with a status that is told. -/
def Account.update (a : Account) : MemberStatus → Account
  | .joining => { joined := true, status := none }
  | .removed => { joined := false, status := some .removed }
  | status => { a with status := some status }

def hear (key : JsString) (a : Account) (event : ClusterEvent) : Account :=
  match announces event with
  | some (member, status) => if addrKey member = key then a.update status else a
  | none => a

def account (key : JsString) (events : List ClusterEvent) : Account := events.foldl (hear key) {}

def hearLeader (last : Option Member) : ClusterEvent → Option Member
  | .leaderChanged leader => leader
  | _ => last

/-- The leader that was told last. -/
def lastLeader (events : List ClusterEvent) : Option Member := events.foldl hearLeader none

/-- The status that an account holds of a member. -/
def announced : MemberStatus → Option MemberStatus
  | .joining => none
  | status => some status

/-- The event is told of the address. -/
def IsAbout (key : JsString) (event : ClusterEvent) : Prop :=
  ∃ member status, announces event = some (member, status) ∧ addrKey member = key

variable {event : ClusterEvent} {a : Account}

lemma hear_of_not_isAbout (h : ¬ IsAbout key event) : hear key a event = a := by
  unfold hear
  split
  · rename_i member status heq
    exact if_neg fun hkey => h ⟨member, status, heq, hkey⟩
  · rfl

lemma foldl_hear_of_not_isAbout {events : List ClusterEvent}
    (h : ∀ event ∈ events, ¬ IsAbout key event) (a : Account) :
    events.foldl (hear key) a = a := by
  induction events with
  | nil => rfl
  | cons event events ih =>
    rw [foldl_cons, hear_of_not_isAbout (h event mem_cons_self)]
    exact ih fun e he => h e (mem_cons_of_mem _ he)

variable (events new : List ClusterEvent)

lemma account_append : account key (events ++ new) = new.foldl (hear key) (account key events) :=
  foldl_append

variable {member : Member}

lemma announces_of_mem_statusEventsOf (h : event ∈ statusEventsOf config member) :
    announces event = none ∨ announces event = some (member, member.status) := by
  unfold statusEventsOf at h
  cases hstatus : member.status with
  | up | removed =>
    simp only [hstatus] at h
    split at h
    · rcases mem_pair.1 h with rfl | rfl
      · exact .inr rfl
      · exact .inl rfl
    · rw [mem_singleton.1 h]
      exact .inr rfl
  | weaklyUp | unreachable | down | leaving =>
    simp only [hstatus] at h
    rw [mem_singleton.1 h]
    exact .inr rfl
  | joining =>
    simp only [hstatus] at h
    cases h

lemma not_isAbout_of_mem_statusEventsOf (hne : addrKey member ≠ key) :
    ∀ event ∈ statusEventsOf config member, ¬ IsAbout key event := by
  rintro event hmem ⟨told, status, htold, hkey⟩
  rcases announces_of_mem_statusEventsOf hmem with hnone | hsome
  · rw [hnone] at htold
    cases htold
  · rw [hsome, some.injEq, Prod.mk.injEq] at htold
    exact hne (htold.1 ▸ hkey)

lemma foldl_hear_statusEventsOf (hstatus : member.status ≠ .joining) (a : Account) :
    (statusEventsOf config member).foldl (hear (addrKey member)) a = a.update member.status := by
  unfold statusEventsOf
  cases h : member.status with
  | joining => exact absurd h hstatus
  | up | removed =>
    simp only
    split <;> simp [hear, announces]
  | weaklyUp | unreachable | down | leaving => simp [hear, announces]

/-! ### The account and the table agree -/

/-- The address has joined in the account exactly if it has a live entry. -/
def JoinedExact (key : JsString) (s : Membership) : Prop :=
  (account key s.events).joined = (s.members.get? key).any fun m => !isTombstone m

/-- The account holds the status of the entry. -/
def StatusExact (key : JsString) (s : Membership) : Prop :=
  ∀ member, s.members.get? key = some member →
    (account key s.events).status = announced member.status

/-- Under this key a member went back to `joining` while this many events had been told. -/
abbrev SilentReturn := JsString × ℕ

/-- The member is `joining` because it went back, and was not told to join since. -/
def WentBack (returns : List SilentReturn) (key : JsString) (s : Membership) : Prop :=
  (∀ member, s.members.get? key = some member → member.status = .joining) ∧
    ∃ n, (key, n) ∈ returns ∧ n ≤ s.events.length ∧
      ∀ event ∈ s.events.drop n, ¬ IsAbout key event

/-- The account agrees with the table, but for a silent return. -/
structure Agrees (returns : List SilentReturn) (key : JsString) (s : Membership) : Prop where
  joined : JoinedExact key s
  status : StatusExact key s ∨ WentBack returns key s

/-- Nothing is told of the key, and the entry has the status it had. -/
structure Quiet (key : JsString) (s t : Membership) : Prop where
  status : (t.members.get? key).map Member.status = (s.members.get? key).map Member.status
  events : ∃ new, t.events = s.events ++ new ∧ ∀ event ∈ new, ¬ IsAbout key event

lemma Quiet.account_eq (h : Quiet key s t) : account key t.events = account key s.events := by
  obtain ⟨new, hnew, hnone⟩ := h.events
  rw [hnew, account_append, foldl_hear_of_not_isAbout hnone]

lemma Quiet.exists_entry (h : Quiet key s t) (hget : t.members.get? key = some member) :
    ∃ held, s.members.get? key = some held ∧ held.status = member.status := by
  have hstatus := h.status
  rw [hget, map_some] at hstatus
  obtain ⟨held, hheld, heq⟩ := map_eq_some_iff.1 hstatus.symm
  exact ⟨held, hheld, heq⟩

lemma any_isTombstone_eq (o : Option Member) :
    (o.any fun m => !isTombstone m) =
      (o.map Member.status).any fun status => !decide (status = .removed) := by
  cases o <;> rfl

variable {returns : List SilentReturn} {more : List SilentReturn}

lemma Agrees.quiet (h : Agrees returns key s) (hquiet : Quiet key s t) :
    Agrees returns key t where
  joined := by
    have hjoined := h.joined
    unfold JoinedExact at hjoined ⊢
    rw [hquiet.account_eq, hjoined, any_isTombstone_eq, any_isTombstone_eq, hquiet.status]
  status := by
    rcases h.status with hexact | ⟨hjoining, n, hn, hle, hnone⟩
    · refine .inl fun member hget => ?_
      obtain ⟨held, hheld, hstatus⟩ := hquiet.exists_entry hget
      rw [hquiet.account_eq, ← hstatus]
      exact hexact held hheld
    · obtain ⟨new, hnew, hquietly⟩ := hquiet.events
      refine .inr ⟨fun member hget => ?_, n, hn, ?_, fun event hevent => ?_⟩
      · obtain ⟨held, hheld, hstatus⟩ := hquiet.exists_entry hget
        rw [← hstatus]
        exact hjoining held hheld
      · rw [hnew, length_append]
        omega
      · rw [hnew, drop_append_of_le_length hle] at hevent
        rcases mem_append.1 hevent with hold | hlate
        · exact hnone event hold
        · exact hquietly event hlate

lemma Agrees.mono (h : Agrees returns key s) (hmore : ∀ r ∈ returns, r ∈ more) :
    Agrees more key s where
  joined := h.joined
  status := h.status.imp_right fun ⟨hjoining, n, hn, hrest⟩ => ⟨hjoining, n, hmore _ hn, hrest⟩

/-! ### What is told of one key says nothing of another -/

lemma Quiet.refl (key : JsString) (s : Membership) : Quiet key s s :=
  ⟨rfl, [], (append_nil _).symm, by simp⟩

lemma Quiet.trans {u : Membership} (hst : Quiet key s t) (htu : Quiet key t u) :
    Quiet key s u := by
  obtain ⟨new, hnew, hnone⟩ := hst.events
  obtain ⟨new', hnew', hnone'⟩ := htu.events
  refine ⟨htu.status.trans hst.status, new ++ new', ?_, fun event hevent => ?_⟩
  · rw [hnew', hnew, append_assoc]
  · rcases mem_append.1 hevent with h | h
    · exact hnone event h
    · exact hnone' event h

lemma Quiet.of_eq (hmembers : t.members = s.members) (hevents : t.events = s.events) :
    Quiet key s t :=
  ⟨by rw [hmembers], [], by rw [hevents, append_nil], by simp⟩

lemma Quiet.emit (h : ¬ IsAbout key event) : Quiet key s (s.emit event) :=
  ⟨rfl, [event], rfl, fun _ he => mem_singleton.1 he ▸ h⟩

lemma not_isAbout_leaderChanged (leader : Option Member) :
    ¬ IsAbout key (.leaderChanged leader) := by
  rintro ⟨_, _, h, _⟩
  cases h

lemma Quiet.maybeEmitLeaderChange : Quiet key s (s.maybeEmitLeaderChange config) := by
  unfold Membership.maybeEmitLeaderChange
  simp only
  split
  · exact (Quiet.emit (not_isAbout_leaderChanged _)).trans (.of_eq rfl rfl)
  · exact .refl key s

lemma Quiet.setMember (hne : addrKey member ≠ key) : Quiet key s (s.setMember member) := by
  refine ⟨?_, [], (append_nil _).symm, by simp⟩
  exact congrArg _ ((get?_set _ _ _ _).trans (if_neg hne))

lemma Quiet.deleteMember {deleted : JsString} (hne : deleted ≠ key) :
    Quiet key s (s.deleteMember deleted) := by
  refine ⟨by rw [get?_deleteMember, if_neg hne], [], ?_, by simp⟩
  unfold Membership.deleteMember
  split
  · exact (append_nil _).symm
  · exact (append_nil _).symm

lemma Quiet.emitStatusTransition {prev next : Member} (hne : addrKey next ≠ key) :
    Quiet key s (s.emitStatusTransition config prev next) := by
  unfold Membership.emitStatusTransition
  split
  · exact .refl key s
  · refine Quiet.trans ?_ .maybeEmitLeaderChange
    rw [foldl_emit]
    exact ⟨rfl, _, rfl, not_isAbout_of_mem_statusEventsOf hne⟩

/-! ### What is told of the key itself -/

lemma account_maybeEmitLeaderChange :
    account key (s.maybeEmitLeaderChange config).events = account key s.events :=
  Quiet.maybeEmitLeaderChange.account_eq

lemma account_emitStatusTransition {prev next : Member} (hne : prev.status ≠ next.status)
    (hstatus : next.status ≠ .joining) :
    account (addrKey next) (s.emitStatusTransition config prev next).events =
      (account (addrKey next) s.events).update next.status := by
  unfold emitStatusTransition
  rw [if_neg hne, account_maybeEmitLeaderChange, foldl_emit, account_append,
    foldl_hear_statusEventsOf hstatus]

lemma Account.status_update (a : Account) (status : MemberStatus) :
    (a.update status).status = announced status := by
  cases status <;> rfl

lemma Agrees.of_update (hget : s.members.get? key = some member)
    (haccount : account key s.events = a.update member.status)
    (hjoined : a.joined = true ∨ member.status = .joining ∨ member.status = .removed) :
    Agrees returns key s where
  joined := by
    unfold JoinedExact
    rw [haccount, hget, any_some, isTombstone]
    rcases hjoined with hjoined | hjoining | hremoved
    · cases member.status <;> simp [Account.update, hjoined]
    · rw [hjoining]
      rfl
    · rw [hremoved]
      rfl
  status := by
    refine .inl fun held hheld => ?_
    rw [hget, some.injEq] at hheld
    rw [haccount, Account.status_update, hheld]

/-! ### The leader -/

def isUp (member : Member) : Bool := decide (member.status = .up)

structure LeaderTold (config : MembershipConfig) (s : Membership) : Prop where
  logged : lastLeader s.events = s.currentLeader
  current : s.currentLeader.map addrKey = (s.leader config).map addrKey

/-- Which member leads depends on the addresses of the members that are up. -/
lemma leader_key (hkeyed : s.Keyed) :
    (s.leader config).map addrKey =
      ((s.members.keysWhere isUp).mergeSort config.locale.le).head? := by
  have hkeys : s.members.keysWhere isUp =
      (s.members.values.filter fun m => decide (m.status = .up)).map addrKey := by
    rw [keysWhere, OrderedMap.values, List.filter_map, List.map_map]
    refine map_congr_left fun p hp => ?_
    have hget := (s.members.get?_eq_some_iff p.1 p.2).2 (mem_filter.1 hp).1
    exact (hkeyed p.1 p.2 hget).symm
  rw [hkeys, leader, upMembers, ← head?_map]
  exact congrArg head? (map_mergeSort fun _ _ _ _ => rfl)

lemma lastLeader_append : lastLeader (events ++ new) = new.foldl hearLeader (lastLeader events) :=
  foldl_append

lemma LeaderTold.maybeEmitLeaderChange (h : lastLeader s.events = s.currentLeader) :
    LeaderTold config (s.maybeEmitLeaderChange config) := by
  unfold Membership.maybeEmitLeaderChange
  simp only
  split
  · exact ⟨lastLeader_append _ _, rfl⟩
  · rename_i hsame
    refine ⟨h, ?_⟩
    cases hprev : s.currentLeader with
    | none =>
      cases hnext : s.leader config with
      | none => rfl
      | some next =>
        rw [hprev, hnext] at hsame
        exact absurd rfl hsame
    | some prev =>
      cases hnext : s.leader config with
      | none =>
        rw [hprev, hnext] at hsame
        exact absurd rfl hsame
      | some next =>
        rw [hprev, hnext, leaderDiffers, not_eq_true, not_eq_false'] at hsame
        exact congrArg some (NodeAddress.toString_of_equals hsame)

/-- Where no leader is told of and the addresses that are up stay, the leader stays. -/
lemma LeaderTold.of_keysWhere (h : LeaderTold config s) (hs : s.Keyed) (ht : t.Keyed)
    (hlogged : lastLeader t.events = lastLeader s.events)
    (hcurrent : t.currentLeader = s.currentLeader)
    (hup : t.members.keysWhere isUp = s.members.keysWhere isUp) : LeaderTold config t where
  logged := by rw [hlogged, hcurrent, h.logged]
  current := by rw [hcurrent, h.current, leader_key hs, leader_key ht, hup]

lemma foldl_hearLeader_statusEventsOf (member : Member) (last : Option Member) :
    (statusEventsOf config member).foldl hearLeader last = last := by
  unfold statusEventsOf
  cases member.status with
  | up | removed =>
    simp only
    split <;> rfl
  | weaklyUp | unreachable | down | leaving | joining => rfl

/-! ### Silent returns -/

/-- The record is newer than a live entry, says `joining` where the entry does not, and is
not known to be of another run. -/
def movesBack (config : MembershipConfig) (s : Membership) (report : Report) : Bool :=
  let incoming := withLocalSelfIdentity config report.record
  (s.get? incoming.address).any fun existing =>
    decide (existing.status ≠ .joining ∧ existing.status ≠ .removed ∧
      incoming.status = .joining ∧ existing.version < incoming.version) &&
      !isRestartOf existing incoming

/-- The silent returns of the records of a frame. -/
def returnsOfReports (config : MembershipConfig) : Membership → List Report → List SilentReturn
  | _, [] => []
  | s, report :: reports =>
    (if movesBack config s report then
      [(addrKey (withLocalSelfIdentity config report.record), s.events.length)] else []) ++
      returnsOfReports config (s.mergeMember config report) reports

def returnsOfInput (config : MembershipConfig) (s : Membership) : Input → List SilentReturn
  | .gossip now peer message =>
    if s.admitsGossipSequence config now peer message.sequence then
      returnsOfReports config s (s.reportsOf now peer message)
    else []
  | _ => []

/-- The silent returns of a run. -/
def returnsOf (config : MembershipConfig) : Membership → List Input → List SilentReturn
  | _, [] => []
  | s, input :: inputs =>
    returnsOfInput config s input ++ returnsOf config (s.step config input) inputs

/-- When a downing decision takes the node itself down, its own record is no tombstone. -/
def LeavesAlive (config : MembershipConfig) (s : Membership) : Input → Prop
  | .downing _ toDown => toDown.has config.selfAddress.toString = true →
      ∀ me, s.get? config.selfAddress = some me → me.status ≠ .removed
  | _ => True

/-! ### Each write is told -/

/-- The listener knows the members and the leader, but for silent returns. -/
structure Told (config : MembershipConfig) (returns : List SilentReturn) (s : Membership) :
    Prop where
  keyed : s.Keyed
  agrees : ∀ key, Agrees returns key s
  leader : LeaderTold config s

namespace Told

variable {returns : List SilentReturn}

section

variable (h : Told config returns s)
include h

lemma mono (hmore : ∀ r ∈ returns, r ∈ more) : Told config more s :=
  ⟨h.keyed, fun key => (h.agrees key).mono hmore, h.leader⟩

lemma of_eq (hmembers : t.members = s.members) (hevents : t.events = s.events)
    (hleader : t.currentLeader = s.currentLeader) : Told config returns t :=
  ⟨h.keyed.of_members hmembers, fun key => (h.agrees key).quiet (.of_eq hmembers hevents),
    h.leader.of_keysWhere h.keyed (h.keyed.of_members hmembers) (by rw [hevents]) hleader
      (by rw [hmembers])⟩

lemma touch (hkeyed : t.Keyed) {touched : JsString}
    (hquiet : ∀ key, touched ≠ key → Quiet key s t) (hagrees : Agrees returns touched t)
    (hleader : LeaderTold config t) : Told config returns t := by
  refine ⟨hkeyed, fun key => ?_, hleader⟩
  by_cases hkey : touched = key
  · exact hkey ▸ hagrees
  · exact (h.agrees key).quiet (hquiet key hkey)

/-- What is no event about a member, nor about the leader, changes nothing. -/
lemma emit {event : ClusterEvent} (habout : ∀ key, ¬ IsAbout key event)
    (hlast : ∀ last, hearLeader last event = last) : Told config returns (s.emit event) := by
  refine ⟨h.keyed.of_members rfl, fun key => (h.agrees key).quiet (.emit (habout key)), ?_⟩
  exact h.leader.of_keysWhere h.keyed (h.keyed.of_members rfl)
    ((lastLeader_append _ _).trans (hlast _)) rfl rfl

variable {member : Member} {prev next : Member}

lemma restate {held : Member} (hget : s.get? member.address = some held)
    (hstatus : member.status = held.status) : Told config returns (s.setMember member) := by
  have hquiet : ∀ key, Quiet key s (s.setMember member) := by
    intro key
    by_cases hkey : addrKey member = key
    · subst hkey
      refine ⟨?_, [], (append_nil _).symm, by simp⟩
      have hset : (s.setMember member).members.get? (addrKey member) = some member :=
        get?_set_self _ _ _
      have hheld : s.members.get? (addrKey member) = some held := hget
      rw [hset, hheld, map_some, map_some, hstatus]
    · exact .setMember hkey
  refine ⟨h.keyed.setMember member, fun key => (h.agrees key).quiet (hquiet key), ?_⟩
  refine h.leader.of_keysWhere h.keyed (h.keyed.setMember member) rfl rfl ?_
  refine keysWhere_set ?_
  have hheld : s.members.get? member.address.toString = some held := hget
  rw [hheld, any_some, isUp, isUp, hstatus]

lemma overlays (hoverlays : Overlays key s t) : Told config returns t := by
  induction hoverlays with
  | refl => exact h
  | restate _ hget hkey hrestates ih =>
    subst hkey
    exact ih.restate hget hrestates.status

lemma transition (hget : s.get? next.address = some prev) (hlive : prev.status ≠ .removed)
    (hjoining : next.status ≠ .joining) :
    Told config returns ((s.setMember next).emitStatusTransition config prev next) := by
  by_cases hsame : prev.status = next.status
  · rw [emitStatusTransition, if_pos hsame]
    exact h.restate hget hsame.symm
  · have hentry : ((s.setMember next).emitStatusTransition config prev next).members.get?
        (addrKey next) = some next := by
      rw [members_emitStatusTransition]
      exact get?_set_self _ _ _
    have hjoined : (account (addrKey next) s.events).joined = true := by
      have hexact := (h.agrees (addrKey next)).joined
      have hheld : s.members.get? (addrKey next) = some prev := hget
      rw [JoinedExact, hheld, any_some, isTombstone, decide_eq_false hlive] at hexact
      exact hexact
    refine h.touch ((h.keyed.setMember next).of_members (members_emitStatusTransition _ _))
      (fun key hkey => (Quiet.setMember hkey).trans (.emitStatusTransition hkey))
      (.of_update hentry (account_emitStatusTransition hsame hjoining) (.inl hjoined)) ?_
    rw [emitStatusTransition, if_neg hsame, foldl_emit]
    refine .maybeEmitLeaderChange ?_
    rw [lastLeader_append, foldl_hearLeader_statusEventsOf]
    exact h.leader.logged

lemma updateMember (hget : s.get? next.address = some prev) (hlive : prev.status ≠ .removed)
    (hjoining : next.status ≠ .joining) : Told config returns (s.updateMember config next) := by
  rw [Membership.updateMember, hget]
  exact h.transition hget hlive hjoining

lemma goBack (hget : s.get? next.address = some prev) (hlive : prev.status ≠ .removed)
    (hjoining : next.status = .joining)
    (hreturn : prev.status ≠ .joining → (addrKey next, s.events.length) ∈ returns) :
    Told config returns ((s.setMember next).emitStatusTransition config prev next) := by
  by_cases hsame : prev.status = next.status
  · rw [emitStatusTransition, if_pos hsame]
    exact h.restate hget hsame.symm
  · have hevents : statusEventsOf config next = [] := by
      rw [statusEventsOf, hjoining]
    have heq : (s.setMember next).emitStatusTransition config prev next =
        (s.setMember next).maybeEmitLeaderChange config := by
      rw [emitStatusTransition, if_neg hsame, hevents, foldl_nil]
    have hquiet : Quiet (addrKey next) (s.setMember next)
        ((s.setMember next).maybeEmitLeaderChange config) := .maybeEmitLeaderChange
    have hentry : ((s.setMember next).maybeEmitLeaderChange config).members.get?
        (addrKey next) = some next := by
      rw [members_maybeEmitLeaderChange]
      exact get?_set_self _ _ _
    rw [heq]
    refine h.touch ((h.keyed.setMember next).of_members members_maybeEmitLeaderChange)
      (fun key hkey => (Quiet.setMember hkey).trans .maybeEmitLeaderChange) ⟨?_, .inr ⟨?_, ?_⟩⟩
      (.maybeEmitLeaderChange h.leader.logged)
    · have hexact := (h.agrees (addrKey next)).joined
      have hheld : s.members.get? (addrKey next) = some prev := hget
      rw [JoinedExact, hheld, any_some, isTombstone, decide_eq_false hlive] at hexact
      rw [JoinedExact, hquiet.account_eq, hentry, any_some, isTombstone, hjoining]
      exact hexact
    · intro member hmember
      rw [hentry, some.injEq] at hmember
      rw [← hmember, hjoining]
    · obtain ⟨new, hnew, hnone⟩ := hquiet.events
      change _ = s.events ++ new at hnew
      refine ⟨s.events.length, hreturn (hjoining ▸ hsame), ?_, ?_⟩
      · rw [hnew, length_append]
        omega
      · rw [hnew, drop_left]
        exact hnone

end

lemma quiet_memberJoined (hne : addrKey member ≠ key) :
    Quiet key s ((s.setMember member).emit (.memberJoined member)) := by
  refine (Quiet.setMember hne).trans (.emit ?_)
  rintro ⟨told, status, htold, hkey⟩
  rw [announces, some.injEq, Prod.mk.injEq] at htold
  exact hne (htold.1 ▸ hkey)

lemma account_memberJoined (member : Member) :
    account (addrKey member) ((s.setMember member).emit (.memberJoined member)).events =
      (account (addrKey member) s.events).update .joining := by
  refine (account_append _ _).trans ?_
  simp [hear, announces, setMember]

lemma join (h : Told config returns s)
    (hentry : ∀ held, s.get? member.address = some held → held.status = .removed)
    (hjoining : member.status = .joining) :
    Told config returns ((s.setMember member).emit (.memberJoined member)) := by
  have hkeyed : ((s.setMember member).emit (.memberJoined member)).Keyed :=
    (h.keyed.setMember member).of_members rfl
  have hget : ((s.setMember member).emit (.memberJoined member)).members.get? (addrKey member) =
      some member := get?_set_self _ _ _
  refine h.touch hkeyed (fun key hkey => quiet_memberJoined hkey)
    (.of_update hget (hjoining ▸ account_memberJoined member) (.inr (.inl hjoining)))
    (h.leader.of_keysWhere h.keyed hkeyed (lastLeader_append _ _) rfl ?_)
  refine keysWhere_set ?_
  have hnot : isUp member = false := by rw [isUp, hjoining]; rfl
  rw [hnot]
  cases hheld : s.members.get? member.address.toString with
  | none => rfl
  | some held =>
    rw [any_some, isUp, hentry held hheld]
    rfl

lemma admitFirstSighting (h : Told config returns s) {incoming : Member}
    (hentry : ∀ held, s.get? incoming.address = some held → held.status = .removed) :
    Told config returns (s.admitFirstSighting config incoming) := by
  have hkeyed : (s.admitFirstSighting config incoming).Keyed := h.keyed.admitFirstSighting incoming
  unfold Membership.admitFirstSighting at hkeyed ⊢
  simp only at hkeyed ⊢
  by_cases hjoining : incoming.status = .joining
  · rw [if_pos hjoining]
    exact h.join hentry hjoining
  · rw [if_neg hjoining] at hkeyed ⊢
    have hget := get?_set_self s.members (addrKey incoming) incoming
    refine h.touch hkeyed
      (fun key hkey => (quiet_memberJoined hkey).trans (.emitStatusTransition hkey))
      (.of_update ?_ (account_emitStatusTransition (Ne.symm hjoining) hjoining) (.inl ?_)) ?_
    · rw [members_emitStatusTransition]
      exact hget
    · rw [account_memberJoined]
      rfl
    · rw [emitStatusTransition, if_neg (Ne.symm hjoining), foldl_emit]
      refine .maybeEmitLeaderChange ?_
      rw [lastLeader_append, foldl_hearLeader_statusEventsOf]
      exact (lastLeader_append _ _).trans h.leader.logged

lemma quiet_memberRemoved (hne : addrKey member ≠ key) :
    Quiet key s (s.emit (.memberRemoved member)) := by
  refine .emit ?_
  rintro ⟨told, status, htold, hkey⟩
  rw [announces, some.injEq, Prod.mk.injEq] at htold
  exact hne (htold.1 ▸ hkey)

lemma account_memberRemoved (member : Member) :
    account (addrKey member) (s.emit (.memberRemoved member)).events =
      (account (addrKey member) s.events).update .removed := by
  refine (account_append _ _).trans ?_
  simp [hear, announces]

section

variable (h : Told config returns s)
include h

lemma remove {held : Member} (removed : Member) (hget : s.get? removed.address = some held)
    (hup : held.status ≠ .up) :
    Told config returns ((s.deleteMember (addrKey removed)).emit (.memberRemoved removed)) := by
  have hkeyed : ((s.deleteMember (addrKey removed)).emit (.memberRemoved removed)).Keyed :=
    (h.keyed.deleteMember _).of_members rfl
  have hheld : s.members.get? (addrKey removed) = some held := hget
  have hmembers : (s.deleteMember (addrKey removed)).members = s.members.delete (addrKey removed) := by
    rw [deleteMember, hheld]
  have hrest : (s.deleteMember (addrKey removed)).events = s.events ∧
      (s.deleteMember (addrKey removed)).currentLeader = s.currentLeader := by
    rw [deleteMember, hheld]
    exact ⟨rfl, rfl⟩
  have hgone : (s.deleteMember (addrKey removed)).members.get? (addrKey removed) = none := by
    rw [get?_deleteMember, if_pos rfl]
  refine h.touch hkeyed
    (fun key hkey => (Quiet.deleteMember hkey).trans (quiet_memberRemoved hkey)) ⟨?_, .inl ?_⟩ ?_
  · rw [JoinedExact, account_memberRemoved, members_emit, hgone]
    rfl
  · intro member hmember
    rw [members_emit, hgone] at hmember
    cases hmember
  · refine h.leader.of_keysWhere h.keyed hkeyed ?_ hrest.2 ?_
    · exact (lastLeader_append _ _).trans (congrArg lastLeader hrest.1)
    · rw [members_emit, hmembers]
      refine keysWhere_delete ?_
      rw [hheld, any_some, isUp, decide_eq_false hup]

lemma entomb {held removed : Member} (hget : s.get? removed.address = some held)
    (hup : held.status ≠ .up) (hremoved : removed.status = .removed) :
    Told config returns ((s.setMember removed).emit (.memberRemoved removed)) := by
  have hkeyed : ((s.setMember removed).emit (.memberRemoved removed)).Keyed :=
    (h.keyed.setMember removed).of_members rfl
  have hset : ((s.setMember removed).emit (.memberRemoved removed)).members.get?
      (addrKey removed) = some removed := get?_set_self _ _ _
  refine h.touch hkeyed (fun key hkey => (Quiet.setMember hkey).trans (quiet_memberRemoved hkey))
    (.of_update hset (hremoved ▸ account_memberRemoved removed) (.inr (.inr hremoved)))
    (h.leader.of_keysWhere h.keyed hkeyed (lastLeader_append _ _) rfl ?_)
  refine keysWhere_set ?_
  have hheld : s.members.get? removed.address.toString = some held := hget
  rw [hheld, any_some, isUp, isUp, hremoved, decide_eq_false hup]
  rfl

lemma prune {pruned : JsString} {held : Member} (hget : s.members.get? pruned = some held)
    (hremoved : held.status = .removed) : Told config returns (s.deleteMember pruned) := by
  have hgone : (s.deleteMember pruned).members.get? pruned = none := by
    rw [get?_deleteMember, if_pos rfl]
  have heq : s.deleteMember pruned = { s with
      tombstoneCount := s.tombstoneCount - (if isTombstone held then 1 else 0)
      members := s.members.delete pruned
      reachability := s.reachability.delete pruned
      acceptedGossipSequences := s.acceptedGossipSequences.delete pruned } := by
    rw [deleteMember, hget]
  refine h.touch (h.keyed.deleteMember pruned) (fun key hkey => .deleteMember hkey) ⟨?_, .inl ?_⟩ ?_
  · have hjoined := (h.agrees pruned).joined
    rw [JoinedExact, hget, any_some, isTombstone, hremoved] at hjoined
    rw [JoinedExact, hgone, heq]
    exact hjoined
  · intro member hmember
    rw [hgone] at hmember
    cases hmember
  · refine h.leader.of_keysWhere h.keyed (h.keyed.deleteMember pruned) (by rw [heq])
      (by rw [heq]) ?_
    rw [heq]
    refine keysWhere_delete ?_
    rw [hget, any_some, isUp, hremoved]
    rfl

/-! ### Each step is told -/

lemma downed {member : Member} (hget : s.get? member.address = some member)
    (hlive : member.status ≠ .removed) :
    Told config returns (s.updateMember config (member.withStatus .down)) ∧
      (s.updateMember config (member.withStatus .down)).get? member.address =
        some (member.withStatus .down) := by
  refine ⟨h.updateMember hget hlive (by simp), ?_⟩
  rw [get?, members_updateMember]
  exact get?_set_self _ _ _

lemma replaceIncarnation {existing incoming : Member}
    (hget : s.get? incoming.address = some existing) (hlive : existing.status ≠ .removed) :
    Told config returns (s.replaceIncarnation config existing incoming) := by
  have hkey : addrKey existing = addrKey incoming := h.keyed _ _ hget
  obtain ⟨hdown, hdowned⟩ := h.downed (h.keyed.get?_address hget) hlive
  unfold Membership.replaceIncarnation
  simp only
  generalize s.updateMember config (existing.withStatus .down) = downed at hdown hdowned ⊢
  have hgone : Told config returns ((downed.deleteMember (addrKey existing)).emit
      (.memberRemoved ((existing.withStatus .down).withStatus .removed))) :=
    hdown.remove ((existing.withStatus .down).withStatus .removed) hdowned (by simp)
  refine admitFirstSighting hgone fun held hentry => ?_
  have hnone : (downed.deleteMember (addrKey existing)).members.get? (addrKey incoming) = none := by
    rw [get?_deleteMember, if_pos hkey]
  have hcontra := hnone.symm.trans hentry
  cases hcontra

lemma mergeMember {report : Report} (hreturns : movesBack config s report = true →
      (addrKey (withLocalSelfIdentity config report.record), s.events.length) ∈ returns) :
    Told config returns (s.mergeMember config report) := by
  have hmerge := merge_mergeMember config s report
  generalize s.mergeMember config report = t at hmerge
  cases hmerge with
  | refused counts => exact h.of_eq rfl rfl rfl
  | overlaid _ _ hentry _ => exact h.overlays (overlays_adoptOverlays h.keyed hentry _)
  | filed _ _ hentry _ => exact h.admitFirstSighting hentry
  | @replaced existing incoming hincoming _ _ hentry hlive hnews _ =>
    unfold replaceMember
    cases hrestart : isRestartOf existing incoming with
    | true => exact h.replaceIncarnation hentry hlive
    | false =>
      rw [if_neg Bool.false_ne_true]
      by_cases hjoining : incoming.status = .joining
      · refine h.goBack hentry hlive hjoining fun hstatus => ?_
        rw [hincoming]
        refine hreturns ?_
        have hlt : existing.version < incoming.version := by
          refine hnews.resolve_right fun hpromoted => ?_
          simp [promotedAtEqualVersion, hjoining] at hpromoted
        unfold movesBack
        simp only
        rw [← hincoming, hentry, any_some, hrestart]
        simp [hstatus, hlive, hjoining, hlt]
      · exact h.transition hentry hlive hjoining

lemma mergeMembers {reports : List Report}
    (hreturns : ∀ r ∈ returnsOfReports config s reports, r ∈ returns) :
    Told config returns (s.mergeMembers config reports) := by
  induction reports generalizing s with
  | nil => exact h
  | cons report reports ih =>
    rw [returnsOfReports, forall_mem_append] at hreturns
    refine ih (h.mergeMember fun hmoves => ?_) hreturns.2
    refine hreturns.1 _ ?_
    rw [if_pos hmoves]
    exact mem_singleton_self _

lemma fileSender (sender : NodeAddress) : Told config returns (s.fileSender config sender) := by
  rcases fileSender_cases config s sender with
    ⟨counts, heq⟩ | ⟨hnone, member, rfl, hjoining, -, heq⟩
  · rw [heq]
    exact h.of_eq rfl rfl rfl
  · rw [heq]
    exact h.join (fun held hheld => nomatch hnone.symm.trans hheld) hjoining

end

lemma promotable : Promotable config (Told config returns) where
  keyed _ h := h.keyed
  held _ _ h := h.of_eq rfl rfl rfl
  promoted _ _ _ h hget hawaits := by
    have hheld := h.keyed.get?_address hget
    refine h.updateMember hheld (fun hremoved => ?_) (by simp)
    rw [awaitsPromotion, hremoved] at hawaits
    cases hawaits

section

variable (h : Told config returns s)
include h

lemma onGossip {now : ℚ} {peer : NodeAddress} {message : GossipMessage}
    (hreturns : ∀ r ∈ returnsOfInput config s (.gossip now peer message), r ∈ returns) :
    Told config returns (s.onGossip config now peer message) := by
  unfold Membership.onGossip
  simp only [returnsOfInput] at hreturns
  split
  · rename_i hadmits
    rw [if_pos hadmits] at hreturns
    refine promotable.leaderActionsTick ?_
    refine of_eq ((h.mergeMembers hreturns).fileSender message.sender)
      (members_rememberGossipSequence _ _) ?_ ?_
    · unfold rememberGossipSequence
      split <;> rfl
    · unfold rememberGossipSequence
      split <;> rfl
  · exact h.of_eq rfl rfl rfl

variable (now : ℚ)

lemma onHeartbeat (peer : NodeAddress)
    (message : HeartbeatMessage) : Told config returns (s.onHeartbeat config now peer message) := by
  unfold Membership.onHeartbeat
  split
  · exact h
  · split
    · exact h
    · rename_i existing hget
      split
      · rename_i hunreachable
        have hheld := h.keyed.get?_address hget
        have hup : Told config returns (s.updateMember config (existing.withStatus .up)) :=
          h.updateMember hheld (by rw [hunreachable]; decide) (by simp)
        have habout : ∀ member key, ¬ IsAbout key (.memberReachable member) := by
          rintro member key ⟨_, _, htold, _⟩
          cases htold
        simp only
        split
        · split
          · exact hup.emit (habout _) fun _ => rfl
          · exact hup
        · exact hup
      · exact h

lemma onLeave (peer node : NodeAddress) :
    Told config returns (s.onLeave config now peer node) := by
  unfold Membership.onLeave
  split
  · exact h
  · split
    · exact h
    · rename_i existing hget
      simp only
      generalize hleaving : existing.withStatus .leaving = leaving
      generalize hgone : leaving.withRemoved now = removed
      have hkey : addrKey leaving = addrKey removed := hgone ▸ rfl
      have hremoved : removed.status = .removed := hgone ▸ rfl
      have hleft : ∀ key, addrKey removed ≠ key → ¬ IsAbout key (.memberLeft leaving) := by
        rintro key hne ⟨told, status, htold, habout⟩
        rw [announces, some.injEq, Prod.mk.injEq] at htold
        exact hne (hkey.symm.trans (htold.1 ▸ habout))
      have hset := get?_set_self s.members (addrKey removed) removed
      generalize hgoing : ((s.setMember removed).emit (.memberLeft leaving)) = going
      have hentry : ((going.emit (.memberRemoved removed)).maybeEmitLeaderChange
          config).members.get? (addrKey removed) = some removed := by
        rw [members_maybeEmitLeaderChange, ← hgoing]
        exact hset
      have haccount : account (addrKey removed)
          ((going.emit (.memberRemoved removed)).maybeEmitLeaderChange config).events =
            (account (addrKey removed) going.events).update removed.status := by
        rw [account_maybeEmitLeaderChange, account_memberRemoved, hremoved]
      have hagrees : Agrees returns (addrKey removed)
          ((going.emit (.memberRemoved removed)).maybeEmitLeaderChange config) :=
        .of_update hentry haccount (.inr (.inr hremoved))
      subst hgoing
      refine h.touch ((h.keyed.setMember removed).of_members members_maybeEmitLeaderChange)
        (fun key hne => ?_) hagrees (.maybeEmitLeaderChange ?_)
      · exact (((Quiet.setMember hne).trans (.emit (hleft key hne))).trans
          (quiet_memberRemoved hne)).trans .maybeEmitLeaderChange
      · exact (lastLeader_append _ _).trans ((lastLeader_append _ _).trans h.leader.logged)

lemma trackReachability (member : Member) (decision : FailureDecision) :
    Told config returns (s.trackReachability member decision) := by
  unfold Membership.trackReachability
  simp only
  split
  · exact h.of_eq rfl rfl rfl
  · split
    · exact h
    · split
      · exact h.of_eq rfl rfl rfl
      · have hset : Told config returns { s with
            reachability := s.reachability.set (addrKey member) (decide (decision = .healthy)) } :=
          h.of_eq rfl rfl rfl
        have habout : ∀ address reachable key,
            ¬ IsAbout key (.reachabilityChanged address reachable) := by
          rintro address reachable key ⟨_, _, htold, _⟩
          cases htold
        exact hset.emit (habout _ _) fun _ => rfl

lemma removeDetected (hget : s.get? member.address = some member)
    (hlive : member.status ≠ .removed) : Told config returns (s.removeDetected config member) := by
  obtain ⟨hdown, hdowned⟩ := h.downed hget hlive
  exact hdown.remove ((member.withStatus .down).withStatus .removed) hdowned (by simp)

variable (verdict : NodeAddress → FailureDecision)

lemma detectFailure (hget : s.get? member.address = some member) :
    Told config returns (s.detectFailure config verdict member) := by
  have htrack := h.trackReachability member (verdict member.address)
  have hheld : (s.trackReachability member (verdict member.address)).get? member.address =
      some member := by
    rw [get?, members_trackReachability]
    exact hget
  have hmark : ∀ status, status ≠ .joining → member.status ≠ .removed → Told config returns
      ((s.trackReachability member (verdict member.address)).updateMember config
        (member.withStatus status)) := fun status hstatus hlive =>
    htrack.updateMember hheld hlive hstatus
  unfold Membership.detectFailure holdForResolver
  simp only
  split_ifs with hself hsilent hdown hheld' hunreachable
  · exact h
  · exact hmark _ (by decide) (by rw [hsilent.2]; decide)
  · exact htrack
  · exact hmark _ (by decide) hdown.2.2
  · exact htrack.removeDetected hheld hdown.2.2
  · exact htrack

lemma failureDetectionTick : Told config returns (s.failureDetectionTick config verdict) := by
  unfold Membership.failureDetectionTick
  rw [values, foldl_map]
  refine foldl_entries members (fun t key member ht hget => ?_) h
  refine ⟨ht.detectFailure verdict (ht.keyed.get?_address hget), fun key' hne => ?_⟩
  exact get?_detectFailure_of_ne (ht.keyed key member hget ▸ hne)

lemma retire (hget : s.get? member.address = some member)
    (hlive : member.status ≠ .removed) : Told config returns (s.retire config now member) := by
  obtain ⟨hdown, hdowned⟩ := h.downed hget hlive
  have hheld : get? _ ((member.withStatus .down).withRemoved now).address = _ := hdowned
  exact hdown.entomb hheld (by simp) rfl

lemma forceDown (key : JsString) :
    Told config returns (s.forceDown config now key) := by
  unfold Membership.forceDown
  split
  · exact h
  · split
    · exact h
    · rename_i member hget
      split
      · exact h
      · rename_i hstatus
        exact h.retire now (h.keyed.get?_address hget) fun hremoved => hstatus (.inr hremoved)

end

lemma get?_forceDown_self (hkeyed : s.Keyed) (now : ℚ) (key : JsString) :
    (s.forceDown config now key).get? config.selfAddress = s.get? config.selfAddress := by
  unfold Membership.forceDown
  split
  · rfl
  · rename_i hne
    split
    · rfl
    · rename_i member hget
      split
      · rfl
      · have hother : addrKey member ≠ config.selfAddress.toString := by
          rw [hkeyed key member hget]
          exact hne
        have hset : ∀ (t : Membership) (next : Member), addrKey next = addrKey member →
            (t.setMember next).get? config.selfAddress = t.get? config.selfAddress :=
          fun t next hkey => (get?_set _ _ _ _).trans (if_neg fun h => hother (hkey ▸ h))
        rw [Membership.retire, get?_emit]
        refine (hset _ ((member.withStatus .down).withRemoved now) rfl).trans ?_
        rw [get?, members_updateMember]
        exact hset s (member.withStatus .down) rfl

section

variable (h : Told config returns s)
include h

lemma leaveAtOnce (hlive : ∀ me, s.get? config.selfAddress = some me → me.status ≠ .removed) :
    Told config returns (s.leaveAtOnce config) := by
  unfold Membership.leaveAtOnce
  split
  · exact h
  · have hstopped : Told config returns { s with started := false } := h.of_eq rfl rfl rfl
    simp only
    split
    · rename_i me hget
      have hheld := hstopped.keyed.get?_address hget
      exact hstopped.updateMember hheld (hlive me hget) (by simp)
    · exact hstopped

variable (now : ℚ)

lemma applyDowningDecision {toDown : OrderedSet JsString}
    (hlive : LeavesAlive config s (.downing now toDown)) :
    Told config returns (s.applyDowningDecision config now toDown) := by
  have hall : Told config returns (toDown.elems.foldl (Membership.forceDown config now) s) ∧
      (toDown.elems.foldl (Membership.forceDown config now) s).get? config.selfAddress =
        s.get? config.selfAddress := by
    refine foldlRecOn (motive := fun t => Told config returns t ∧
      t.get? config.selfAddress = s.get? config.selfAddress) _ _ ⟨h, rfl⟩ ?_
    rintro t ⟨ht, hself⟩ key -
    exact ⟨ht.forceDown now key, (get?_forceDown_self ht.keyed now key).trans hself⟩
  unfold Membership.applyDowningDecision
  simp only
  split
  · rename_i hself
    refine hall.1.leaveAtOnce fun me hget => ?_
    rw [hall.2] at hget
    exact hlive hself me hget
  · exact hall.1

lemma down (key : JsString) : Told config returns (s.down config now key).1 := by
  unfold Membership.down
  split
  · exact h
  · split
    · exact h
    · rename_i member hget
      split_ifs with hstatus
      · exact h
      · exact h
      · exact h.retire now (h.keyed.get?_address hget) fun hremoved => hstatus (.inr hremoved)

lemma tombstonePruneTick : Told config returns (s.tombstonePruneTick config now) := by
  refine foldl_entries members (fun t key member ht hget => ?_) h
  unfold pruneEntry
  split
  · rename_i hremoved hdate
    split
    · exact ⟨ht, fun _ _ => rfl⟩
    · refine ⟨ht.prune hget hremoved, fun key' hne => ?_⟩
      rw [get?_deleteMember, if_neg hne.symm]
  · exact ⟨ht, fun _ _ => rfl⟩

lemma step {input : Input} (hlive : LeavesAlive config s input)
    (hreturns : ∀ r ∈ returnsOfInput config s input, r ∈ returns) :
    Told config returns (s.step config input) := by
  cases input with
  | gossip now peer message => exact h.onGossip hreturns
  | heartbeat now peer message => exact h.onHeartbeat now peer message
  | leave now peer node => exact h.onLeave now peer node
  | failureDetection verdict => exact h.failureDetectionTick verdict
  | downing now toDown => exact h.applyDowningDecision now hlive
  | down now key => exact h.down now key
  | leaderActions => exact promotable.leaderActionsTick h
  | selfElection => exact promotable.selfElect h
  | weaklyUp =>
    change Told config returns (s.weaklyUpTick config)
    unfold weaklyUpTick
    split
    · rename_i me hget
      split
      · rename_i hjoining
        have hheld := h.keyed.get?_address hget
        exact h.updateMember hheld (by rw [hjoining]; decide) (by simp)
      · exact h
    · exact h
  | prune now => exact h.tombstonePruneTick now

lemma run {inputs : List Input} (hlive : Along config (LeavesAlive config) s inputs) :
    Told config (returns ++ returnsOf config s inputs) (s.run config inputs) := by
  induction inputs generalizing s returns with
  | nil => exact h.mono fun r hr => mem_append_left _ hr
  | cons input inputs ih =>
    have hmore : Told config (returns ++ returnsOfInput config s input) s :=
      h.mono fun r hr => mem_append_left _ hr
    have hstep := hmore.step hlive.1 fun r hr => mem_append_right _ hr
    rw [returnsOf, ← append_assoc]
    exact ih hstep hlive.2

end

lemma start (now : ℚ) (selfRoles : List JsString) :
    Told config [] (start config now selfRoles) := by
  have hempty : Told config [] {} := by
    refine ⟨keyed_empty, fun key => ⟨rfl, .inl fun member h => ?_⟩, rfl, ?_⟩
    · cases h
    · rw [leader_key keyed_empty, keysWhere]
      simp
  exact hempty.join (fun held hheld => by cases hheld) rfl

end Told

/-! ### The account of a run -/

/-- Who has joined in the account has a live entry, the status told last is the status of the
entry, and the leader told last is the leader. -/
structure Faithful (config : MembershipConfig) (returns : List SilentReturn) (s : Membership) :
    Prop where
  joined : ∀ key, (account key s.events).joined = true ↔
    ∃ member, s.members.get? key = some member ∧ member.status ≠ .removed
  status : ∀ key member, s.members.get? key = some member →
    (account key s.events).status = announced member.status ∨ WentBack returns key s
  leader : (lastLeader s.events).map addrKey = (s.leader config).map addrKey

lemma Told.faithful {returns : List SilentReturn} (h : Told config returns s) :
    Faithful config returns s where
  joined key := by
    rw [(h.agrees key).joined, Option.any_eq_true]
    simp [isTombstone]
  status key member hget := (h.agrees key).status.imp_left fun hexact => hexact member hget
  leader := by rw [h.leader.logged, h.leader.current]

/-- In every run from the start of a node the listener knows who has joined, the status of
every member that did not silently go back to `joining`, and the leader. -/
theorem faithful_run (now : ℚ) (selfRoles : List JsString) {inputs : List Input}
    (hlive : Along config (LeavesAlive config) (start config now selfRoles) inputs) :
    Faithful config (returnsOf config (start config now selfRoles) inputs)
      ((start config now selfRoles).run config inputs) :=
  ((Told.start now selfRoles).run hlive).faithful

/-! ### Two runs that are not told -/

def listenedConfig : MembershipConfig where
  selfAddress := ⟨"app", "self", 2552, none⟩
  maxVersionSkewMs := 1000
  maxMembers := 10
  maxTombstones := 10
  tombstoneTtlMs := 1000
  locale := Downing.codeUnitCompare

def restarted : NodeAddress := ⟨"app", "peer", 2552, none⟩

/-- A frame in which the peer tells its own status. -/
def tellsItself (sequence : ℚ) (status : MemberStatus) : Input :=
  .gossip 0 restarted
    { sender := restarted, sequence,
      members := [{ address := restarted, status, version := sequence }] }

/-- The peer is taken down by the detector. -/
def losesPeer : List Input :=
  [tellsItself 1 .weaklyUp, .failureDetection fun _ => .down, .prune 0]

theorem faithful_losesPeer :
    Faithful listenedConfig (returnsOf listenedConfig (start listenedConfig 0 []) losesPeer)
      ((start listenedConfig 0 []).run listenedConfig losesPeer) :=
  faithful_run 0 [] ⟨trivial, trivial, trivial, trivial⟩

/-- A node whose address prints like another one. -/
def ambiguousConfig : MembershipConfig :=
  { listenedConfig with selfAddress := ⟨"app", "self@host", 2552, none⟩ }

def namesake : NodeAddress := ⟨"app@self", "host", 2552, none⟩

/-- The peer was `weakly-up`, and restarts without saying which run it is. -/
def silentlyRestarted : Membership :=
  (start listenedConfig 0 []).run listenedConfig [tellsItself 1 .weaklyUp, tellsItself 2 .joining]

/-- The node's namesake leaves, and the node takes itself down. -/
def leftTwice : Membership :=
  (start ambiguousConfig 0 []).run ambiguousConfig [.leave 0 namesake namesake,
    .downing 0 (OrderedSet.empty.add ambiguousConfig.selfAddress.toString)]

/-- A peer that restarts goes back to `joining` untold. -/
theorem not_faithful : ¬ Faithful listenedConfig [] silentlyRestarted ∧
      ¬ Faithful ambiguousConfig [] leftTwice := by
  refine ⟨fun h => ?_, fun h => ?_⟩
  · have hdiffers : (silentlyRestarted.members.get? restarted.toString).any (fun member =>
        decide ((account restarted.toString silentlyRestarted.events).status ≠
          announced member.status)) = true := by
      decide +kernel
    obtain ⟨member, hget, hstatus⟩ := (any_eq_true _ _).1 hdiffers
    rcases h.status _ member hget with hexact | ⟨-, n, hn, -⟩
    · exact of_decide_eq_true hstatus hexact
    · cases hn
  · have hstored : (leftTwice.members.get? ambiguousConfig.selfAddress.toString).any (fun member =>
        decide (member.status ≠ .removed)) = true := by
      decide +kernel
    have hjoined : (account ambiguousConfig.selfAddress.toString leftTwice.events).joined =
        false := by
      decide +kernel
    obtain ⟨member, hget, hstatus⟩ := (any_eq_true _ _).1 hstored
    have htrue := (h.joined _).2 ⟨member, hget, of_decide_eq_true hstatus⟩
    rw [hjoined] at htrue
    cases htrue

end ActorTs.Cluster.Membership
