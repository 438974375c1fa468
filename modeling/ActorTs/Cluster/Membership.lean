import ActorTs.Cluster.Downing.Strategies
import ActorTs.Library.OrderedMap

/-!
# What a node makes of gossiped members

A peer gossips what it knows of a member, and `mergeMember` decides what becomes of it:
whether the peer may say so, whether its numbers are plausible, whether there is room for
it, and whether it is news. News is a higher version, or `up` for a member that is
`weakly-up` at the same version. What is no news may still fill in what a member says of
itself.

News is announced, and a member that was restarted is announced as gone first.

The leader is the member that is up with the lowest address. Whether it changed is looked
at with each change of a status, and told behind it.

The node itself is told apart by its address. Left out are the tables of the failure
detector and what is only logged.
-/

namespace ActorTs.Cluster

/-- How far ahead a wall clock may be. -/
def maxWallClockSkewMs : ℚ := 24 * 60 * 60 * 1000

/-- What the node knows of itself, and what it was configured with. A cap of zero is
none. -/
structure MembershipConfig where
  selfAddress : NodeAddress
  maxVersionSkewMs : ℚ
  maxMembers : ℕ
  maxTombstones : ℕ
  tombstoneTtlMs : ℚ
  /-- How addresses are compared. -/
  locale : Downing.LocaleCompare
  selfStorageIdentities : StorageIdentities := {}
  selfConfigurationFacts : List (JsString × JsString) := []
  selfAppVersion : Option JsString := none
  tombstoneMinRetentionMs : ℚ := 0
  minimumMembersBeforeUp : ℕ := 1
  minimumMembersBeforeUpPerRole : List (JsString × ℕ) := []
  /-- A downing provider is configured. -/
  downing : Bool := false
  failureDetectorAutoDown : Bool := true

/-- What the listeners are told. -/
inductive ClusterEvent where
  | memberJoined (member : Member)
  | memberWeaklyUp (member : Member)
  | memberUp (member : Member)
  | selfUp (member : Member)
  | memberUnreachable (member : Member)
  | memberDown (member : Member)
  | memberLeft (member : Member)
  | memberRemoved (member : Member)
  | selfRemoved (member : Member)
  | memberReachable (member : Member)
  | reachabilityChanged (address : NodeAddress) (reachable : Bool)
  | leaderChanged (leader : Option Member)

/-- Why records were refused, and how many. -/
structure GossipRefusalCounts where
  selfClaim : ℕ := 0
  versionSkew : ℕ := 0
  timestampSkew : ℕ := 0
  mapCap : ℕ := 0
  replayedFrame : ℕ := 0

structure Membership where
  members : OrderedMap JsString Member := OrderedMap.empty
  tombstoneCount : ℤ := 0
  refusalCounts : GossipRefusalCounts := {}
  events : List ClusterEvent := []
  currentLeader : Option Member := none
  /-- The last verdict on each member that the detector gave. -/
  reachability : OrderedMap JsString Bool := OrderedMap.empty
  /-- The highest sequence accepted from each peer. -/
  acceptedGossipSequences : OrderedMap JsString ℚ := OrderedMap.empty
  started : Bool := true
  /-- A self-election waits for enough members. -/
  heldSelfElection : Bool := false

namespace Membership

variable (config : MembershipConfig)

def get? (s : Membership) (address : NodeAddress) : Option Member := s.members.get? address.toString

def emit (s : Membership) (event : ClusterEvent) : Membership :=
  { s with events := s.events ++ [event] }

def isTombstone (member : Member) : Bool := decide (member.status = .removed)

def setMember (s : Membership) (member : Member) : Membership :=
  { s with
    tombstoneCount :=
      s.tombstoneCount - (if (s.get? member.address).any isTombstone then 1 else 0) +
        (if isTombstone member then 1 else 0)
    members := s.members.set member.address.toString member }

def deleteMember (s : Membership) (key : JsString) : Membership :=
  match s.members.get? key with
  | none => s
  | some previous =>
    { s with
      tombstoneCount := s.tombstoneCount - (if isTombstone previous then 1 else 0)
      members := s.members.delete key
      reachability := s.reachability.delete key
      acceptedGossipSequences := s.acceptedGossipSequences.delete key }

/-- The members that are up, in the order of their addresses. -/
def upMembers (s : Membership) : List Member :=
  (s.members.values.filter fun m => decide (m.status = .up)).mergeSort fun a b =>
    config.locale.le (addrKey a) (addrKey b)

def leader (s : Membership) : Option Member := (s.upMembers config).head?

def isLeader (s : Membership) : Bool :=
  (s.leader config).any fun m => m.address.equals config.selfAddress

/-- The leader is another one, or there is one where there was none. -/
def leaderDiffers : Option Member → Option Member → Bool
  | none, none => false
  | some prev, some next => !prev.address.equals next.address
  | _, _ => true

def maybeEmitLeaderChange (s : Membership) : Membership :=
  let newLeader := s.leader config
  if leaderDiffers s.currentLeader newLeader then
    { s.emit (.leaderChanged newLeader) with currentLeader := newLeader }
  else s

def statusEventsOf (member : Member) : List ClusterEvent :=
  let isSelf := member.address.equals config.selfAddress
  match member.status with
  | .up => if isSelf then [.memberUp member, .selfUp member] else [.memberUp member]
  | .weaklyUp => [.memberWeaklyUp member]
  | .unreachable => [.memberUnreachable member]
  | .down => [.memberDown member]
  | .leaving => [.memberLeft member]
  | .removed =>
    if isSelf then [.memberRemoved member, .selfRemoved member] else [.memberRemoved member]
  | .joining => []

def emitStatusTransition (s : Membership) (prev next : Member) : Membership :=
  if prev.status = next.status then s
  else ((statusEventsOf config next).foldl emit s).maybeEmitLeaderChange config

def updateMember (s : Membership) (next : Member) : Membership :=
  match s.get? next.address with
  | some prev => (s.setMember next).emitStatusTransition config prev next
  | none => (s.setMember next).emit (.memberJoined next)

/-- Store a record for an address without a live entry, and announce it. -/
def admitFirstSighting (s : Membership) (incoming : Member) : Membership :=
  let s := (s.setMember incoming).emit (.memberJoined incoming)
  if incoming.status = .joining then s
  else s.emitStatusTransition config { address := incoming.address, status := .joining, version := 0 }
    incoming

/-- The record is of another run of the process at the address. -/
def isRestartOf (existing incoming : Member) : Bool :=
  if incoming.status = .down ∨ incoming.status = .removed then false
  else match existing.address.incarnation, incoming.address.incarnation with
    | some before, some after => decide (before ≠ after)
    | _, _ => false

/-- The old run is announced as gone before the new one joins. -/
def replaceIncarnation (s : Membership) (existing incoming : Member) : Membership :=
  let downed := existing.withStatus .down
  let s := (s.updateMember config downed).deleteMember existing.address.toString
  (s.emit (.memberRemoved (downed.withStatus .removed))).admitFirstSighting config incoming

/-- The one disagreement at a version that is resolved. -/
def promotedAtEqualVersion (existing incoming : Member) : Bool :=
  decide (incoming.version = existing.version) && decide (existing.status = .weaklyUp) &&
    decide (incoming.status = .up)

/-- The promotion that a peer decides for this node. -/
def isOwnPromotion (s : Membership) (incomingStatus : MemberStatus) : Bool :=
  decide (incomingStatus = .up) &&
    (s.get? config.selfAddress).any fun m => decide (m.status = .joining ∨ m.status = .weaklyUp)

/-- The sender is a member whose word about others counts. -/
def hasStanding (senderStatus : Option MemberStatus) : Bool :=
  decide (senderStatus = some .up ∨ senderStatus = some .weaklyUp ∨ senderStatus = some .leaving)

/-- Whether the peer may say this, with the refusal counted. -/
def maySpeakFor (s : Membership) (sender : NodeAddress) (senderStatus : Option MemberStatus)
    (subject : NodeAddress) (incomingStatus : MemberStatus) : Membership × Bool :=
  if subject.equals config.selfAddress then
    if s.isOwnPromotion config incomingStatus then (s, true)
    else if some incomingStatus ≠ (s.get? config.selfAddress).map Member.status then
      ({ s with refusalCounts.selfClaim := s.refusalCounts.selfClaim + 1 }, false)
    else (s, false)
  else (s, subject.equals sender || hasStanding senderStatus)

def admitsVersion (s : Membership) (now : ℚ) (incoming : Member) : Membership × Bool :=
  if incoming.version ≤ now + config.maxVersionSkewMs then (s, true)
  else ({ s with refusalCounts.versionSkew := s.refusalCounts.versionSkew + 1 }, false)

/-- Whether a tombstone is dated plausibly and has not expired. -/
def admitsTombstone (s : Membership) (now : ℚ) (incoming : Member) : Membership × Bool :=
  match incoming.status, incoming.removedAt with
  | .removed, some removedAt =>
    if now + maxWallClockSkewMs < removedAt then
      ({ s with refusalCounts.timestampSkew := s.refusalCounts.timestampSkew + 1 }, false)
    else (s, decide (now - removedAt < config.tombstoneTtlMs))
  | _, _ => (s, true)

/-- Whether there is room for the record in the bucket it moves to. -/
def admitsMember (s : Membership) (incoming : Member) (existing : Option Member) :
    Membership × Bool :=
  let wantsTombstone := isTombstone incoming
  if existing.any fun m => isTombstone m == wantsTombstone then (s, true)
  else
    let cap := if wantsTombstone then config.maxTombstones else config.maxMembers
    let held : ℤ := if wantsTombstone then s.tombstoneCount else s.members.size - s.tombstoneCount
    if cap = 0 then (s, true)
    else if held < cap then (s, true)
    else ({ s with refusalCounts.mapCap := s.refusalCounts.mapCap + 1 }, false)

def selfStorageIdentitiesSnapshot : Option StorageIdentities :=
  if config.selfStorageIdentities = {} then none else some config.selfStorageIdentities

def selfConfigurationFactsSnapshot : Option (List (JsString × JsString)) :=
  if config.selfConfigurationFacts = [] then none else some config.selfConfigurationFacts

/-- A record about this node keeps what only this node knows. -/
def withLocalSelfIdentity (member : Member) : Member :=
  if member.address.equals config.selfAddress then
    { member with
      address := config.selfAddress
      storageIdentities := (selfStorageIdentitiesSnapshot config).or member.storageIdentities
      configurationFacts := (selfConfigurationFactsSnapshot config).or member.configurationFacts
      appVersion := config.selfAppVersion }
  else member

def adoptStorageIdentities (s : Membership) (existing incoming : Member) : Membership :=
  match incoming.storageIdentities with
  | none => s
  | some identities =>
    if existing.storageIdentities ≠ none then s
    else if incoming.address.equals config.selfAddress then s
    else s.setMember (existing.withStorageIdentities identities)

def sameConfigurationFacts (held incoming : List (JsString × JsString)) : Bool :=
  held.length == incoming.length && held.all fun p => OrderedMap.lookup p.1 incoming == some p.2

def adoptConfigurationFacts (s : Membership) (sender : NodeAddress) (existing incoming : Member) :
    Membership :=
  match incoming.configurationFacts with
  | none => s
  | some facts =>
    let current := (s.get? incoming.address).getD existing
    if incoming.address.equals config.selfAddress then s
    else match current.configurationFacts with
      | none => s.setMember (current.withConfigurationFacts facts)
      | some held =>
        if !incoming.address.equals sender || sameConfigurationFacts held facts then s
        else s.setMember (current.withConfigurationFacts facts)

/-- The two records are of different runs, as far as they say. -/
def isOtherRun (held stated : Option JsString) : Bool :=
  match held, stated with
  | some before, some after => decide (before ≠ after)
  | _, _ => false

def adoptAppVersion (s : Membership) (sender : NodeAddress) (existing incoming : Member) :
    Membership :=
  let current := (s.get? incoming.address).getD existing
  let heldRun := current.address.incarnation
  let statedRun := incoming.address.incarnation
  if incoming.address.equals config.selfAddress then s
  else if isOtherRun heldRun statedRun then s
  else if incoming.address.equals sender then
    if current.appVersion = incoming.appVersion then s
    else s.setMember (current.withAppVersion incoming.appVersion)
  else if incoming.appVersion = none ∨ current.appVersion ≠ none then s
  else if heldRun = none ∨ statedRun = none then s
  else s.setMember (current.withAppVersion incoming.appVersion)

/-- News about a member that has an entry. -/
def replaceMember (s : Membership) (existing incoming : Member) : Membership :=
  if isRestartOf existing incoming then s.replaceIncarnation config existing incoming
  else (s.setMember incoming).emitStatusTransition config existing incoming

/-- A believable record for an address with an entry. -/
def mergeInto (s : Membership) (sender : NodeAddress) (existing incoming : Member) : Membership :=
  if existing.status = .removed ∧ existing.version < incoming.version then
    let (s, admitted) := s.admitsMember config incoming (some existing)
    if admitted then s.admitFirstSighting config incoming else s
  else if incoming.version ≤ existing.version ∧
      promotedAtEqualVersion existing incoming = false then
    ((s.adoptStorageIdentities config existing incoming).adoptConfigurationFacts config sender
      existing incoming).adoptAppVersion config sender existing incoming
  else
    let (s, admitted) := s.admitsMember config incoming (some existing)
    if admitted then s.replaceMember config existing incoming else s

/-- A record that passed every check. -/
def mergeAdmitted (s : Membership) (sender : NodeAddress) (incoming : Member) : Membership :=
  match s.get? incoming.address with
  | none =>
    let (s, admitted) := s.admitsMember config incoming none
    if admitted then s.admitFirstSighting config incoming else s
  | some existing => s.mergeInto config sender existing incoming

/-- A gossiped record. The sender and its status are those of the connection. -/
structure Report where
  now : ℚ
  sender : NodeAddress
  senderStatus : Option MemberStatus
  record : Member

def mergeMember (s : Membership) (report : Report) : Membership :=
  let incoming := withLocalSelfIdentity config report.record
  let (s, speaks) :=
    s.maySpeakFor config report.sender report.senderStatus incoming.address incoming.status
  if !speaks then s
  else
    let (s, believable) := s.admitsVersion config report.now incoming
    if !believable then s
    else
      let (s, fresh) := s.admitsTombstone config report.now incoming
      if !fresh then s else s.mergeAdmitted config report.sender incoming

def mergeMembers (s : Membership) (reports : List Report) : Membership :=
  reports.foldl (mergeMember config) s

end Membership

end ActorTs.Cluster
