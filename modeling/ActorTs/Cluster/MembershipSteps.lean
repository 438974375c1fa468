import ActorTs.Cluster.Membership

/-!
# What changes the members that a node knows

The frames of peers, the ticks of the node's own timers, the verdicts of the failure
detector and of the downing provider, and an operator: each is an input of `step`, and a
run is any list of them.

A gossip frame brings records, which are merged one after the other, and a sender, which
is filed as `joining` where it is not known. Behind each frame the node acts as a leader,
if it is the leader. A frame that is not newer than the last one of its peer is dropped.

The clock and the verdicts of the detector and of the downing provider are given with the input.
-/

namespace ActorTs.Cluster.Membership

variable (config : MembershipConfig)

def countsTowardUpThreshold (member : Member) : Bool :=
  decide (member.status = .joining ∨ member.status = .weaklyUp ∨ member.status = .up)

def upThresholdSatisfied (s : Membership) : Bool :=
  let present := s.members.values.filter countsTowardUpThreshold
  decide (config.minimumMembersBeforeUp ≤ present.length) &&
    config.minimumMembersBeforeUpPerRole.all fun p =>
      decide (p.2 ≤ (present.filter (Member.hasRole · p.1)).length)

def awaitsPromotion (member : Member) : Bool :=
  decide (member.status = .joining ∨ member.status = .weaklyUp)

/-- The node founds a cluster of its own, or waits until there are enough members. -/
def selfElect (s : Membership) : Membership :=
  if !s.started then s
  else match s.get? config.selfAddress with
    | none => s
    | some me =>
      if !awaitsPromotion me then s
      else if !s.upThresholdSatisfied config then { s with heldSelfElection := true }
      else { s with heldSelfElection := false }.updateMember config (me.withStatus .up)

def runHeldSelfElection (s : Membership) : Membership :=
  if s.heldSelfElection && s.upThresholdSatisfied config then
    { s with heldSelfElection := false }.selfElect config
  else s

def promote (s : Membership) (member : Member) : Membership :=
  if awaitsPromotion member then s.updateMember config (member.withStatus .up) else s

/-- The source goes through the table while it changes it, but only ever under the key it
is at. -/
def promoteJoiningMembers (s : Membership) : Membership :=
  if !s.isLeader config then s
  else if !s.upThresholdSatisfied config then s
  else s.members.values.foldl (promote config) s

def leaderActionsTick (s : Membership) : Membership :=
  if s.started then (s.runHeldSelfElection config).promoteJoiningMembers config else s

/-- A node that no leader has admitted in time. -/
def weaklyUpTick (s : Membership) : Membership :=
  match s.get? config.selfAddress with
  | some me => if me.status = .joining then s.updateMember config (me.withStatus .weaklyUp) else s
  | none => s

structure GossipMessage where
  /-- What the frame says its sender is. -/
  sender : NodeAddress
  sequence : ℚ
  members : List Member

/-- The frame is newer than the last one accepted from the peer. -/
def admitsGossipSequence (s : Membership) (now : ℚ) (peer : NodeAddress) (sequence : ℚ) : Bool :=
  decide (sequence ≤ now + config.maxVersionSkewMs) &&
    (s.acceptedGossipSequences.get? peer.toString).all fun last => decide (last < sequence)

def rememberGossipSequence (s : Membership) (peer : NodeAddress) (sequence : ℚ) : Membership :=
  if s.members.has peer.toString then
    { s with acceptedGossipSequences := s.acceptedGossipSequences.set peer.toString sequence }
  else s

/-- Whoever the frame says it is from is filed, if there is room. -/
def fileSender (s : Membership) (sender : NodeAddress) : Membership :=
  if s.members.has sender.toString then s
  else
    let member : Member := { address := sender, status := .joining, version := 1 }
    let (s, admitted) := s.admitsMember config member none
    if admitted then (s.setMember member).emit (.memberJoined member) else s

/-- The records of a frame, on the word of the peer of the connection. -/
def reportsOf (s : Membership) (now : ℚ) (peer : NodeAddress) (message : GossipMessage) :
    List Report :=
  message.members.map fun record =>
    { now, sender := peer, senderStatus := (s.get? peer).map Member.status, record }

def onGossip (s : Membership) (now : ℚ) (peer : NodeAddress) (message : GossipMessage) :
    Membership :=
  if s.admitsGossipSequence config now peer message.sequence then
    ((((s.mergeMembers config (s.reportsOf now peer message)).fileSender config
      message.sender).rememberGossipSequence peer message.sequence).leaderActionsTick config)
  else
    { s with
      refusalCounts.replayedFrame := s.refusalCounts.replayedFrame + message.members.length }

structure HeartbeatMessage where
  seq : ℚ
  /-- Absent where it is no finite number. -/
  ts : Option ℚ

def isPlausibleHeartbeat (now : ℚ) (message : HeartbeatMessage) : Bool :=
  decide (message.seq.den = 1 ∧ 0 ≤ message.seq ∧ message.seq ≤ 2 ^ 53 - 1) &&
    message.ts.any fun ts => decide (ts ≤ now + maxWallClockSkewMs)

/-- A member that was unreachable is up again once it is heard from. -/
def onHeartbeat (s : Membership) (now : ℚ) (peer : NodeAddress) (message : HeartbeatMessage) :
    Membership :=
  if !isPlausibleHeartbeat now message then s
  else match s.get? peer with
    | none => s
    | some existing =>
      if existing.status = .unreachable then
        let s := s.updateMember config (existing.withStatus .up)
        match s.get? peer with
        | some recovered =>
          if recovered.status = .up then s.emit (.memberReachable recovered) else s
        | none => s
      else s

/-- A node may only announce that it leaves itself. -/
def onLeave (s : Membership) (now : ℚ) (peer node : NodeAddress) : Membership :=
  if !node.equals peer then s
  else match s.get? node with
    | none => s
    | some existing =>
      let leaving := existing.withStatus .leaving
      let removed := leaving.withRemoved now
      (((s.setMember removed).emit (.memberLeft leaving)).emit
        (.memberRemoved removed)).maybeEmitLeaderChange config

inductive FailureDecision where
  | healthy | unreachable | down
  deriving DecidableEq

/-- What the detector says is told where it differs from what it said before. -/
def trackReachability (s : Membership) (member : Member) (decision : FailureDecision) :
    Membership :=
  let key := addrKey member
  if member.status = .down ∨ member.status = .removed then
    { s with reachability := s.reachability.delete key }
  else
    let reachable := decide (decision = .healthy)
    let previous := s.reachability.get? key
    if previous = some reachable then s
    else
      let s := { s with reachability := s.reachability.set key reachable }
      if previous = none ∧ reachable = true then s
      else s.emit (.reachabilityChanged member.address reachable)

/-- Where somebody else is to decide, a silent member is only marked. -/
def holdForResolver (s : Membership) (member : Member) : Membership :=
  if member.status = .unreachable then s
  else s.updateMember config (member.withStatus .unreachable)

/-- The member is gone without a tombstone. -/
def removeDetected (s : Membership) (member : Member) : Membership :=
  let downed := member.withStatus .down
  ((s.updateMember config downed).deleteMember member.address.toString).emit
    (.memberRemoved (downed.withStatus .removed))

def detectFailure (verdict : NodeAddress → FailureDecision) (s : Membership) (member : Member) :
    Membership :=
  if member.address.equals config.selfAddress then s
  else
    let decision := verdict member.address
    let s := s.trackReachability member decision
    if decision = .unreachable ∧ member.status = .up then
      s.updateMember config (member.withStatus .unreachable)
    else if decision = .down ∧ member.status ≠ .down ∧ member.status ≠ .removed then
      if config.downing || !config.failureDetectorAutoDown then s.holdForResolver config member
      else s.removeDetected config member
    else s

def failureDetectionTick (s : Membership) (verdict : NodeAddress → FailureDecision) :
    Membership :=
  s.members.values.foldl (detectFailure config verdict) s

/-- The member is down, and a tombstone stays. -/
def retire (s : Membership) (now : ℚ) (member : Member) : Membership :=
  let downed := member.withStatus .down
  let removed := downed.withRemoved now
  ((s.updateMember config downed).setMember removed).emit (.memberRemoved removed)

def forceDown (now : ℚ) (s : Membership) (key : JsString) : Membership :=
  if key = config.selfAddress.toString then s
  else match s.members.get? key with
    | none => s
    | some member =>
      if member.status = .down ∨ member.status = .removed then s
      else s.retire config now member

/-- The node stops being a member, and says so. -/
def leaveAtOnce (s : Membership) : Membership :=
  if !s.started then s
  else
    let s := { s with started := false }
    match s.get? config.selfAddress with
    | some me => s.updateMember config (me.withStatus .leaving)
    | none => s

def applyDowningDecision (s : Membership) (now : ℚ) (toDown : OrderedSet JsString) :
    Membership :=
  let s := toDown.elems.foldl (forceDown config now) s
  if toDown.has config.selfAddress.toString then s.leaveAtOnce config else s

/-- The operator's order, and whether it was followed. -/
def down (s : Membership) (now : ℚ) (key : JsString) : Membership × Bool :=
  if !s.started then (s, false)
  else match s.members.get? key with
    | none => (s, false)
    | some member =>
      if member.status = .down ∨ member.status = .removed then (s, false)
      else if member.address.equals config.selfAddress then (s, false)
      else (s.retire config now member, true)

/-- A tombstone is dropped once it is old enough. -/
def pruneEntry (now : ℚ) (s : Membership) (entry : JsString × Member) : Membership :=
  match entry.2.status, entry.2.removedAt with
  | .removed, some removedAt =>
    if now - removedAt < max config.tombstoneTtlMs config.tombstoneMinRetentionMs then s
    else s.deleteMember entry.1
  | _, _ => s

def tombstonePruneTick (s : Membership) (now : ℚ) : Membership :=
  s.members.entries.foldl (pruneEntry config now) s

/-- The node joins. -/
def start (now : ℚ) (selfRoles : List JsString) : Membership :=
  let me : Member :=
    { address := config.selfAddress, status := .joining, version := now, roles := selfRoles,
      storageIdentities := selfStorageIdentitiesSnapshot config
      appVersion := config.selfAppVersion }
  (({} : Membership).setMember me).emit (.memberJoined me)

inductive Input where
  | gossip (now : ℚ) (peer : NodeAddress) (message : GossipMessage)
  | heartbeat (now : ℚ) (peer : NodeAddress) (message : HeartbeatMessage)
  | leave (now : ℚ) (peer node : NodeAddress)
  | failureDetection (verdict : NodeAddress → FailureDecision)
  | downing (now : ℚ) (toDown : OrderedSet JsString)
  | down (now : ℚ) (key : JsString)
  | leaderActions
  | selfElection
  | weaklyUp
  | prune (now : ℚ)

def step (s : Membership) : Input → Membership
  | .gossip now peer message => s.onGossip config now peer message
  | .heartbeat now peer message => s.onHeartbeat config now peer message
  | .leave now peer node => s.onLeave config now peer node
  | .failureDetection verdict => s.failureDetectionTick config verdict
  | .downing now toDown => s.applyDowningDecision config now toDown
  | .down now key => (s.down config now key).1
  | .leaderActions => s.leaderActionsTick config
  | .selfElection => s.selfElect config
  | .weaklyUp => s.weaklyUpTick config
  | .prune now => s.tombstonePruneTick config now

def run (s : Membership) (inputs : List Input) : Membership := inputs.foldl (step config) s

/-- Along the inputs, each in the state it meets. -/
def Along (config : MembershipConfig) (P : Membership → Input → Prop) :
    Membership → List Input → Prop
  | _, [] => True
  | s, input :: inputs => P s input ∧ Along config P (s.step config input) inputs

end ActorTs.Cluster.Membership
