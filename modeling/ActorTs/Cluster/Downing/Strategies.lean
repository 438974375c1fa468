import ActorTs.Cluster.Member

/-!
# Downing strategies

A strategy is given what one node sees of a split, the members and which of them it
cannot reach, and answers with the addresses to take down. All strategies look at the
same candidates: members that are up, leaving or marked unreachable, and that carry
the role the strategy is told to count, if any.

The nodes of a split do not see the same candidates: a member that is still joining counts on the
other sides only.
-/

namespace ActorTs.Cluster.Downing

/-- What a node sees: the members it knows, under keys of their own, and the keys of
those that it cannot reach. -/
structure ClusterPartitionView where
  allMembers : List Member
  unreachable : Finset JsString
  nodupKeys : (allMembers.map addrKey).Nodup

/-- `localeCompare` of two strings, which orders them and may hold two for equal. -/
structure LocaleCompare where
  le : JsString → JsString → Bool
  le_total : ∀ a b, le a b = true ∨ le b a = true
  le_trans : ∀ a b c, le a b = true → le b c = true → le a c = true

abbrev DowningDecision := Finset JsString

/-- The role that is counted; an empty one is none. -/
def carriesRole (role : Option JsString) (m : Member) : Bool :=
  match role with
  | none => true
  | some role => role.isEmpty || m.hasRole role

def isCandidate (role : Option JsString) (m : Member) : Bool :=
  decide (m.status = .up ∨ m.status = .leaving ∨ m.status = .unreachable) && carriesRole role m

namespace ClusterPartitionView

def candidates (view : ClusterPartitionView) (role : Option JsString) : List Member :=
  view.allMembers.filter (isCandidate role)

def reachable (view : ClusterPartitionView) (role : Option JsString) : List Member :=
  (view.candidates role).filter fun m => addrKey m ∉ view.unreachable

def unreachableCandidates (view : ClusterPartitionView) (role : Option JsString) : List Member :=
  (view.candidates role).filter fun m => addrKey m ∈ view.unreachable

end ClusterPartitionView

/-- `new Set(members.map(addrKey))`. -/
def keysOf (members : List Member) : DowningDecision := (members.map addrKey).toFinset

lemma mem_keysOf {members : List Member} {key : JsString} :
    key ∈ keysOf members ↔ ∃ m ∈ members, addrKey m = key := by
  simp [keysOf]

namespace KeepMajority

def decide (role : Option JsString) (view : ClusterPartitionView) : DowningDecision :=
  if (view.candidates role).length = 0 then ∅
  else
    let needed := (view.candidates role).length / 2 + 1
    if needed ≤ (view.reachable role).length then keysOf (view.unreachableCandidates role)
    else if needed ≤ (view.unreachableCandidates role).length then keysOf (view.reachable role)
    else keysOf (view.reachable role)

end KeepMajority

namespace KeepOldest

/-- The first of the candidates in the order of their addresses. -/
def oldest? (locale : LocaleCompare) (candidates : List Member) : Option Member :=
  (candidates.mergeSort fun a b => locale.le (addrKey a) (addrKey b)).head?

def decide (locale : LocaleCompare) (role : Option JsString) (downIfAlone : Bool)
    (view : ClusterPartitionView) : DowningDecision :=
  match oldest? locale (view.candidates role) with
  | none => ∅
  | some oldest =>
    if addrKey oldest ∉ view.unreachable then keysOf (view.unreachableCandidates role)
    else if downIfAlone then keysOf (view.reachable role)
    else keysOf (view.reachable role)

end KeepOldest

namespace KeepReferee

def decide (refereeAddress : JsString) (downAllIfBelowQuorum : Option ℕ)
    (view : ClusterPartitionView) : DowningDecision :=
  match (view.candidates none).find? fun m => addrKey m = refereeAddress with
  | none => ∅
  | some referee =>
    if addrKey referee ∉ view.unreachable then
      match downAllIfBelowQuorum with
      | none => keysOf (view.unreachableCandidates none)
      | some quorum =>
        if quorum ≠ 0 ∧ (view.reachable none).length < quorum then
          keysOf (view.reachable none ++ view.unreachableCandidates none)
        else keysOf (view.unreachableCandidates none)
    else keysOf (view.reachable none)

end KeepReferee

namespace StaticQuorum

def decide (quorumSize : ℕ) (role : Option JsString) (view : ClusterPartitionView) :
    DowningDecision :=
  if quorumSize ≤ (view.reachable role).length then keysOf (view.unreachableCandidates role)
  else keysOf (view.reachable role)

end StaticQuorum

/-- The strategies that come with the cluster, with their options. -/
inductive Strategy where
  | keepMajority (role : Option JsString)
  | keepOldest (role : Option JsString) (downIfAlone : Bool)
  | keepReferee (refereeAddress : JsString) (downAllIfBelowQuorum : Option ℕ)
  | staticQuorum (quorumSize : ℕ) (role : Option JsString)

namespace Strategy

/-- The role whose members are counted. -/
def role : Strategy → Option JsString
  | keepMajority role => role
  | keepOldest role _ => role
  | keepReferee _ _ => none
  | staticQuorum _ role => role

def decide (locale : LocaleCompare) : Strategy → ClusterPartitionView → DowningDecision
  | keepMajority role, view => KeepMajority.decide role view
  | keepOldest role downIfAlone, view => KeepOldest.decide locale role downIfAlone view
  | keepReferee refereeAddress quorum, view => KeepReferee.decide refereeAddress quorum view
  | staticQuorum quorumSize role, view => StaticQuorum.decide quorumSize role view

end Strategy

end ActorTs.Cluster.Downing
