import ActorTs.Library.JsonNumber

/-!
# Members of a cluster

A member is what a node knows of a peer: its address, its status, a version that
orders what is known of it, and what the peer says of itself. The address in its
printed form is the key of every table of members; the incarnation, which tells one
run of a process from the next, is no part of it.

A version is a finite number of the wire, so it is a rational here.
-/

namespace ActorTs.Cluster

structure NodeAddress where
  systemName : JsString
  host : JsString
  port : ℕ
  incarnation : Option JsString := none
  deriving DecidableEq

namespace NodeAddress

def toString (a : NodeAddress) : JsString :=
  a.systemName ++ "@" ++ a.host ++ ":" ++ JsonText.decimal a.port

def equals (a b : NodeAddress) : Bool :=
  a.systemName = b.systemName ∧ a.host = b.host ∧ a.port = b.port

variable {a b : NodeAddress}

lemma equals_iff :
    a.equals b = true ↔ a.systemName = b.systemName ∧ a.host = b.host ∧ a.port = b.port := by
  simp [equals]

lemma toString_of_equals (h : a.equals b = true) : a.toString = b.toString := by
  obtain ⟨hname, hhost, hport⟩ := equals_iff.1 h
  rw [toString, toString, hname, hhost, hport]

lemma equals_congr_left (h : a.equals b = true) (c : NodeAddress) : a.equals c = b.equals c := by
  obtain ⟨hname, hhost, hport⟩ := equals_iff.1 h
  rw [equals, equals, hname, hhost, hport]

end NodeAddress

inductive MemberStatus where
  | joining | weaklyUp | up | unreachable | leaving | down | removed
  deriving DecidableEq

/-- The stores that a member says it reads. -/
structure StorageIdentities where
  journal : Option JsString := none
  snapshotStore : Option JsString := none
  durableStateStore : Option JsString := none
  deriving DecidableEq

structure Member where
  address : NodeAddress
  status : MemberStatus
  version : ℚ
  roles : List JsString := []
  /-- When a tombstone was made. -/
  removedAt : Option ℚ := none
  storageIdentities : Option StorageIdentities := none
  configurationFacts : Option (List (JsString × JsString)) := none
  appVersion : Option JsString := none
  deriving DecidableEq

def addrKey (m : Member) : JsString := m.address.toString

namespace Member

def hasRole (m : Member) (role : JsString) : Bool := decide (role ∈ m.roles)

def withStatus (m : Member) (status : MemberStatus) : Member :=
  { m with status := status, version := m.version + 1 }

def withRemoved (m : Member) (removedAt : ℚ) : Member :=
  { m with status := .removed, version := m.version + 1, removedAt := some removedAt }

def withStorageIdentities (m : Member) (identities : StorageIdentities) : Member :=
  { m with storageIdentities := some identities }

def withConfigurationFacts (m : Member) (facts : List (JsString × JsString)) : Member :=
  { m with configurationFacts := some facts }

def withAppVersion (m : Member) (appVersion : Option JsString) : Member :=
  { m with appVersion := appVersion }

variable (status : MemberStatus)

@[simp] lemma status_withStatus (m : Member) : (m.withStatus status).status = status := rfl

@[simp] lemma hasRole_withStatus (m : Member) (role : JsString) :
    (m.withStatus status).hasRole role = m.hasRole role := rfl

end Member

end ActorTs.Cluster
