import ActorTs.Crdt.DistributedData
import ActorTs.Crdt.LWW
import Mathlib

/-!
# A majority read observes the majority writes before it

Two majorities of the members have a node in common. That node holds what the
write broadcast from before the write was resolved on, since what a node holds
under a key only goes up, and it answers the read with what it holds. So what the
read merges absorbs what the write broadcast.

What a node holds goes up only where the mutators do: an update puts the outcome of its mutator in
the place of the value the mutator was handed. `Inflates` says that of one action, for one key.
`Inv` is the invariant of the runs whose actions all inflate: frames, pending requests and settled
promises are backed by what the nodes hold.
-/

open List Option Finset

namespace ActorTs.DistributedData

open OrderedMap LWWRegister Replica World

variable {ν V J I : Type*}

/-- On the values that satisfy `p` the merge is a semilattice up to `same`, none
are of conflicting kinds, and decoding inverts encoding. -/
structure OneKind (ops : CrdtOps V J I) (p : V → Prop) (same : V → V → Prop) : Prop where
  order : MergeOrderOn p same ops.merge
  mergeable : ∀ a b, p a → p b → ops.crdtKindConflict a b = false
  decodes : ∀ v identity, p v →
    ∃ v', ops.decodeCrdt (ops.toJSON v) identity = some v' ∧ p v' ∧ same v' v

/-! ### Quorums -/

section Quorums

variable [DecidableEq ν]

/-- Enough members for the consistency satisfy `φ`. -/
def Covers (cluster : Cluster ν) (consistency : Consistency) (φ : ν → Prop) : Prop :=
  ∃ Q ⊆ cluster.members.toFinset,
    clampQuorum consistency cluster.members.length ≤ Q.card ∧ ∀ x ∈ Q, φ x

variable {cluster : Cluster ν} {φ ψ : ν → Prop}

lemma Covers.mono {consistency : Consistency} (h : Covers cluster consistency φ)
    (himp : ∀ x, φ x → ψ x) : Covers cluster consistency ψ := by
  obtain ⟨Q, hmem, hcard, hQ⟩ := h
  exact ⟨Q, hmem, hcard, fun x hx => himp x (hQ x hx)⟩

lemma Covers.meet (h : Covers cluster .majority φ) (h' : Covers cluster .majority ψ) :
    ∃ x, φ x ∧ ψ x := by
  obtain ⟨Q, hmem, hcard, hQ⟩ := h
  obtain ⟨Q', hmem', hcard', hQ'⟩ := h'
  have htotal : cluster.members.toFinset.card = cluster.members.length :=
    toFinset_card_of_nodup cluster.nodup
  have hlt : cluster.members.toFinset.card < Q.card + Q'.card := by
    simp only [clampQuorum] at hcard hcard'
    omega
  obtain ⟨x, hx⟩ := inter_nonempty_of_card_lt_card_add_card hmem hmem' hlt
  rw [mem_inter] at hx
  exact ⟨x, hQ x hx.1, hQ' x hx.2⟩

lemma Cluster.one_add_length_peers (cluster : Cluster ν) {self : ν}
    (hself : self ∈ cluster.members) :
    1 + (cluster.node self).peers.length = cluster.members.length := by
  have hfilter : (cluster.node self).peers = cluster.members.erase self := by
    rw [Cluster.node, cluster.nodup.erase_eq_filter]
    refine filter_congr fun x _ => ?_
    by_cases hx : x = self <;> simp [hx]
  have hpos : 0 < cluster.members.length := length_pos_of_mem hself
  rw [hfilter, length_erase_of_mem hself]
  omega

@[simp] lemma Cluster.node_self (cluster : Cluster ν) (self : ν) :
    (cluster.node self).self = self := rfl

lemma Cluster.mem_of_mem_peers {self x : ν} (h : x ∈ (cluster.node self).peers) :
    x ∈ cluster.members :=
  mem_of_mem_filter h

end Quorums

/-! ### What a replica holds goes up -/

namespace Replica

variable {ops : CrdtOps V J I} {p : V → Prop} {same : V → V → Prop} {k : JsString}

variable (ops p same k) in
/-- What the first replica holds under the key, the second absorbs. -/
def Grows (r r' : Replica ν V I) : Prop :=
  (∀ v ∈ r.state.get? k, p v) →
    (∀ v ∈ r'.state.get? k, p v) ∧
      Below same ops.merge (r.state.get? k) (r'.state.get? k)

variable (hone : OneKind ops p same)

include hone

lemma Grows.of_eq {r r' : Replica ν V I} (h : r'.state.get? k = r.state.get? k) :
    Grows ops p same k r r' := by
  intro hr
  rw [h]
  exact ⟨hr, hone.order.below_refl hr⟩

lemma Grows.trans {r r' r'' : Replica ν V I} (h : Grows ops p same k r r')
    (h' : Grows ops p same k r' r'') : Grows ops p same k r r'' := by
  intro hr
  obtain ⟨hr', hbelow⟩ := h hr
  obtain ⟨hr'', hbelow'⟩ := h' hr'
  exact ⟨hr'', hone.order.below_trans hr hr' hr'' hbelow hbelow'⟩

variable (r : Replica ν V I)

omit hone in
lemma get?_applyMerged (key : JsString) (next : V) :
    (r.applyMerged key next).state.get? k = if key = k then some next else r.state.get? k := by
  rw [applyMerged, get?_set]

lemma Grows.applyMerged {r : Replica ν V I} {key : JsString} {next : V}
    (h : key = k → (∀ v ∈ r.state.get? k, p v) →
      p next ∧ Below same ops.merge (r.state.get? k) (some next)) :
    Grows ops p same k r (r.applyMerged key next) := by
  by_cases hkey : key = k
  · intro hr
    obtain ⟨hnext, hbelow⟩ := h hkey hr
    rw [get?_applyMerged, if_pos hkey]
    refine ⟨?_, hbelow⟩
    rintro v ⟨⟩
    exact hnext
  · exact Grows.of_eq hone (by rw [get?_applyMerged, if_neg hkey])

lemma Grows.repaired {r : Replica ν V I} {key : JsString} {current repaired : V} {i : Option I}
    (hcurrent : r.state.get? key = some current)
    (hdecoded : ops.decodeCrdt (ops.toJSON current) i = some repaired) :
    Grows ops p same k r (r.applyMerged key repaired) := by
  refine Grows.applyMerged hone fun hkey hr => ?_
  subst hkey
  have hp : p current := hr current hcurrent
  obtain ⟨v', hv', hpv', hsame⟩ := hone.decodes current i hp
  rw [hdecoded] at hv'
  cases hv'
  rw [hcurrent]
  exact ⟨hpv', hone.order.absorbs_of_same hpv' hp hsame⟩

lemma grows_repairKeying (key : JsString) (identity : I) :
    Grows ops p same k r (r.repairKeying ops key identity) := by
  rw [repairKeying]
  cases hcurrent : r.state.get? key with
  | none => exact Grows.of_eq hone rfl
  | some current =>
    simp only
    cases hdecoded : ops.decodeCrdt (ops.toJSON current) (some identity) with
    | some repaired => exact Grows.repaired hone hcurrent hdecoded
    | none =>
      simp only
      split
      · next repaired _ =>
        -- a value of the kind never gets here: it decodes
        refine Grows.applyMerged hone fun hkey hr => ?_
        subst hkey
        obtain ⟨v', hv', -⟩ := hone.decodes current (some identity) (hr current hcurrent)
        rw [hdecoded] at hv'
        cases hv'
      · exact Grows.of_eq hone rfl

lemma grows_learnIdentity (key : JsString) (factory : Option V) :
    Grows ops p same k r (r.learnIdentity ops key factory) := by
  unfold learnIdentity
  split
  · exact Grows.of_eq hone rfl
  · cases factory with
    | none => exact Grows.of_eq hone rfl
    | some template =>
      simp only
      split
      · exact Grows.of_eq hone rfl
      · next identity _ =>
        refine Grows.trans hone ?_ (grows_repairKeying hone _ key identity)
        exact Grows.of_eq hone rfl

lemma mergeReceived_eq {current : Option V} {incoming : V} (hcurrent : ∀ v ∈ current, p v)
    (hincoming : p incoming) :
    ∃ merged, mergeReceived ops current incoming = some merged ∧ p merged ∧
      Below same ops.merge current (some merged) ∧
      Below same ops.merge (some incoming) (some merged) := by
  cases current with
  | none =>
    exact ⟨incoming, rfl, hone.order.below_of_join (x := none) (by simp) hincoming rfl⟩
  | some held =>
    refine ⟨ops.merge held incoming, ?_,
      hone.order.below_of_join (x := some held) hcurrent hincoming rfl⟩
    have hmergeable := hone.mergeable held incoming (hcurrent held rfl) hincoming
    simp [mergeReceived, mergeOrKeep, hmergeable]

lemma grows_onGossipEntry (entry : JsString × J)
    (hentry : entry.1 = k → ∃ v, p v ∧ entry.2 = ops.toJSON v) :
    Grows ops p same k r (r.onGossipEntry ops entry) := by
  obtain ⟨key, json⟩ := entry
  rw [onGossipEntry]
  cases hdecoded : r.decodeOrDrop ops json key with
  | none => exact Grows.of_eq hone rfl
  | some incoming =>
    simp only
    cases hmerged : mergeReceived ops (r.state.get? key) incoming with
    | none => exact Grows.of_eq hone rfl
    | some merged =>
      refine Grows.applyMerged hone fun hkey hr => ?_
      subst hkey
      obtain ⟨v, hv, rfl⟩ := hentry rfl
      obtain ⟨v', hv', hpv', -⟩ := hone.decodes v (r.identityFor key) hv
      rw [decodeOrDrop, hv'] at hdecoded
      cases hdecoded
      obtain ⟨merged', hmerged', hpm, hbelow, -⟩ := mergeReceived_eq hone hr hpv'
      rw [hmerged] at hmerged'
      cases hmerged'
      exact ⟨hpm, hbelow⟩

lemma grows_onGossip (entries : List (JsString × J))
    (hentries : ∀ json, (k, json) ∈ entries → ∃ v, p v ∧ json = ops.toJSON v) :
    Grows ops p same k r (entries.foldl (onGossipEntry ops) r) := by
  induction entries generalizing r with
  | nil => exact Grows.of_eq hone rfl
  | cons entry entries ih =>
    refine Grows.trans hone (grows_onGossipEntry hone r entry fun hkey => ?_)
      (ih _ fun json hjson => hentries json (mem_cons_of_mem _ hjson))
    exact hentries entry.2 (hkey ▸ mem_cons_self)

end Replica

section Pending

variable (ops : CrdtOps V J I) (r : Replica ν V I)

lemma Replica.repairKeying_pending (key : JsString) (identity : I) :
    (r.repairKeying ops key identity).pendingWrites = r.pendingWrites ∧
      (r.repairKeying ops key identity).pendingReads = r.pendingReads := by
  rw [repairKeying]
  split
  · exact ⟨rfl, rfl⟩
  · split
    · exact ⟨rfl, rfl⟩
    · split <;> exact ⟨rfl, rfl⟩

lemma Replica.learnIdentity_pending (key : JsString) (factory : Option V) :
    (r.learnIdentity ops key factory).pendingWrites = r.pendingWrites ∧
      (r.learnIdentity ops key factory).pendingReads = r.pendingReads := by
  unfold learnIdentity
  split
  · exact ⟨rfl, rfl⟩
  · split
    · exact ⟨rfl, rfl⟩
    · simp only
      split
      · exact ⟨rfl, rfl⟩
      · exact repairKeying_pending ops _ key _

lemma Replica.onGossip_pending (entries : List (JsString × J)) :
    (entries.foldl (onGossipEntry ops) r).pendingWrites = r.pendingWrites ∧
      (entries.foldl (onGossipEntry ops) r).pendingReads = r.pendingReads := by
  induction entries generalizing r with
  | nil => exact ⟨rfl, rfl⟩
  | cons entry entries ih =>
    have hentry : (r.onGossipEntry ops entry).pendingWrites = r.pendingWrites ∧
        (r.onGossipEntry ops entry).pendingReads = r.pendingReads := by
      rw [onGossipEntry]
      split
      · exact ⟨rfl, rfl⟩
      · split <;> exact ⟨rfl, rfl⟩
    exact ⟨(ih _).1.trans hentry.1, (ih _).2.trans hentry.2⟩

end Pending

namespace World

variable [DecidableEq ν]

section Invariant

variable (ops : CrdtOps V J I) (p : V → Prop) (same : V → V → Prop) (k : JsString)

/-- The action is no update of the key, or its outcome absorbs what the node
held. -/
def Inflates (w : World ν V J I) : Action ν V → Prop
  | .update self key factory mutator _ => key = k →
      let learned := (w.replicas self).learnIdentity ops key factory
      ∀ next, learned.applyModifier key factory mutator = some next →
        p next ∧ Below same ops.merge (learned.state.get? key) (some next)
  | _ => True

instance [DecidablePred p] [DecidableRel same] (w : World ν V J I) (a : Action ν V) :
    Decidable (Inflates ops p same k w a) :=
  match a with
  | .update self key factory mutator _ =>
    inferInstanceAs (Decidable (key = k →
      ∀ next ∈ ((w.replicas self).learnIdentity ops key factory).applyModifier key factory
          mutator,
        p next ∧ Below same ops.merge
          (((w.replicas self).learnIdentity ops key factory).state.get? key) (some next)))
  | .read _ _ _ _ | .deliver _ | .gossip _ _ _ | .writeTimeout _ _ | .readTimeout _ _ =>
    isTrue trivial

/-- The second world is a later one, as far as the key is concerned. -/
structure Later (w w' : World ν V J I) : Prop where
  writes : ∀ i x, w.writes.get? i = some x → w'.writes.get? i = some x
  reads : ∀ i x, w.reads.get? i = some x → w'.reads.get? i = some x
  held : ∀ x, Below same ops.merge (w.held k x) (w'.held k x)

/-- The frame is backed by what was asked and by what the nodes hold. -/
def PacketOk (w : World ν V J I) (packet : Packet ν J) : Prop :=
  match packet.frame with
  | .gossip entries => ∀ json, (k, json) ∈ entries → ∃ v, p v ∧ json = ops.toJSON v
  | .writeRequest pendingId key json => key = k →
      ∃ write, w.writes.get? (packet.source, pendingId) = some write ∧ write.key = k ∧
        p write.value ∧ json = ops.toJSON write.value
  | .writeAcknowledgment pendingId key => key = k →
      ∃ write, w.writes.get? (packet.target, pendingId) = some write ∧ write.key = k ∧
        Below same ops.merge (some write.value) (w.held k packet.source)
  | .readRequest pendingId key => key = k →
      ∃ read, w.reads.get? (packet.source, pendingId) = some read ∧ read.key = k
  | .readResponse pendingId key json => key = k →
      ∃ read v, w.reads.get? (packet.target, pendingId) = some read ∧ read.key = k ∧
        json = v.map ops.toJSON ∧ (∀ x ∈ v, p x) ∧
        Below same ops.merge (read.held packet.source) v

variable (cluster : Cluster ν)

structure PendingWriteOk (w : World ν V J I) (node : ν) (pendingId : JsString)
    (pending : PendingWrite ν) (write : Write V) : Prop where
  asked : w.writes.get? (node, pendingId) = some write
  key : write.key = pending.key
  required : pending.required = clampQuorum write.consistency cluster.members.length
  targets : pending.targets ⊆ cluster.members.toFinset
  acks : pending.acks ⊆ cluster.members.toFinset
  merged : write.key = k →
    ∀ x ∈ pending.acks, Below same ops.merge (some write.value) (w.held k x)

structure PendingReadOk (w : World ν V J I) (node : ν) (pendingId : JsString)
    (pending : PendingRead ν V) (read : Read ν V) : Prop where
  asked : w.reads.get? (node, pendingId) = some read
  key : read.key = pending.key
  required : pending.required = clampQuorum read.consistency cluster.members.length
  targets : pending.targets ⊆ cluster.members.toFinset
  responses : pending.responses ⊆ cluster.members.toFinset
  kind : read.key = k → ∀ v ∈ pending.merged, p v
  merged : read.key = k →
    ∀ x ∈ pending.responses, Below same ops.merge (read.held x) pending.merged

/-- Every pending request of the replica is backed. -/
structure ReplicaOk (w : World ν V J I) (node : ν) (r : Replica ν V I) : Prop where
  writes : ∀ pendingId pending, r.pendingWrites.get? pendingId = some pending →
    ∃ write, PendingWriteOk ops same k cluster w node pendingId pending write
  reads : ∀ pendingId pending, r.pendingReads.get? pendingId = some pending →
    ∃ read, PendingReadOk ops p same k cluster w node pendingId pending read

/-- A write that is resolved is held by a quorum. -/
def WriteResolvedOk (w : World ν V J I) (i : ν × JsString) : Prop :=
  ∃ write, w.writes.get? i = some write ∧ (write.key = k →
    Covers cluster write.consistency fun x =>
      Below same ops.merge (some write.value) (w.held k x))

/-- A read that was issued saw the writes resolved before it, and the nodes hold
since then at least what they held. -/
structure ReadOk (w : World ν V J I) (read : Read ν V) : Prop where
  kind : ∀ x, ∀ v ∈ read.held x, p v
  held : ∀ x, Below same ops.merge (read.held x) (w.held k x)
  resolved : ∀ i ∈ read.resolvedBefore, ∃ write, w.writes.get? i = some write ∧ (write.key = k →
    Covers cluster write.consistency fun x =>
      Below same ops.merge (some write.value) (read.held x))

/-- A read that reached its quorum merged what a quorum held when it was issued. -/
def ReadResolvedOk (w : World ν V J I) (i : ν × JsString) (value : Option V) : Prop :=
  ∃ read, w.reads.get? i = some read ∧ (read.key = k → (∀ v ∈ value, p v) ∧
    Covers cluster read.consistency fun x => Below same ops.merge (read.held x) value)

structure Inv (w : World ν V J I) : Prop where
  kind : ∀ x, ∀ v ∈ w.held k x, p v
  wire : ∀ packet ∈ w.wire, PacketOk ops p same k w packet
  endpoints : ∀ packet ∈ w.wire, packet.source ∈ cluster.members ∧ packet.target ∈ cluster.members
  replicas : ∀ x, ReplicaOk ops p same k cluster w x (w.replicas x)
  writes : ∀ i write, w.writes.get? i = some write → write.key = k → p write.value
  resolvedWrites : ∀ i ∈ w.resolvedWrites, WriteResolvedOk ops same k cluster w i
  reads : ∀ i read, w.reads.get? i = some read → read.key = k →
    ReadOk ops p same k cluster w read
  resolvedReads : ∀ i value, (i, value, true) ∈ w.resolvedReads →
    ReadResolvedOk ops p same k cluster w i value

end Invariant

section Monotone

variable {ops : CrdtOps V J I} {p : V → Prop} {same : V → V → Prop} {k : JsString}
  {cluster : Cluster ν} {w w' : World ν V J I}

variable (horder : MergeOrderOn p same ops.merge) (hlater : Later ops same k w w')
  (hkind : ∀ x, ∀ v ∈ w.held k x, p v) (hkind' : ∀ x, ∀ v ∈ w'.held k x, p v)

include horder hlater hkind hkind'

lemma Later.below {x : ν} {y : Option V} (hy : ∀ v ∈ y, p v)
    (h : Below same ops.merge y (w.held k x)) : Below same ops.merge y (w'.held k x) :=
  horder.below_trans hy (hkind x) (hkind' x) h (hlater.held x)

lemma PacketOk.later {packet : Packet ν J}
    (hvalues : ∀ i write, w.writes.get? i = some write → write.key = k → p write.value)
    (h : PacketOk ops p same k w packet) : PacketOk ops p same k w' packet := by
  obtain ⟨source, target, frame⟩ := packet
  cases frame with
  | gossip entries => exact h
  | writeRequest pendingId key json =>
    intro hkey
    obtain ⟨write, hwrite, hrest⟩ := h hkey
    exact ⟨write, hlater.writes _ _ hwrite, hrest⟩
  | writeAcknowledgment pendingId key =>
    intro hkey
    obtain ⟨write, hwrite, hk, hbelow⟩ := h hkey
    refine ⟨write, hlater.writes _ _ hwrite, hk, ?_⟩
    refine hlater.below horder hkind hkind' ?_ hbelow
    rintro v ⟨⟩
    exact hvalues _ write hwrite hk
  | readRequest pendingId key =>
    intro hkey
    obtain ⟨read, hread, hk⟩ := h hkey
    exact ⟨read, hlater.reads _ _ hread, hk⟩
  | readResponse pendingId key json =>
    intro hkey
    obtain ⟨read, v, hread, hrest⟩ := h hkey
    exact ⟨read, v, hlater.reads _ _ hread, hrest⟩

lemma ReplicaOk.later {self : ν} {r : Replica ν V I}
    (hvalues : ∀ i write, w.writes.get? i = some write → write.key = k → p write.value)
    (h : ReplicaOk ops p same k cluster w self r) :
    ReplicaOk ops p same k cluster w' self r := by
  refine ⟨fun pendingId pending hpending => ?_, fun pendingId pending hpending => ?_⟩
  · obtain ⟨write, hok⟩ := h.writes pendingId pending hpending
    refine ⟨write, hlater.writes _ _ hok.asked, hok.key, hok.required, hok.targets, hok.acks,
      fun hk x hx => ?_⟩
    refine hlater.below horder hkind hkind' ?_ (hok.merged hk x hx)
    rintro v ⟨⟩
    exact hvalues _ write hok.asked hk
  · obtain ⟨read, hok⟩ := h.reads pendingId pending hpending
    exact ⟨read, hlater.reads _ _ hok.asked, hok.key, hok.required, hok.targets, hok.responses,
      hok.kind, hok.merged⟩

lemma WriteResolvedOk.later {i : ν × JsString}
    (hvalues : ∀ i write, w.writes.get? i = some write → write.key = k → p write.value)
    (h : WriteResolvedOk ops same k cluster w i) : WriteResolvedOk ops same k cluster w' i := by
  obtain ⟨write, hwrite, hcovers⟩ := h
  refine ⟨write, hlater.writes _ _ hwrite, fun hk => (hcovers hk).mono fun x hx => ?_⟩
  refine hlater.below horder hkind hkind' ?_ hx
  rintro v ⟨⟩
  exact hvalues _ write hwrite hk

lemma ReadOk.later {read : Read ν V} (h : ReadOk ops p same k cluster w read) :
    ReadOk ops p same k cluster w' read := by
  refine ⟨h.kind, fun x => hlater.below horder hkind hkind' (h.kind x) (h.held x), fun i hi => ?_⟩
  obtain ⟨write, hwrite, hcovers⟩ := h.resolved i hi
  exact ⟨write, hlater.writes _ _ hwrite, hcovers⟩

omit horder hkind hkind' in
lemma ReadResolvedOk.later {i : ν × JsString} {value : Option V}
    (h : ReadResolvedOk ops p same k cluster w i value) :
    ReadResolvedOk ops p same k cluster w' i value := by
  obtain ⟨read, hread, hcovers⟩ := h
  exact ⟨read, hlater.reads _ _ hread, hcovers⟩

end Monotone

section Turns

variable {ops : CrdtOps V J I} {p : V → Prop} {same : V → V → Prop} {k : JsString}
  {cluster : Cluster ν} {w : World ν V J I}

lemma ReplicaOk.congr {node : ν} {r r' : Replica ν V I}
    (h : ReplicaOk ops p same k cluster w node r) (hwrites : r'.pendingWrites = r.pendingWrites)
    (hreads : r'.pendingReads = r.pendingReads) : ReplicaOk ops p same k cluster w node r' :=
  ⟨hwrites ▸ h.writes, hreads ▸ h.reads⟩

lemma held_afterTurn (self : ν) (turn : Turn ν V J I) (x : ν) :
    (w.afterTurn self turn).held k x =
      if x = self then turn.replica.state.get? k else w.held k x := by
  simp only [held, afterTurn, Function.update_apply]
  split <;> rfl

variable {turn : Turn ν V J I} {self : ν}

lemma later_afterTurn (horder : MergeOrderOn p same ops.merge)
    (hkind : ∀ x, ∀ v ∈ w.held k x, p v)
    (hgrows : Below same ops.merge (w.held k self) (turn.replica.state.get? k)) :
    Later ops same k w (w.afterTurn self turn) := by
  refine ⟨fun _ _ h => h, fun _ _ h => h, fun x => ?_⟩
  rw [held_afterTurn]
  split
  · next hx => exact hx ▸ hgrows
  · exact horder.below_refl (hkind x)

lemma kind_afterTurn (hkind : ∀ x, ∀ v ∈ w.held k x, p v)
    (hturn : ∀ v ∈ turn.replica.state.get? k, p v) :
    ∀ x, ∀ v ∈ (w.afterTurn self turn).held k x, p v := by
  intro x v hv
  rw [held_afterTurn] at hv
  split at hv
  · exact hturn v hv
  · exact hkind x v hv

lemma Inv.afterTurn (horder : MergeOrderOn p same ops.merge) (h : Inv ops p same k cluster w)
    (hself : self ∈ cluster.members) (hkind : ∀ v ∈ turn.replica.state.get? k, p v)
    (hgrows : Below same ops.merge (w.held k self) (turn.replica.state.get? k))
    (hsent : ∀ x ∈ turn.sent, x.1 ∈ cluster.members ∧
      PacketOk ops p same k (w.afterTurn self turn) ⟨self, x.1, x.2⟩)
    (hreplica : ReplicaOk ops p same k cluster (w.afterTurn self turn) self turn.replica)
    (hwrite : ∀ pendingId, turn.settled = some (pendingId, .writeResolved) →
      WriteResolvedOk ops same k cluster (w.afterTurn self turn) (self, pendingId))
    (hread : ∀ pendingId value, turn.settled = some (pendingId, .readResolved value true) →
      ReadResolvedOk ops p same k cluster (w.afterTurn self turn) (self, pendingId) value) :
    Inv ops p same k cluster (w.afterTurn self turn) := by
  have hkind' : ∀ x, ∀ v ∈ (w.afterTurn self turn).held k x, p v := kind_afterTurn h.kind hkind
  have hlater := later_afterTurn horder h.kind hgrows
  refine ⟨hkind', fun packet hp => ?_, fun packet hp => ?_, fun x => ?_, h.writes, fun i hi => ?_,
    fun i read hread' hk => ?_, fun i value hi => ?_⟩
  · rcases mem_append.1 hp with hp | hp
    · exact (h.wire packet hp).later horder hlater h.kind hkind' h.writes
    · obtain ⟨x, hx, rfl⟩ := mem_map.1 hp
      exact (hsent x hx).2
  · rcases mem_append.1 hp with hp | hp
    · exact h.endpoints packet hp
    · obtain ⟨x, hx, rfl⟩ := mem_map.1 hp
      exact ⟨hself, (hsent x hx).1⟩
  · by_cases hx : x = self
    · subst hx
      exact hreplica.congr (by simp [afterTurn]) (by simp [afterTurn])
    · refine ((h.replicas x).later horder hlater h.kind hkind' h.writes).congr ?_ ?_
      · simp [World.afterTurn, hx]
      · simp [World.afterTurn, hx]
  · have hold := fun hi => (h.resolvedWrites i hi).later horder hlater h.kind hkind' h.writes
    simp only [World.afterTurn] at hi
    split at hi
    · next pendingId hsettled =>
      rcases mem_append.1 hi with hi | hi
      · exact hold hi
      · rw [List.mem_singleton.1 hi]
        exact hwrite pendingId hsettled
    · exact hold hi
  · exact (h.reads i read hread' hk).later horder hlater h.kind hkind'
  · have hold := fun hi => (h.resolvedReads i value hi).later hlater
    simp only [World.afterTurn] at hi
    split at hi
    · next pendingId value' byQuorum hsettled =>
      rcases mem_append.1 hi with hi | hi
      · exact hold hi
      · have heq := List.mem_singleton.1 hi
        cases heq
        exact hread pendingId value hsettled
    · exact hold hi

/-- A turn that settles nothing as done, sends what is backed, and leaves the
pending requests alone. -/
lemma Inv.afterQuietTurn (horder : MergeOrderOn p same ops.merge) (h : Inv ops p same k cluster w)
    (hself : self ∈ cluster.members) (hgrows : (∀ v ∈ turn.replica.state.get? k, p v) ∧
      Below same ops.merge (w.held k self) (turn.replica.state.get? k))
    (hsent : ∀ x ∈ turn.sent, x.1 ∈ cluster.members ∧
      PacketOk ops p same k (w.afterTurn self turn) ⟨self, x.1, x.2⟩)
    (hwrites : turn.replica.pendingWrites = (w.replicas self).pendingWrites)
    (hreads : turn.replica.pendingReads = (w.replicas self).pendingReads)
    (hwrite : ∀ pendingId, turn.settled ≠ some (pendingId, .writeResolved))
    (hread : ∀ pendingId value, turn.settled ≠ some (pendingId, .readResolved value true)) :
    Inv ops p same k cluster (w.afterTurn self turn) := by
  have hlater := later_afterTurn horder h.kind hgrows.2
  refine h.afterTurn horder hself hgrows.1 hgrows.2 hsent ?_
    (fun pendingId hs => absurd hs (hwrite pendingId))
    (fun pendingId value hs => absurd hs (hread pendingId value))
  exact ((h.replicas self).later horder hlater h.kind (kind_afterTurn h.kind hgrows.1)
    h.writes).congr hwrites hreads

end Turns

section Steps

variable {ops : CrdtOps V J I} {p : V → Prop} {same : V → V → Prop} {k : JsString}
  {cluster : Cluster ν} {w : World ν V J I}

variable {self : ν} {key : JsString} {factory : Option V} {mutator : V → Option V}
  {quorum : Option Quorum}

variable {pendingId : JsString}

variable {r : Replica ν V I} {consistency : Consistency}

section

variable (horder : MergeOrderOn p same ops.merge)
include horder

section

variable (h : Inv ops p same k cluster w)
include h

lemma Inv.record
    {writes : OrderedMap (ν × JsString) (Write V)} {reads : OrderedMap (ν × JsString) (Read ν V)}
    (hwrites : ∀ i x, w.writes.get? i = some x → writes.get? i = some x)
    (hreads : ∀ i x, w.reads.get? i = some x → reads.get? i = some x)
    (hvalues : ∀ i write, writes.get? i = some write → write.key = k → p write.value)
    (hread : ∀ i read, reads.get? i = some read → w.reads.get? i ≠ some read → read.key = k →
      ReadOk ops p same k cluster w read) :
    Inv ops p same k cluster { w with writes := writes, reads := reads } := by
  have hlater : Later ops same k w { w with writes := writes, reads := reads } :=
    ⟨hwrites, hreads, fun x => horder.below_refl (h.kind x)⟩
  refine ⟨h.kind, fun packet hp => (h.wire packet hp).later horder hlater h.kind h.kind h.writes,
    h.endpoints, fun x => (h.replicas x).later horder hlater h.kind h.kind h.writes, hvalues,
    fun i hi => (h.resolvedWrites i hi).later horder hlater h.kind h.kind h.writes, ?_,
    fun i value hi => (h.resolvedReads i value hi).later hlater⟩
  intro i read hi hk
  by_cases hold : w.reads.get? i = some read
  · exact (h.reads i read hold hk).later horder hlater h.kind h.kind
  · exact (hread i read hi hold hk).later horder hlater h.kind h.kind

lemma Inv.recordWrite (hunused : ∀ q ∈ quorum, w.Unused self q.pendingId)
    (hnext : key = k → ∀ next, ((w.replicas self).learnIdentity ops key factory).applyModifier key
      factory mutator = some next → p next) :
    Inv ops p same k cluster (w.recordWrite ops self key factory mutator quorum) := by
  unfold World.recordWrite
  split
  · next q next hmodified =>
    have hnew : w.writes.get? (self, q.pendingId) = none := by
      simpa [has] using (hunused q rfl).1
    refine h.record horder (fun i x hx => ?_) (fun _ _ hx => hx) (fun i write hwrite hk => ?_)
      (fun i read hread hold _ => absurd hread hold)
    · rw [get?_set, if_neg, hx]
      rintro rfl
      rw [hnew] at hx
      cases hx
    · rw [get?_set] at hwrite
      split at hwrite
      · cases hwrite
        exact hnext hk next hmodified
      · exact h.writes i write hwrite hk
  · exact h

lemma Inv.recordRead (key : JsString) (consistency : Consistency)
    (hunused : w.Unused self pendingId) :
    Inv ops p same k cluster (w.recordRead self key pendingId consistency) := by
  have hnew : w.reads.get? (self, pendingId) = none := by
    simpa [has] using hunused.2
  refine h.record horder (fun _ _ hx => hx) (fun i x hx => ?_) h.writes
    (fun i read hread hold hk => ?_)
  · rw [get?_set, if_neg, hx]
    rintro rfl
    rw [hnew] at hx
    cases hx
  · rw [get?_set] at hread
    split at hread
    · cases hread
      -- what is recorded of a read is what the nodes hold at this moment
      cases hk
      refine ⟨h.kind, fun x => horder.below_refl (h.kind x), fun i hi => ?_⟩
      exact h.resolvedWrites i hi
    · exact absurd hread hold

lemma Inv.replicaOk_afterTurn
    {turn : Turn ν V J I}
    (hgrows : (∀ v ∈ turn.replica.state.get? k, p v) ∧
      Below same ops.merge (w.held k self) (turn.replica.state.get? k))
    (hr : ReplicaOk ops p same k cluster w self r) :
    ReplicaOk ops p same k cluster (w.afterTurn self turn) self r :=
  hr.later horder (later_afterTurn horder h.kind hgrows.2) h.kind (kind_afterTurn h.kind hgrows.1)
    h.writes

end

end

lemma covers_self (hself : self ∈ cluster.members) (hcard : ({self} : Finset ν).card ≥
      clampQuorum consistency (1 + (cluster.node self).peers.length)) {φ : ν → Prop} (hφ : φ self) :
    Covers cluster consistency φ := by
  rw [cluster.one_add_length_peers hself] at hcard
  refine ⟨{self}, by simpa using hself, hcard, fun x hx => ?_⟩
  rw [Finset.mem_singleton.1 hx]
  exact hφ

lemma ReplicaOk.change {node : ν} {r' : Replica ν V I}
    (h : ReplicaOk ops p same k cluster w node r)
    (hwrites : ∀ i pending, r'.pendingWrites.get? i = some pending →
      r.pendingWrites.get? i = some pending ∨
        ∃ write, PendingWriteOk ops same k cluster w node i pending write)
    (hreads : ∀ i pending, r'.pendingReads.get? i = some pending →
      r.pendingReads.get? i = some pending ∨
        ∃ read, PendingReadOk ops p same k cluster w node i pending read) :
    ReplicaOk ops p same k cluster w node r' := by
  refine ⟨fun i pending hi => ?_, fun i pending hi => ?_⟩
  · rcases hwrites i pending hi with hold | hnew
    · exact h.writes i pending hold
    · exact hnew
  · rcases hreads i pending hi with hold | hnew
    · exact h.reads i pending hold
    · exact hnew

variable {source target : ν}

section

variable (hone : OneKind ops p same)
include hone

omit [DecidableEq ν] in
lemma grows_update {next : V}
    (hinflates : Inflates ops p same k w (.update self key factory mutator quorum))
    (hnext : ((w.replicas self).learnIdentity ops key factory).applyModifier key factory mutator =
      some next) :
    Grows ops p same k (w.replicas self)
      (((w.replicas self).learnIdentity ops key factory).applyMerged key next) := by
  refine Replica.Grows.trans hone (grows_learnIdentity hone _ key factory)
    (Replica.Grows.applyMerged hone fun hkey _ => ?_)
  subst hkey
  exact hinflates rfl next hnext

section

variable (h : Inv ops p same k cluster w)
include h

lemma Inv.onUpdate (hself : self ∈ cluster.members)
    (hunused : ∀ q ∈ quorum, w.Unused self q.pendingId)
    (hinflates : Inflates ops p same k w (.update self key factory mutator quorum)) :
    Inv ops p same k cluster ((w.recordWrite ops self key factory mutator quorum).afterTurn self
      ((w.replicas self).onUpdate ops (cluster.node self) key factory mutator quorum)) := by
  have hrecorded := h.recordWrite hone.order hunused fun hkey next hnext =>
    (hinflates hkey next hnext).1
  have hreplica : (w.recordWrite ops self key factory mutator quorum).replicas = w.replicas := by
    unfold World.recordWrite
    split <;> rfl
  have hwritten : ∀ q ∈ quorum, ∀ next, ((w.replicas self).learnIdentity ops key
        factory).applyModifier key factory mutator = some next →
      (w.recordWrite ops self key factory mutator quorum).writes.get? (self, q.pendingId) =
        some ⟨key, q.consistency, next⟩ := by
    rintro q ⟨⟩ next hnext
    simp [World.recordWrite, hnext]
  -- from here on the write is on record and the replica is the one before
  generalize w.recordWrite ops self key factory mutator quorum = w₁ at hrecorded hreplica hwritten ⊢
  have hheld : w₁.held k self = (w.replicas self).state.get? k := by rw [held, hreplica]
  obtain ⟨hwrites, hreads⟩ := learnIdentity_pending ops (w.replicas self) key factory
  have hpending : (w.replicas self).pendingWrites = (w₁.replicas self).pendingWrites ∧
      (w.replicas self).pendingReads = (w₁.replicas self).pendingReads := by
    rw [hreplica]
    exact ⟨rfl, rfl⟩
  rw [hpending.1] at hwrites
  rw [hpending.2] at hreads
  unfold Replica.onUpdate
  cases hmodified : ((w.replicas self).learnIdentity ops key factory).applyModifier key factory
      mutator with
  | none =>
    simp only [hmodified]
    have hlearned := grows_learnIdentity hone (w.replicas self) key factory (h.kind self)
    exact hrecorded.afterQuietTurn hone.order hself (hheld ▸ hlearned) (by simp)
      hwrites hreads (by simp) (by simp)
  | some next =>
    have hgrows := grows_update hone hinflates hmodified (h.kind self)
    rw [← hheld] at hgrows
    simp only [hmodified]
    cases quorum with
    | none =>
      exact hrecorded.afterQuietTurn hone.order hself hgrows (by simp)
        hwrites hreads (by simp) (by simp)
    | some q =>
      have hasked := hwritten q rfl next hmodified
      have hself' : key = k → Below same ops.merge (some next)
          ((((w.replicas self).learnIdentity ops key factory).applyMerged key
            next).state.get? k) := by
        intro hkey
        rw [get?_applyMerged, if_pos hkey]
        exact hone.order.absorbs_refl (hinflates hkey next hmodified).1
      simp only
      split
      · next hcard =>
        refine hrecorded.afterTurn hone.order hself hgrows.1 hgrows.2 (by simp) ?_ ?_ (by simp)
        · exact (hrecorded.replicaOk_afterTurn hone.order hgrows (hrecorded.replicas self)).congr
            hwrites hreads
        · rintro pendingId ⟨⟩
          refine ⟨_, hasked, fun hkey => covers_self hself hcard ?_⟩
          rw [held_afterTurn, if_pos rfl]
          exact hself' hkey
      · split
        · exact hrecorded.afterQuietTurn hone.order hself hgrows (by simp)
            hwrites hreads (by simp) (by simp)
        · refine hrecorded.afterTurn hone.order hself hgrows.1 hgrows.2 ?_ ?_ (by simp) (by simp)
          · intro x hx
            obtain ⟨peer, hpeer, rfl⟩ := mem_map.1 hx
            refine ⟨Cluster.mem_of_mem_peers hpeer, fun hkey => ⟨_, hasked, hkey, ?_⟩⟩
            exact ⟨(hinflates hkey next hmodified).1, rfl⟩
          · refine (hrecorded.replicaOk_afterTurn hone.order hgrows (hrecorded.replicas self)).change
              (fun i pending hi => ?_) (fun i pending hi => .inl ?_)
            · rcases get?_set_cases hi with ⟨rfl, rfl⟩ | hold
              · refine .inr ⟨_, hasked, rfl, ?_, ?_, ?_, fun hkey x hx => ?_⟩
                · rw [← cluster.one_add_length_peers hself]
                · intro x hx
                  exact mem_toFinset.2 (Cluster.mem_of_mem_peers (mem_toFinset.1 hx))
                · simpa using hself
                · rw [Finset.mem_singleton.1 hx, cluster.node_self, held_afterTurn, if_pos rfl]
                  exact hself' hkey
              · exact .inl (hwrites ▸ hold)
            · exact hreads ▸ hi

lemma Inv.grows_refl (hr : r.state = (w.replicas self).state) :
    (∀ v ∈ r.state.get? k, p v) ∧ Below same ops.merge (w.held k self) (r.state.get? k) := by
  rw [hr]
  exact ⟨h.kind self, hone.order.below_refl (h.kind self)⟩

/-- A turn that tells nothing and leaves the values as they are. -/
lemma Inv.settles (hself : self ∈ cluster.members) {turn : Turn ν V J I}
    (hstate : turn.replica.state = (w.replicas self).state) (hsent : turn.sent = [])
    (hreplica : ReplicaOk ops p same k cluster w self turn.replica)
    (hwrite : ∀ pendingId, turn.settled = some (pendingId, .writeResolved) →
      WriteResolvedOk ops same k cluster w (self, pendingId))
    (hread : ∀ pendingId value, turn.settled = some (pendingId, .readResolved value true) →
      ReadResolvedOk ops p same k cluster w (self, pendingId) value) :
    Inv ops p same k cluster (w.afterTurn self turn) := by
  have hgrows := h.grows_refl hone hstate
  have hlater := later_afterTurn hone.order h.kind hgrows.2
  refine h.afterTurn hone.order hself hgrows.1 hgrows.2 (by simp [hsent])
    (h.replicaOk_afterTurn hone.order hgrows hreplica) (fun i hi => ?_)
    fun i value hi => (hread i value hi).later hlater
  exact (hwrite i hi).later hone.order hlater h.kind (kind_afterTurn h.kind hgrows.1) h.writes

lemma Inv.idle (hself : self ∈ cluster.members) :
    Inv ops p same k cluster (w.afterTurn self { replica := w.replicas self }) :=
  h.settles hone hself rfl rfl (h.replicas self) (by simp) (by simp)

lemma Inv.onRead (hself : self ∈ cluster.members) (hunused : w.Unused self pendingId) :
    Inv ops p same k cluster ((w.recordRead self key pendingId consistency).afterTurn self
      ((w.replicas self).onRead (cluster.node self) key pendingId consistency)) := by
  have hrecorded := h.recordRead hone.order key consistency hunused
  have hasked : (w.recordRead self key pendingId consistency).reads.get? (self, pendingId) =
      some ⟨key, consistency, w.resolvedWrites, w.held key⟩ :=
    get?_set_self _ _ _
  have hgrows : ∀ r : Replica ν V I, r.state = (w.replicas self).state →
      (∀ v ∈ r.state.get? k, p v) ∧ Below same ops.merge
        ((w.recordRead self key pendingId consistency).held k self) (r.state.get? k) :=
    fun r hr => hrecorded.grows_refl hone hr
  unfold Replica.onRead
  simp only
  split
  · next hcard =>
    refine hrecorded.afterTurn hone.order hself (hgrows _ rfl).1 (hgrows _ rfl).2 (by simp)
      (hrecorded.replicaOk_afterTurn hone.order (hgrows _ rfl) (hrecorded.replicas self)) (by simp) ?_
    rintro i value ⟨⟩
    refine ⟨_, hasked, ?_⟩
    rintro rfl
    exact ⟨h.kind self, covers_self hself hcard (hone.order.below_refl (h.kind self))⟩
  · split
    · exact hrecorded.afterQuietTurn hone.order hself (hgrows _ rfl) (by simp) rfl rfl (by simp)
        (by simp)
    · refine hrecorded.afterTurn hone.order hself (hgrows _ rfl).1 (hgrows _ rfl).2 ?_ ?_ (by simp)
        (by simp)
      · intro x hx
        obtain ⟨peer, hpeer, rfl⟩ := mem_map.1 hx
        exact ⟨Cluster.mem_of_mem_peers hpeer, fun hkey => ⟨_, hasked, hkey⟩⟩
      · refine (hrecorded.replicaOk_afterTurn hone.order (hgrows _ rfl)
          (hrecorded.replicas self)).change
          (fun i pending hi => .inl hi) (fun i pending hi => ?_)
        rcases get?_set_cases hi with ⟨rfl, rfl⟩ | hold
        · refine .inr ⟨_, hasked, rfl, ?_, ?_, ?_, ?_, ?_⟩
          · rw [← cluster.one_add_length_peers hself]
          · intro x hx
            exact mem_toFinset.2 (Cluster.mem_of_mem_peers (mem_toFinset.1 hx))
          · simpa using hself
          · rintro rfl
            exact h.kind self
          · rintro rfl x hx
            rw [Finset.mem_singleton.1 hx]
            exact hone.order.below_refl (h.kind self)
        · exact .inl hold

lemma Inv.onGossip {entries : List (JsString × J)}
    (hp : ⟨source, target, .gossip entries⟩ ∈ w.wire) :
    Inv ops p same k cluster (w.afterTurn target
      ((w.replicas target).onGossip ops (cluster.node target) source entries)) := by
  have hself := (h.endpoints _ hp).2
  unfold Replica.onGossip
  split
  · exact h.idle hone hself
  · have hpending := onGossip_pending ops (w.replicas target) entries
    exact h.afterQuietTurn hone.order hself
      (grows_onGossip hone (w.replicas target) entries (h.wire _ hp) (h.kind target))
      (by simp) hpending.1 hpending.2 (by simp) (by simp)

lemma Inv.onWriteRequest {json : J}
    (hp : ⟨source, target, .writeRequest pendingId key json⟩ ∈ w.wire) :
    Inv ops p same k cluster (w.afterTurn target
      ((w.replicas target).onWriteRequest ops source pendingId key json)) := by
  obtain ⟨hsource, htarget⟩ := h.endpoints _ hp
  have hquiet := h.idle hone htarget
  unfold Replica.onWriteRequest
  cases hdecoded : (w.replicas target).decodeOrDrop ops json key with
  | none => exact hquiet
  | some incoming =>
    simp only
    cases hmerged : mergeReceived ops ((w.replicas target).state.get? key) incoming with
    | none => exact hquiet
    | some merged =>
      have hfits : key = k → (∃ write, w.writes.get? (source, pendingId) = some write ∧
          write.key = k ∧ Below same ops.merge (some write.value) (some merged)) ∧
            p merged ∧ Below same ops.merge (w.held k target) (some merged) := by
        rintro rfl
        obtain ⟨write, hwrite, hkey, hpw, rfl⟩ := h.wire _ hp rfl
        obtain ⟨v', hv', hpv', hsame⟩ := hone.decodes write.value
          ((w.replicas target).identityFor key) hpw
        rw [decodeOrDrop, hv'] at hdecoded
        cases hdecoded
        obtain ⟨merged', hmerged', hpm, hbelow, hin⟩ :=
          mergeReceived_eq hone (h.kind target) hpv'
        rw [held] at hmerged'
        rw [hmerged] at hmerged'
        cases hmerged'
        refine ⟨⟨write, hwrite, hkey, ?_⟩, hpm, hbelow⟩
        exact hone.order.absorbs_trans hpw hpv' hpm hin (hone.order.absorbs_of_same hpv' hpw hsame)
      have hgrows : Grows ops p same k (w.replicas target)
          ((w.replicas target).applyMerged key merged) :=
        Replica.Grows.applyMerged hone fun hkey _ => (hfits hkey).2
      refine h.afterQuietTurn hone.order htarget (hgrows (h.kind target)) ?_ rfl rfl (by simp)
        (by simp)
      intro x hx
      rw [List.mem_singleton] at hx
      subst hx
      refine ⟨hsource, fun hkey => ?_⟩
      obtain ⟨⟨write, hwrite, hwkey, hbelow⟩, -⟩ := hfits hkey
      refine ⟨write, hwrite, hwkey, ?_⟩
      rw [held_afterTurn, if_pos rfl, get?_applyMerged, if_pos hkey]
      exact hbelow

lemma Inv.onReadRequest (hp : ⟨source, target, .readRequest pendingId key⟩ ∈ w.wire) :
    Inv ops p same k cluster (w.afterTurn target
      ((w.replicas target).onReadRequest ops source pendingId key)) := by
  obtain ⟨hsource, htarget⟩ := h.endpoints _ hp
  refine h.afterQuietTurn hone.order htarget (h.grows_refl hone rfl) ?_ rfl rfl
    (by simp [Replica.onReadRequest]) (by simp [Replica.onReadRequest])
  intro x hx
  rw [Replica.onReadRequest, List.mem_singleton] at hx
  subst hx
  refine ⟨hsource, ?_⟩
  rintro rfl
  obtain ⟨read, hread, hkey⟩ := h.wire _ hp rfl
  exact ⟨read, _, hread, hkey, rfl, h.kind target, (h.reads _ read hread hkey).held target⟩

end

end

/-- A node that acknowledged joins those that hold what the write broadcast. -/
lemma Inv.pendingWrite_insert (h : Inv ops p same k cluster w) {pending : PendingWrite ν}
    (hp : ⟨source, target, .writeAcknowledgment pendingId pending.key⟩ ∈ w.wire)
    (hpending : (w.replicas target).pendingWrites.get? pendingId = some pending)
    (hmem : source ∈ pending.targets) :
    ∃ write, PendingWriteOk ops same k cluster w target pendingId
      { pending with acks := insert source pending.acks } write := by
  obtain ⟨write, hok⟩ := (h.replicas target).writes pendingId pending hpending
  refine ⟨write, hok.asked, hok.key, hok.required, hok.targets, ?_, fun hk x hx => ?_⟩
  · exact insert_subset (hok.targets hmem) hok.acks
  · obtain ⟨write', hwrite', -, hbelow⟩ := h.wire _ hp (hok.key.symm.trans hk)
    rw [hok.asked] at hwrite'
    cases hwrite'
    rcases mem_insert.1 hx with rfl | hx
    · exact hbelow
    · exact hok.merged hk x hx

section

variable (hone : OneKind ops p same)
include hone

section

variable (h : Inv ops p same k cluster w)
include h

lemma Inv.onWriteAcknowledgment
    (hp : ⟨source, target, .writeAcknowledgment pendingId key⟩ ∈ w.wire) :
    Inv ops p same k cluster (w.afterTurn target
      ((w.replicas target).onWriteAcknowledgment source pendingId key)) := by
  obtain ⟨-, htarget⟩ := h.endpoints _ hp
  have hquiet := h.idle hone htarget
  unfold Replica.onWriteAcknowledgment
  cases hpending : (w.replicas target).pendingWrites.get? pendingId with
  | none => exact hquiet
  | some pending =>
    simp only
    split
    · exact hquiet
    split
    · exact hquiet
    split
    · exact hquiet
    next hkey hmem _ =>
    rw [not_not] at hkey hmem
    subst hkey
    obtain ⟨write, hok⟩ := h.pendingWrite_insert hp hpending hmem
    split
    · next hcard =>
      refine h.settles hone htarget rfl rfl ?_ (fun i hi => ?_) (by simp)
      · exact (h.replicas target).change
          (fun i q hi => .inl (get?_of_get?_delete hi)) (fun i q hi => .inl hi)
      · cases hi
        refine ⟨write, hok.asked, fun hk => ⟨_, hok.acks, ?_, hok.merged hk⟩⟩
        rw [← hok.required]
        exact hcard
    · refine h.settles hone htarget rfl rfl ?_ (by simp) (by simp)
      refine (h.replicas target).change (fun i q hi => ?_) (fun i q hi => .inl hi)
      rcases get?_set_cases hi with ⟨rfl, rfl⟩ | hold
      · exact .inr ⟨write, hok⟩
      · exact .inl hold

lemma Inv.pendingRead_insert {pending : PendingRead ν V} {json : Option J}
    (hp : ⟨source, target, .readResponse pendingId pending.key json⟩ ∈ w.wire)
    (hpending : (w.replicas target).pendingReads.get? pendingId = some pending)
    (hmem : source ∈ pending.targets) :
    ∃ read, PendingReadOk ops p same k cluster w target pendingId
      { pending with
        responses := insert source pending.responses
        merged := foldResponse ops (w.replicas target) pending json } read := by
  obtain ⟨read, hok⟩ := (h.replicas target).reads pendingId pending hpending
  have hfold : read.key = k →
      (∀ v ∈ foldResponse ops (w.replicas target) pending json, p v) ∧
        Below same ops.merge pending.merged (foldResponse ops (w.replicas target) pending json) ∧
        Below same ops.merge (read.held source)
          (foldResponse ops (w.replicas target) pending json) := by
    intro hk
    have hkind := hok.kind hk
    obtain ⟨read', v, hread', -, rfl, hv, hbelow⟩ := h.wire _ hp (hok.key.symm.trans hk)
    rw [hok.asked] at hread'
    cases hread'
    cases v with
    | none =>
      refine ⟨hkind, hone.order.below_refl hkind, ?_⟩
      revert hbelow
      cases read.held source with
      | none => exact fun _ => trivial
      | some a => exact False.elim
    | some a =>
      have ha := hv a rfl
      obtain ⟨a', ha', hpa', hsame⟩ := hone.decodes a
        ((w.replicas target).identityFor pending.key) ha
      obtain ⟨merged, hmerged, hpm, hold, hnew⟩ := mergeReceived_eq hone hkind hpa'
      have heq : foldResponse ops (w.replicas target) pending
          (Option.map ops.toJSON (some a)) = some merged := by
        simp [foldResponse, decodeOrDrop, ha', hmerged]
      rw [heq]
      refine ⟨by rintro x ⟨⟩; exact hpm, hold, ?_⟩
      refine hone.order.below_trans ((h.reads _ read hok.asked hk).kind source)
        (y := some a) (by rintro x ⟨⟩; exact ha) (by rintro x ⟨⟩; exact hpm) hbelow ?_
      exact hone.order.absorbs_trans ha hpa' hpm hnew (hone.order.absorbs_of_same hpa' ha hsame)
  refine ⟨read, hok.asked, hok.key, hok.required, hok.targets, ?_, fun hk => (hfold hk).1,
    fun hk x hx => ?_⟩
  · exact insert_subset (hok.targets hmem) hok.responses
  · rcases mem_insert.1 hx with rfl | hx
    · exact (hfold hk).2.2
    · exact hone.order.below_trans ((h.reads _ read hok.asked hk).kind x) (hok.kind hk)
        (hfold hk).1 (hok.merged hk x hx) (hfold hk).2.1

lemma Inv.completeRead (htarget : target ∈ cluster.members) {pending : PendingRead ν V}
    {read : Read ν V} (hok : PendingReadOk ops p same k cluster w target pendingId pending read)
    (hcard : pending.responses.card ≥ pending.required) :
    Inv ops p same k cluster (w.afterTurn target
      ((w.replicas target).completeRead ops pendingId pending)) := by
  have hreplica : ∀ r : Replica ν V I, r.pendingWrites = (w.replicas target).pendingWrites →
      r.pendingReads = (w.replicas target).pendingReads.delete pendingId →
      ReplicaOk ops p same k cluster w target r := by
    intro r hwrites hreads
    refine (h.replicas target).change (fun i q hi => .inl (hwrites ▸ hi)) (fun i q hi => .inl ?_)
    rw [hreads] at hi
    exact get?_of_get?_delete hi
  have hresolved : ReadResolvedOk ops p same k cluster w (target, pendingId) pending.merged := by
    refine ⟨read, hok.asked, fun hk => ⟨hok.kind hk, _, hok.responses, ?_, hok.merged hk⟩⟩
    rw [← hok.required]
    exact hcard
  unfold Replica.completeRead
  simp only
  split
  · next hmerged =>
    rw [hmerged] at hresolved
    refine h.settles hone htarget rfl rfl (hreplica _ rfl rfl) (by simp) fun i value hi => ?_
    cases hi
    exact hresolved
  · next value hmerged =>
    rw [hmerged] at hresolved
    cases hjoin : mergeReceived ops ((w.replicas target).state.get? pending.key) value with
    | none =>
      refine h.settles hone htarget rfl rfl (hreplica _ rfl rfl) (by simp) fun i value' hi => ?_
      cases hi
      refine ⟨read, hok.asked, fun hk => ?_⟩
      -- of one kind, the two would have merged
      rw [← hok.key, hk] at hjoin
      obtain ⟨_, hjoin', -⟩ := mergeReceived_eq hone (h.kind target) (hok.kind hk value hmerged)
      rw [held, hjoin] at hjoin'
      cases hjoin'
    | some joined =>
      have hgrows : Grows ops p same k (w.replicas target)
          ((w.replicas target).applyMerged pending.key joined) := by
        refine Replica.Grows.applyMerged hone fun hk hr => ?_
        obtain ⟨joined', hjoin', hpj, hbelow, -⟩ := mergeReceived_eq hone hr
          (hok.kind (hok.key.trans hk) value hmerged)
        rw [hk, hjoin'] at hjoin
        cases hjoin
        exact ⟨hpj, hbelow⟩
      refine h.afterTurn hone.order htarget (hgrows (h.kind target)).1
        (hgrows (h.kind target)).2 (by simp) ?_ (by simp) ?_
      · exact h.replicaOk_afterTurn hone.order (hgrows (h.kind target)) (hreplica _ rfl rfl)
      · intro i value' hi
        cases hi
        refine hresolved.later (later_afterTurn hone.order h.kind ?_)
        exact (hgrows (h.kind target)).2

lemma Inv.onReadResponse {json : Option J}
    (hp : ⟨source, target, .readResponse pendingId key json⟩ ∈ w.wire) :
    Inv ops p same k cluster (w.afterTurn target
      ((w.replicas target).onReadResponse ops source pendingId key json)) := by
  obtain ⟨-, htarget⟩ := h.endpoints _ hp
  have hquiet := h.idle hone htarget
  unfold Replica.onReadResponse
  cases hpending : (w.replicas target).pendingReads.get? pendingId with
  | none => exact hquiet
  | some pending =>
    simp only
    split
    · exact hquiet
    split
    · exact hquiet
    split
    · exact hquiet
    next hkey hmem _ =>
    rw [not_not] at hkey hmem
    subst hkey
    obtain ⟨read, hok⟩ := h.pendingRead_insert hone hp hpending hmem
    split
    · next hcard => exact h.completeRead hone htarget hok hcard
    · refine h.settles hone htarget rfl rfl ?_ (by simp) (by simp)
      refine (h.replicas target).change (fun i q hi => .inl hi) (fun i q hi => ?_)
      rcases get?_set_cases hi with ⟨rfl, rfl⟩ | hold
      · exact .inr ⟨read, hok⟩
      · exact .inl hold

lemma Inv.writeTimeout (hself : self ∈ cluster.members) (pendingId : JsString) :
    Inv ops p same k cluster (w.afterTurn self ((w.replicas self).writeTimeout pendingId)) := by
  unfold Replica.writeTimeout
  split
  · exact h.idle hone hself
  · refine h.settles hone hself rfl rfl ?_ (by simp) (by simp)
    exact (h.replicas self).change
      (fun i q hi => .inl (get?_of_get?_delete hi)) (fun i q hi => .inl hi)

lemma Inv.readTimeout (hself : self ∈ cluster.members) (pendingId : JsString) :
    Inv ops p same k cluster (w.afterTurn self ((w.replicas self).readTimeout pendingId)) := by
  unfold Replica.readTimeout
  split
  · exact h.idle hone hself
  · refine h.settles hone hself rfl rfl ?_ (by simp) (by simp)
    exact (h.replicas self).change (fun i q hi => .inl hi)
      (fun i q hi => .inl (get?_of_get?_delete hi))

lemma Inv.gossip (hself : self ∈ cluster.members) (htarget : target ∈ (cluster.node self).peers)
    (keys : List JsString) :
    Inv ops p same k cluster (w.afterTurn self
      { replica := w.replicas self
        sent := [(target, .gossip ((w.replicas self).gossipEntries ops keys))] }) := by
  refine h.afterQuietTurn hone.order hself (h.grows_refl hone rfl) ?_ rfl rfl (by simp) (by simp)
  intro x hx
  rw [List.mem_singleton] at hx
  subst hx
  refine ⟨Cluster.mem_of_mem_peers htarget, fun json hjson => ?_⟩
  obtain ⟨key, -, hentry⟩ := List.mem_filterMap.1 hjson
  obtain ⟨v, hv, heq⟩ := Option.map_eq_some_iff.1 hentry
  cases heq
  exact ⟨v, h.kind self v hv, rfl⟩

lemma Inv.step {w' : World ν V J I} {a : Action ν V} (hstep : w.step ops cluster a = some w')
    (hinflates : Inflates ops p same k w a) : Inv ops p same k cluster w' := by
  cases a with
  | update self key factory mutator quorum =>
    simp only [World.step, ite_none_right_eq_some, some.injEq] at hstep
    obtain ⟨⟨hself, hunused⟩, rfl⟩ := hstep
    exact h.onUpdate hone hself hunused hinflates
  | read self key pendingId consistency =>
    simp only [World.step, ite_none_right_eq_some, some.injEq] at hstep
    obtain ⟨⟨hself, hunused⟩, rfl⟩ := hstep
    exact h.onRead hone hself hunused
  | deliver n =>
    simp only [World.step] at hstep
    split at hstep
    · cases hstep
    · next packet hn =>
      cases hstep
      have hp := mem_of_getElem? hn
      obtain ⟨source, target, frame⟩ := packet
      cases frame with
      | gossip entries => exact h.onGossip hone hp
      | writeRequest pendingId key json => exact h.onWriteRequest hone hp
      | writeAcknowledgment pendingId key => exact h.onWriteAcknowledgment hone hp
      | readRequest pendingId key => exact h.onReadRequest hone hp
      | readResponse pendingId key json => exact h.onReadResponse hone hp
  | gossip self target keys =>
    simp only [World.step, ite_none_right_eq_some, some.injEq] at hstep
    obtain ⟨⟨hself, htarget⟩, rfl⟩ := hstep
    exact h.gossip hone hself htarget keys
  | writeTimeout self pendingId =>
    simp only [World.step, ite_none_right_eq_some, some.injEq] at hstep
    obtain ⟨hself, rfl⟩ := hstep
    exact h.writeTimeout hone hself pendingId
  | readTimeout self pendingId =>
    simp only [World.step, ite_none_right_eq_some, some.injEq] at hstep
    obtain ⟨hself, rfl⟩ := hstep
    exact h.readTimeout hone hself pendingId

end

end

lemma Inv.initial : Inv ops p same k cluster (initial : World ν V J I) where
  kind := by simp [held, World.initial, Replica.initial]
  wire := by simp [World.initial]
  endpoints := by simp [World.initial]
  replicas x := ⟨by simp [World.initial, Replica.initial], by simp [World.initial, Replica.initial]⟩
  writes := by simp [World.initial]
  resolvedWrites := by simp [World.initial]
  reads := by simp [World.initial]
  resolvedReads := by simp [World.initial]

lemma Inv.of_reaches (hone : OneKind ops p same)
    (h : Reaches ops cluster (Inflates ops p same k) w) : Inv ops p same k cluster w := by
  induction h with
  | initial => exact Inv.initial
  | step _ hstep hinflates ih => exact ih.step hone hstep hinflates

end Steps

/-- In every run in which the mutators of the key go up, a majority read that
reached its quorum absorbs every majority write of the key that was resolved
before it was issued. -/
theorem majority_read_absorbs (ops : CrdtOps V J I) (p : V → Prop) (same : V → V → Prop)
    (hone : OneKind ops p same) (cluster : Cluster ν) (k : JsString) (w : World ν V J I)
    (hreach : Reaches ops cluster (Inflates ops p same k) w)
    (i j : ν × JsString) (write : Write V) (read : Read ν V) (value : Option V)
    (hwrite : w.writes.get? i = some write) (hwkey : write.key = k)
    (hwmajority : write.consistency = .majority)
    (hread : w.reads.get? j = some read) (hrkey : read.key = k)
    (hrmajority : read.consistency = .majority) (hbefore : i ∈ read.resolvedBefore)
    (hresolved : (j, value, true) ∈ w.resolvedReads) :
    ∃ r, value = some r ∧ same (ops.merge r write.value) r := by
  have hinv := Inv.of_reaches hone hreach
  have hissued := hinv.reads j read hread hrkey
  obtain ⟨write', hwrite', hcovers⟩ := hissued.resolved i hbefore
  rw [hwrite] at hwrite'
  cases hwrite'
  obtain ⟨read', hread', hmerged⟩ := hinv.resolvedReads j value hresolved
  rw [hread] at hread'
  cases hread'
  have hheld := hcovers hwkey
  obtain ⟨hkind, hanswered⟩ := hmerged hrkey
  rw [hwmajority] at hheld
  rw [hrmajority] at hanswered
  obtain ⟨x, hx, hx'⟩ := hheld.meet hanswered
  have hbelow := hone.order.below_trans (x := some write.value)
    (by rintro v ⟨⟩; exact hinv.writes i write hwrite hwkey) (hissued.kind x) hkind hx hx'
  cases value with
  | none => exact hbelow.elim
  | some r => exact ⟨r, rfl, hbelow⟩

/-! ### Registers in the store -/

/-- The store's use of registers: they have no identity, and timestamps are
plausible up to a hundred. -/
def registerOps : CrdtOps (LWWRegister ℕ) (LWWRegister.Json ℕ) Empty where
  merge := LWWRegister.merge
  crdtKindConflict _ _ := false
  toJSON := LWWRegister.toJSON
  decodeCrdt json _ := LWWRegister.fromJSON 100 json
  decodeWithDefaultKey json _ := LWWRegister.fromJSON 100 json
  customIdentity _ := none

local instance neZeroThree : NeZero 3 := ⟨by decide⟩

/-- Three nodes with no cap. -/
def threeNodes : Cluster (Fin 3) := ⟨[0, 1, 2], by decide, fun _ => 0⟩

/-- What is observed of a run: the write, the key of the read and the writes
resolved before it, and what was read. -/
structure Observed where
  write : Option (Write (LWWRegister ℕ))
  key : Option JsString
  consistency : Option Consistency
  resolvedBefore : Option (List (Fin 3 × JsString))
  resolvedReads : List ((Fin 3 × JsString) × Option (LWWRegister ℕ) × Bool)
  deriving DecidableEq

def observed (w : World (Fin 3) (LWWRegister ℕ) (LWWRegister.Json ℕ) Empty) : Observed where
  write := w.writes.get? (0, "w")
  key := (w.reads.get? (2, "r")).map Read.key
  consistency := (w.reads.get? (2, "r")).map Read.consistency
  resolvedBefore := (w.reads.get? (2, "r")).map Read.resolvedBefore
  resolvedReads := w.resolvedReads

/-- A run in which the majority write was resolved before the majority read was
issued, and the read reached its quorum. -/
lemma exists_of_observed (P : World (Fin 3) (LWWRegister ℕ) (Json ℕ) Empty →
      Action (Fin 3) (LWWRegister ℕ) → Prop) [∀ w a, Decidable (P w a)]
    (as : List (Action (Fin 3) (LWWRegister ℕ))) {v r : LWWRegister ℕ}
    (hrun : (run registerOps P threeNodes initial as).map observed =
      some ⟨some ⟨"k", .majority, v⟩, some "k", some .majority, some [(0, "w")],
        [((2, "r"), some r, true)]⟩) :
    ∃ (w : World (Fin 3) (LWWRegister ℕ) (Json ℕ) Empty) (read : Read (Fin 3) (LWWRegister ℕ)),
      Reaches registerOps threeNodes P w ∧
      w.writes.get? (0, "w") = some ⟨"k", .majority, v⟩ ∧
      w.reads.get? (2, "r") = some read ∧ read.key = "k" ∧
      read.consistency = .majority ∧ (0, "w".toJs) ∈ read.resolvedBefore ∧
      ((2, "r".toJs), some r, true) ∈ w.resolvedReads := by
  obtain ⟨w, hw, hobserved⟩ := map_eq_some_iff.1 hrun
  simp only [observed, Observed.mk.injEq, map_eq_some_iff] at hobserved
  obtain ⟨hwrite, ⟨read, hread, hkey⟩, ⟨read', hread', hconsistency⟩,
    ⟨read'', hread'', hbefore⟩, hresolved⟩ := hobserved
  obtain rfl : read = read' := some.inj (hread.symm.trans hread')
  obtain rfl : read = read'' := some.inj (hread.symm.trans hread'')
  refine ⟨w, read, Reaches.initial.run P as hw, hwrite, hread, hkey, hconsistency, ?_, ?_⟩
  · rw [hbefore]
    exact List.mem_singleton_self _
  · rw [hresolved]
    exact List.mem_singleton_self _

/-- The first node writes 7, a majority has it; the second assigns again with the timestamp given,
and the third reads. -/
def readBehindAssign (timestamp : ℚ) : List (Action (Fin 3) (LWWRegister ℕ)) :=
  [.update 0 "k" (some LWWRegister.empty)
      (fun r => some (r.assign "a" (some 7) 5)) (some ⟨"w", .majority⟩),
    .deliver 0, .deliver 2,
    .update 1 "k" (some LWWRegister.empty)
      (fun r => some (r.assign "b" (some 8) timestamp)) none,
    .read 2 "k" "r" .majority, .deliver 4, .deliver 5]

/-- With a clock that is behind, the second node loses the write. -/
theorem majority_read_misses_write_behind_older_assign :
    ∃ (w : World (Fin 3) (LWWRegister ℕ) (Json ℕ) Empty) (read : Read (Fin 3) (LWWRegister ℕ)),
      Reaches registerOps threeNodes (fun _ _ => True) w ∧
      w.writes.get? (0, "w".toJs) = some ⟨"k".toJs, .majority, ⟨some 7, 5, "a".toJs⟩⟩ ∧
      w.reads.get? (2, "r".toJs) = some read ∧ read.key = "k".toJs ∧
      read.consistency = .majority ∧ (0, "w".toJs) ∈ read.resolvedBefore ∧
      ((2, "r".toJs), some ⟨some 8, 3, "b".toJs⟩, true) ∈ w.resolvedReads ∧
      ∀ stringify, ((⟨some 8, 3, "b".toJs⟩ : LWWRegister ℕ).merge
        ⟨some 7, 5, "a".toJs⟩).equals stringify ⟨some 8, 3, "b".toJs⟩ = false := by
  obtain ⟨w, read, hreach, hwrite, hread, hkey, hconsistency, hbefore, hresolved⟩ :=
    exists_of_observed (fun _ _ => True) (readBehindAssign 3) (v := ⟨some 7, 5, "a".toJs⟩)
      (r := ⟨some 8, 3, "b".toJs⟩) (by decide +kernel)
  refine ⟨w, read, hreach, hwrite, hread, hkey, hconsistency, hbefore, hresolved, ?_⟩
  intro stringify
  have hmerge : (⟨some 8, 3, "b".toJs⟩ : LWWRegister ℕ).merge ⟨some 7, 5, "a".toJs⟩ =
      ⟨some 7, 5, "a".toJs⟩ := by decide +kernel
  have htimestamp : decide ((5 : ℚ) = 3) = false := by decide +kernel
  rw [hmerge, equals, htimestamp, Bool.false_and, Bool.false_and]

/-- The two registers of the run below. -/
def TwoWrites (r : LWWRegister ℕ) : Prop :=
  r = ⟨some 7, 5, "a"⟩ ∨ r = ⟨some 8, 9, "b"⟩

instance : DecidablePred TwoWrites := fun _ => inferInstanceAs (Decidable (_ ∨ _))

lemma oneKind_twoWrites : OneKind registerOps TwoWrites Eq := by
  have htie : TieFree (Set.ofPred TwoWrites) := by
    rintro r (rfl | rfl) other (rfl | rfl) htimestamp -
    · rfl
    · exact absurd htimestamp (by decide +kernel)
    · exact absurd htimestamp (by decide +kernel)
    · rfl
  refine ⟨htie.semilatticeOn.mergeOrderOn fun _ _ => merge_mem, fun _ _ _ _ => rfl, ?_⟩
  intro v identity hv
  refine ⟨v, fromJSON_toJSON ?_ ?_, hv, rfl⟩
  · rcases hv with rfl | rfl <;> decide +kernel
  · rcases hv with rfl | rfl <;> decide +kernel

/-- With a clock that is ahead, the read has the later assign, which absorbs the
write. -/
theorem majority_read_absorbs_behind_newer_assign :
    ∃ w : World (Fin 3) (LWWRegister ℕ) (Json ℕ) Empty,
      Reaches registerOps threeNodes (Inflates registerOps TwoWrites Eq "k".toJs) w ∧
      ((2, "r".toJs), some ⟨some 8, 9, "b".toJs⟩, true) ∈ w.resolvedReads ∧
      ∃ r : LWWRegister ℕ, (some ⟨some 8, 9, "b".toJs⟩ : Option (LWWRegister ℕ)) = some r ∧
        r.merge ⟨some 7, 5, "a".toJs⟩ = r := by
  obtain ⟨w, read, hreach, hwrite, hread, hkey, hconsistency, hbefore, hresolved⟩ :=
    exists_of_observed (Inflates registerOps TwoWrites Eq "k".toJs) (readBehindAssign 9)
      (v := ⟨some 7, 5, "a".toJs⟩) (r := ⟨some 8, 9, "b".toJs⟩) (by decide +kernel)
  exact ⟨w, hreach, hresolved, majority_read_absorbs registerOps TwoWrites Eq oneKind_twoWrites
    threeNodes "k".toJs w hreach (0, "w".toJs) (2, "r".toJs) _ read _ hwrite rfl rfl hread hkey
    hconsistency hbefore hresolved⟩

end World

end ActorTs.DistributedData
