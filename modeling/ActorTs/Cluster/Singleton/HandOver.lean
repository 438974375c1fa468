import ActorTs.Cluster.Singleton.World
import Mathlib

/-!
# The hand-over without a lease

Without a lease the hand-over is all that keeps two nodes from hosting at once: a node hosts once
every peer it asked has answered that it does not. Two nodes that have not both cleared each other
do not both have an instance.
-/

open List Nat

namespace ActorTs.Cluster

inductive HandOverMove (ι : Type) where
  | changeView (node : ι) (view : SingletonView ι)
  | reconcile (node : ι)
  | prompt (node : ι) (kind : SingletonPrompt)
  | deliver (node : ι) (i : ℕ)
  | lose (node : ι) (i : ℕ)
  | receive (node : ι)
  | instanceTerminated (node : ι)

namespace SingletonWorld

variable {ι : Type} [LinearOrder ι] (restartOnTermination : Bool)

/-- A manager runs on every node. -/
def running (views : ι → SingletonView ι) : SingletonWorld ι :=
  ⟨fun node => { status := .running, view := views node }, none⟩

/-- A change of membership is acted on at once, everything else in a turn of the mailbox. -/
def handOverStep (w : SingletonWorld ι) : HandOverMove ι → SingletonWorld ι
  | .changeView node view => w.update node fun s => { s with view }
  | .reconcile node => w.update node (SingletonNode.reconcileSync node)
  | .prompt node kind => w.update node fun s => s.enqueue (.prompt kind)
  | .deliver node i => w.deliver node i
  | .lose node i => w.lose node i
  | .receive node => w.update node (SingletonNode.receive false node restartOnTermination)
  | .instanceTerminated node => w.update node SingletonNode.instanceTerminated

/-- A node has an instance, or a hand-over of its own outstanding. -/
def Claims (w : SingletonWorld ι) (node : ι) : Prop :=
  (w.nodes node).instanceLive = true ∨ (w.nodes node).handOver ≠ none

/-- `node` has answered the hand-over of `peer`, which has not read the answer. -/
def Acknowledges (w : SingletonWorld ι) (node peer : ι) : Prop :=
  (peer, .handOverAcknowledgment) ∈ (w.nodes node).outbox ∨
    .handOverAcknowledgment node ∈ (w.nodes peer).mailbox

/-- The hand-over of `node` does not wait for `peer`, or only until the answer is read. -/
def Overtakes (w : SingletonWorld ι) (node peer : ι) : Prop :=
  ∃ awaiting, (w.nodes node).handOver = some awaiting ∧
    (peer ∉ awaiting ∨ w.Acknowledges peer node)

/-- Nothing that `peer` does is waited for before `node` has an instance. -/
def Cleared (w : SingletonWorld ι) (node peer : ι) : Prop :=
  (w.nodes node).instanceLive = true ∨ w.Overtakes node peer

end SingletonWorld

namespace SingletonNode

variable {ι : Type} [LinearOrder ι] (self : ι)

/-- To reconcile now is to host, or to ask the peers to hand over. -/
def Takes (s : SingletonNode ι) : Prop :=
  wantHosted self s = true ∧ s.child = false ∧ s.pendingStop = false ∧ s.handOver = none

/-- The turn takes over. -/
def TakesOn (s : SingletonNode ι) : SingletonInbox ι → Prop
  | .prompt .reconcile | .prompt .acquireRetry => Takes self s
  | .leaseAcquireResult got => got = true ∧ s.leaseState = .acquiring ∧ Takes self s
  | .terminated => s.pendingStop = true ∧ Takes self { s with pendingStop := false }
  | _ => False

/-- The turn answers the hand-over of `peer`. -/
def AnswersOn (s : SingletonNode ι) (peer : ι) : SingletonInbox ι → Prop
  | .handOverRequest asker => asker = peer ∧ admitsHandOverFrom self s peer = true ∧
      s.child = false ∧ s.pendingStop = false
  | .terminated => peer ∈ s.handOverRequesters ∧ (s.child = true ∨ s.pendingStop = true)
  | _ => False

/-- The turn brings a new instance up after the old one has died. -/
def RespawnsOn (s : SingletonNode ι) : SingletonInbox ι → Prop
  | .prompt .restartChild => wantHosted self s = true ∧ s.child = false ∧ s.pendingStop = false
  | _ => False

/-- The turn no longer waits for the answer of `peer`. -/
def PrunesOn (s : SingletonNode ι) (peer : ι) : SingletonInbox ι → Prop
  | .prompt .handOverRetry => ∃ awaiting, s.handOver = some awaiting ∧ peer ∈ awaiting ∧
      peer ∉ s.handOverPeers self
  | _ => False

end SingletonNode

namespace SingletonWorld

variable {ι : Type} [LinearOrder ι]

/-- The node lists as eligible each other that has an instance or a hand-over outstanding. -/
def Lists (w : SingletonWorld ι) (node : ι) : Prop :=
  ∀ peer ≠ node, w.Claims peer → peer ∈ (w.nodes node).view.eligible

/-- No answer to an earlier hand-over of the node is under way from a peer that counts. -/
def Fresh (w : SingletonWorld ι) (node : ι) : Prop :=
  ∀ peer ≠ node, w.Acknowledges peer node → ¬ w.Claims peer

/-- The nodes know each other, messages of one node to another arrive in order, no hand-over
times out, and a node that takes over lists the others that count. -/
def Within (w : SingletonWorld ι) : HandOverMove ι → Prop
  | .changeView _ view => ∀ node, node ∈ view.members
  | .reconcile node => SingletonNode.Takes node (w.nodes node) → w.Lists node
  | .deliver node i => ∀ j < i, ∀ peer sent message, (w.nodes node).outbox[i]? = some (peer, sent) →
      (w.nodes node).outbox[j]? ≠ some (peer, message)
  | .receive node => ∀ message mailbox, (w.nodes node).mailbox = message :: mailbox →
      message ≠ .prompt .handOverTimeout ∧
        (SingletonNode.TakesOn node (w.nodes node) message → w.Lists node)
  | _ => True

/-- A node does not answer the hand-over of a peer while one of its own no longer waits for
that peer; it takes over with no old answer of a peer that counts under way, and stops waiting
for no such peer; and it does not respawn once a peer has cleared it. -/
def Courteous (w : SingletonWorld ι) : HandOverMove ι → Prop
  | .reconcile node => SingletonNode.Takes node (w.nodes node) → w.Fresh node
  | .receive node => ∀ message mailbox, (w.nodes node).mailbox = message :: mailbox →
      (SingletonNode.TakesOn node (w.nodes node) message → w.Fresh node) ∧
      ∀ peer ≠ node,
        (SingletonNode.AnswersOn node (w.nodes node) peer message →
          (w.nodes peer).handOver ≠ none → ¬ w.Overtakes node peer) ∧
        (SingletonNode.RespawnsOn node (w.nodes node) message → ¬ w.Cleared peer node) ∧
        (SingletonNode.PrunesOn node (w.nodes node) peer message → ¬ w.Claims peer)
  | _ => True

/-! ## What a change of one node does -/

variable {w : SingletonWorld ι} {node : ι}

@[simp] lemma update_self (w : SingletonWorld ι) (node : ι)
    (f : SingletonNode ι → SingletonNode ι) :
    (w.update node f).nodes node = f (w.nodes node) := Function.update_self ..

lemma update_of_ne {other : ι} (h : other ≠ node) (w : SingletonWorld ι)
    (f : SingletonNode ι → SingletonNode ι) : (w.update node f).nodes other = w.nodes other :=
  Function.update_of_ne h ..

/-- No two nodes have cleared each other. -/
def Ordered (w : SingletonWorld ι) : Prop :=
  ∀ n m, n ≠ m → ¬ (w.Cleared n m ∧ w.Cleared m n)

omit [LinearOrder ι] in
lemma Cleared.claims {peer : ι} (h : w.Cleared node peer) : w.Claims node := by
  rcases h with hlive | ⟨awaiting, hawaiting, -⟩
  · exact .inl hlive
  · exact .inr (by rw [hawaiting]; exact Option.some_ne_none awaiting)

omit [LinearOrder ι] in
lemma Ordered.mono (h : w.Ordered) {w' : SingletonWorld ι}
    (hcleared : ∀ n m, n ≠ m → w'.Cleared n m → w.Cleared n m) : w'.Ordered :=
  fun n m hne hboth => h n m hne ⟨hcleared n m hne hboth.1, hcleared m n hne.symm hboth.2⟩

lemma update_update (w : SingletonWorld ι) (node : ι) (f g : SingletonNode ι → SingletonNode ι) :
    (w.update node f).update node g = w.update node fun s => g (f s) := by
  simp only [update, Function.update_self, Function.update_idem]

variable {f : SingletonNode ι → SingletonNode ι}

lemma acknowledges_update {n : ι} (hn : n ≠ node) (h : (w.update node f).Acknowledges n node) :
    (node, .handOverAcknowledgment) ∈ (w.nodes n).outbox ∨
      .handOverAcknowledgment n ∈ (f (w.nodes node)).mailbox := by
  rwa [Acknowledges, update_of_ne hn, update_self] at h

lemma overtakes_self {peer : ι} (hpeer : peer ≠ node)
    (hhandOver : (f (w.nodes node)).handOver = (w.nodes node).handOver)
    (hmailbox : SingletonInbox.handOverAcknowledgment peer ∈ (f (w.nodes node)).mailbox →
      .handOverAcknowledgment peer ∈ (w.nodes node).mailbox)
    (h : (w.update node f).Overtakes node peer) : w.Overtakes node peer := by
  rw [Overtakes, update_self, hhandOver] at h
  obtain ⟨awaiting, hawaiting, hcleared⟩ := h
  refine ⟨awaiting, hawaiting, hcleared.imp_right fun hack => ?_⟩
  exact (acknowledges_update hpeer hack).imp_right hmailbox

lemma cleared_self {peer : ι} (hpeer : peer ≠ node)
    (hlive : (f (w.nodes node)).instanceLive = true → (w.nodes node).instanceLive = true)
    (hhandOver : (f (w.nodes node)).handOver = (w.nodes node).handOver)
    (hmailbox : SingletonInbox.handOverAcknowledgment peer ∈ (f (w.nodes node)).mailbox →
      .handOverAcknowledgment peer ∈ (w.nodes node).mailbox)
    (h : (w.update node f).Cleared node peer) : w.Cleared node peer := by
  rw [Cleared, update_self] at h
  exact h.imp hlive (overtakes_self hpeer hhandOver hmailbox)

/-- Who has cleared others does not see what one node changes, but for its answers. -/
lemma cleared_other {n m : ι} (hn : n ≠ node)
    (houtbox : m = node → (n, SingletonMessage.handOverAcknowledgment) ∈
      (f (w.nodes node)).outbox → (n, .handOverAcknowledgment) ∈ (w.nodes node).outbox)
    (h : (w.update node f).Cleared n m) : w.Cleared n m := by
  rw [Cleared, Overtakes, update_of_ne hn] at h
  refine h.imp_right fun ⟨awaiting, hawaiting, hcleared⟩ => ⟨awaiting, hawaiting, ?_⟩
  refine hcleared.imp_right fun hack => ?_
  rw [Acknowledges, update_of_ne hn] at hack
  refine hack.imp_left fun hsent => ?_
  by_cases hm : m = node
  · subst hm
    rw [update_self] at hsent
    exact houtbox rfl hsent
  · rwa [update_of_ne hm] at hsent

/-- A node that changes clears only whom it had cleared, or who has not cleared it; and those
it answers, while their hand-over is outstanding, it had not cleared. -/
lemma Ordered.update (h : w.Ordered) (hself : ∀ peer ≠ node, (w.update node f).Cleared node peer →
      w.Cleared node peer ∨ ¬ (w.update node f).Cleared peer node)
    (hanswers : ∀ peer ≠ node, (peer, SingletonMessage.handOverAcknowledgment) ∈
      (f (w.nodes node)).outbox → (peer, .handOverAcknowledgment) ∈ (w.nodes node).outbox ∨
      ((w.nodes peer).handOver ≠ none → ¬ w.Cleared node peer)) : (w.update node f).Ordered := by
  have hnode : ∀ peer ≠ node,
      ¬ ((w.update node f).Cleared node peer ∧ (w.update node f).Cleared peer node) := by
    rintro peer hpeer ⟨hmine, htheirs⟩
    have hcleared := (hself peer hpeer hmine).resolve_right (not_not.2 htheirs)
    refine h node peer hpeer.symm ⟨hcleared, ?_⟩
    by_cases hhandOver : (w.nodes peer).handOver = none
    · rw [Cleared, Overtakes, update_of_ne hpeer, hhandOver] at htheirs
      exact .inl (htheirs.resolve_right fun ⟨_, hnone, _⟩ => nomatch hnone)
    · refine cleared_other hpeer (fun _ hsent => ?_) htheirs
      exact (hanswers peer hpeer hsent).resolve_right fun hnot => hnot hhandOver hcleared
  intro n m hne hboth
  by_cases hn : n = node
  · subst hn
    exact hnode m hne.symm hboth
  · by_cases hm : m = node
    · subst hm
      exact hnode n hne hboth.symm
    · exact h n m hne ⟨cleared_other hn (fun heq => absurd heq hm) hboth.1,
        cleared_other hm (fun heq => absurd heq hn) hboth.2⟩

end SingletonWorld

/-! ## The instance of a node -/

namespace SingletonNode

variable {ι : Type} [LinearOrder ι] {s : SingletonNode ι} {node : ι}

/-- A manager that is there, and has a child, one that stops, or none for `ends` and the
instance together. -/
structure Tracks (live child pendingStop : Bool) (ends : ℕ) (status : ManagerStatus) : Prop where
  known : live.toNat + ends = child.toNat + pendingStop.toNat
  one : child.toNat + pendingStop.toNat ≤ 1
  there : status ≠ .stopped

/-- The instance of a node, until its manager has read its end, is a child or one that stops. -/
def Tracked (s : SingletonNode ι) : Prop :=
  Tracks s.instanceLive s.child s.pendingStop (s.mailbox.count .terminated) s.status

variable {message : SingletonInbox ι} {mailbox : List (SingletonInbox ι)}

section

variable (h : s.Tracked)
include h

lemma Tracked.not_live (hchild : s.child = false) (hpending : s.pendingStop = false) :
    s.instanceLive = false ∧ s.mailbox.count .terminated = 0 := by
  have hzero := h.known
  rw [hchild, hpending] at hzero
  obtain ⟨hlive, hcount⟩ := Nat.add_eq_zero_iff.1 hzero
  exact ⟨Bool.toNat_eq_zero.1 hlive, hcount⟩

lemma Tracked.not_both (hpending : s.pendingStop = true) : s.child = false := by
  have hone := h.one
  rw [hpending] at hone
  cases hchild : s.child with
  | false => rfl
  | true =>
    rw [hchild] at hone
    exact absurd hone (by decide)

lemma Tracked.spawn : s.spawn.Tracked := by
  rw [SingletonNode.spawn]
  split_ifs with hchild hpending hlive
  · exact h
  · exact h
  · exact ⟨h.known, h.one, nofun⟩
  · rw [Bool.not_eq_true] at hchild hpending
    obtain ⟨-, hcount⟩ := h.not_live hchild hpending
    refine ⟨?_, ?_, h.there⟩
    · change true.toNat + s.mailbox.count .terminated = true.toNat + s.pendingStop.toNat
      rw [hcount, hpending]
      rfl
    · change true.toNat + s.pendingStop.toNat ≤ 1
      rw [hpending]
      exact le_refl 1

lemma Tracked.stopChild : s.stopChild.Tracked := by
  rw [SingletonNode.stopChild]
  split_ifs with hchild
  · have hpending : s.pendingStop = false := by
      by_contra hpending
      rw [Bool.not_eq_false] at hpending
      exact Bool.false_ne_true ((h.not_both hpending).symm.trans hchild)
    obtain ⟨hcount, hone, hthere⟩ := h
    rw [hchild, hpending] at hcount hone
    exact ⟨hcount, hone, hthere⟩
  · exact h

lemma Tracked.completeHandOver : (completeHandOver false node s).Tracked := by
  rw [SingletonNode.completeHandOver]
  split
  · exact h
  · split_ifs
    · exact h
    · exact h
    · exact Tracked.spawn (s := { s with handOver := none }) h

lemma Tracked.takeOverHosting : (s.takeOverHosting node).Tracked := by
  rw [SingletonNode.takeOverHosting]
  split_ifs
  · exact h
  · exact h
  · split
    · exact h.spawn
    · exact h

lemma Tracked.reconcileSync : (s.reconcileSync node).Tracked := by
  rw [SingletonNode.reconcileSync]
  split_ifs
  · exact h.takeOverHosting
  · exact h.stopChild
  · exact h

lemma Tracked.onHandOverRetry : (onHandOverRetry false node s).Tracked := by
  rw [SingletonNode.onHandOverRetry]
  split
  · exact h
  · dsimp only
    split
    · exact Tracked.completeHandOver (s := { s with handOver := some [] }) h
    · exact h

lemma Tracked.onHandOverAcknowledgment (peer : ι) :
    (onHandOverAcknowledgment false node s peer).Tracked := by
  rw [SingletonNode.onHandOverAcknowledgment]
  split
  · exact h
  · split
    · exact h
    · split
      · exact Tracked.completeHandOver (s := { s with handOver := some [] }) h
      · exact h

lemma Tracked.onHandOverRequest (peer : ι) : (s.onHandOverRequest node peer).Tracked := by
  rw [SingletonNode.onHandOverRequest]
  split_ifs
  · exact h
  · exact Tracked.stopChild (s := { s with handOverRequesters := s.handOverRequesters }) h
  · exact Tracked.stopChild (s := { s with
      handOverRequesters := s.handOverRequesters ++ [peer] }) h
  · exact h
  · exact h
  · exact h

lemma Tracked.onRestartChild : (onRestartChild false node s).Tracked := by
  rw [SingletonNode.onRestartChild]
  split_ifs with _ _ hleased
  · exact h
  · exact h
  · exact absurd hleased.1 not_false
  · exact h.spawn

lemma Tracked.voidReleaseLease : s.voidReleaseLease.Tracked := by
  rw [SingletonNode.voidReleaseLease]
  split_ifs
  · exact h
  · exact h

lemma Tracked.answerHandOverRequesters : s.answerHandOverRequesters.Tracked := by
  rw [SingletonNode.answerHandOverRequesters]
  split_ifs
  · exact h
  · exact h

lemma Tracked.pop (hmailbox : s.mailbox = message :: mailbox)
    (hmessage : message ≠ .terminated) : ({ s with mailbox } : SingletonNode ι).Tracked := by
  obtain ⟨hcount, hone, hthere⟩ := h
  rw [hmailbox, count_cons_of_ne hmessage] at hcount
  exact ⟨hcount, hone, hthere⟩

lemma Tracked.tell (hmessage : message ≠ .terminated) : (s.tell message).Tracked := by
  obtain ⟨hcount, hone, hthere⟩ := h
  refine ⟨?_, hone, hthere⟩
  change s.instanceLive.toNat + (s.mailbox ++ [message]).count .terminated = _
  rw [count_append, count_cons_of_ne hmessage]
  exact hcount

lemma Tracked.releaseLease : (s.releaseLease [.reconcile]).Tracked := by
  rw [SingletonNode.releaseLease]
  split_ifs
  · exact h
  · exact h.tell nofun

end

lemma tracked_handleTerminated (hgone : s.instanceLive.toNat + s.mailbox.count .terminated = 0)
    (hone : s.child.toNat + s.pendingStop.toNat = 1) (hthere : s.status ≠ .stopped)
    (restartOnTermination : Bool) :
    (handleTerminated false node restartOnTermination s).Tracked := by
  rw [SingletonNode.handleTerminated]
  split
  · next hpending =>
    have hchild : s.child = false := by
      rw [hpending] at hone
      exact Bool.toNat_eq_zero.1 (Nat.succ.inj hone)
    have hstopped : ({ s with pendingStop := false } : SingletonNode ι).Tracked := by
      refine ⟨hgone.trans ?_, ?_, hthere⟩ <;> rw [hchild]
      · rfl
      · exact zero_le 1
    have hanswered := hstopped.answerHandOverRequesters
    dsimp only
    split
    · exact Tracked.releaseLease hanswered
    · rw [if_neg Bool.false_ne_true]
      exact hanswered.reconcileSync
  · next hpending =>
    rw [Bool.not_eq_true] at hpending
    rw [hpending] at hone
    have hchild : s.child = true := Bool.toNat_eq_one.1 hone
    have hdied : ({ s with child := false } : SingletonNode ι).Tracked := by
      refine ⟨hgone.trans ?_, ?_, hthere⟩ <;> rw [hpending]
      · rfl
      · exact zero_le 1
    rw [if_pos hchild, SingletonNode.onChildDiedUnexpectedly]
    refine Tracked.answerHandOverRequesters ?_
    split
    · exact hdied
    · exact Tracked.voidReleaseLease
        (s := { s with child := false, terminallyStopped := true }) hdied

lemma Tracked.popTerminated (h : s.Tracked) (hmailbox : s.mailbox = .terminated :: mailbox) :
    s.instanceLive.toNat + mailbox.count .terminated = 0 ∧
      s.child.toNat + s.pendingStop.toNat = 1 := by
  obtain ⟨hcount, hone, -⟩ := h
  rw [hmailbox, List.count_cons_self, ← Nat.add_assoc] at hcount
  rw [← hcount] at hone
  have hzero := Nat.le_zero.1 (Nat.le_of_succ_le_succ hone)
  rw [← hcount, hzero]
  exact ⟨rfl, rfl⟩

lemma Tracked.receive (h : s.Tracked) (restartOnTermination : Bool) :
    (receive false node restartOnTermination s).Tracked := by
  rw [SingletonNode.receive]
  split
  · exact h
  · next message mailbox hmailbox =>
    split_ifs
    · cases message with
      | prompt kind =>
        have hpopped := h.pop hmailbox nofun
        cases kind with
        | reconcile => exact hpopped.reconcileSync
        | acquireRetry => exact hpopped.reconcileSync
        | restartChild => exact hpopped.onRestartChild
        | handOverTimeout => exact hpopped.completeHandOver
        | handOverRetry => exact hpopped.onHandOverRetry
      | leaseAcquireResult got =>
        have hpopped := h.pop hmailbox nofun
        rw [onReceive, onLeaseAcquireResult]
        split_ifs
        · exact hpopped
        · exact hpopped
        · exact hpopped
        · exact hpopped
        · exact Tracked.takeOverHosting (s := { s with mailbox, leaseState := .held }) hpopped
      | handOverRequest peer => exact (h.pop hmailbox nofun).onHandOverRequest peer
      | handOverAcknowledgment peer => exact (h.pop hmailbox nofun).onHandOverAcknowledgment peer
      | terminated =>
        obtain ⟨hgone, hone⟩ := h.popTerminated hmailbox
        exact tracked_handleTerminated (s := { s with mailbox }) hgone hone h.there _
    · exact h

lemma Tracked.enqueue (h : s.Tracked) (hmessage : message ≠ .terminated) :
    (s.enqueue message).Tracked := by
  rw [SingletonNode.enqueue]
  split_ifs
  · exact h
  · exact h.tell hmessage

end SingletonNode

/-! ## The turns of a manager -/

namespace SingletonNode

variable {ι : Type} {s : SingletonNode ι}
variable (s)

lemma spawn_outbox : s.spawn.outbox = s.outbox := by
  rw [spawn]
  split_ifs <;> rfl

lemma stopChild_instanceLive :
    s.stopChild.instanceLive = s.instanceLive := by
  rw [stopChild]
  split_ifs <;> rfl

lemma stopChild_handOver : s.stopChild.handOver = s.handOver := by
  rw [stopChild]
  split_ifs <;> rfl

lemma stopChild_mailbox : s.stopChild.mailbox = s.mailbox := by
  rw [stopChild]
  split_ifs <;> rfl

lemma stopChild_outbox : s.stopChild.outbox = s.outbox := by
  rw [stopChild]
  split_ifs <;> rfl

variable {s}
variable [LinearOrder ι] {node : ι} {awaiting : List ι} {peer : ι}

lemma completeHandOver_outbox (node : ι) (s : SingletonNode ι) :
    (completeHandOver false node s).outbox = s.outbox := by
  rw [completeHandOver]
  split
  · rfl
  · split_ifs
    · rfl
    · rfl
    · exact spawn_outbox _

omit [LinearOrder ι] in
lemma mem_sendHandOverRequestTo {peers : List ι}
    (h : (peer, SingletonMessage.handOverAcknowledgment) ∈
      (s.sendHandOverRequestTo peers).outbox) : (peer, .handOverAcknowledgment) ∈ s.outbox := by
  refine (mem_append.1 h).resolve_right fun hmem => ?_
  obtain ⟨_, -, heq⟩ := mem_map.1 hmem
  cases heq

lemma takeOverHosting_of_not_takes (hwant : wantHosted node s = true) (h : ¬ Takes node s) :
    s.takeOverHosting node = s := by
  rw [takeOverHosting]
  split_ifs with hthere hasked
  · rfl
  · rfl
  · rw [Bool.or_eq_true, not_or, Bool.not_eq_true, Bool.not_eq_true] at hthere
    rw [Bool.not_eq_true, Option.isSome_eq_false_iff, Option.isNone_iff_eq_none] at hasked
    exact absurd ⟨hwant, hthere.1, hthere.2, hasked⟩ h

lemma reconcileSync_of_not_takes (h : ¬ Takes node s) :
    s.reconcileSync node = s ∨ s.reconcileSync node = s.stopChild := by
  rw [reconcileSync]
  split_ifs with hwant
  · rw [Bool.and_eq_true] at hwant
    exact .inl (takeOverHosting_of_not_takes hwant.1 h)
  · exact .inr rfl
  · exact .inl rfl

lemma reconcileSync_of_takes (h : Takes node s) :
    s.reconcileSync node = match s.handOverPeers node with
      | [] => s.spawn
      | peer :: peers =>
        sendHandOverRequestTo { s with handOver := some (peer :: peers) } (peer :: peers) := by
  obtain ⟨hwant, hchild, hpending, hhandOver⟩ := h
  rw [reconcileSync, hwant, hchild, if_pos (by decide), takeOverHosting, hchild, hpending,
    hhandOver, if_neg (by decide), Option.isSome_none, if_neg Bool.false_ne_true] <;>
  rfl

lemma onHandOverRetry_of_some (node : ι) (h : s.handOver = some awaiting) :
    onHandOverRetry false node s = match awaiting.filter (· ∈ s.handOverPeers node) with
      | [] => completeHandOver false node { s with handOver := some [] }
      | peer :: peers =>
        sendHandOverRequestTo { s with handOver := some (peer :: peers) }
          ((s.handOverPeers node).filter (· ∈ peer :: peers)) := by
  rw [onHandOverRetry, h] <;> rfl

lemma onHandOverAcknowledgment_of_mem (node : ι) (h : s.handOver = some awaiting)
    (hpeer : peer ∈ awaiting) :
    onHandOverAcknowledgment false node s peer = match awaiting.filter (· ≠ peer) with
      | [] => completeHandOver false node { s with handOver := some [] }
      | other :: others => { s with handOver := some (other :: others) } := by
  rw [onHandOverAcknowledgment, h]
  exact if_neg (not_not.2 hpeer)

end SingletonNode

namespace SingletonWorld

variable {ι : Type} [LinearOrder ι] {w : SingletonWorld ι} {node : ι}
variable {f : SingletonNode ι → SingletonNode ι}

lemma Ordered.quiet (h : w.Ordered)
    (houtbox : ∀ peer, (peer, SingletonMessage.handOverAcknowledgment) ∈ (f (w.nodes node)).outbox →
      (peer, .handOverAcknowledgment) ∈ (w.nodes node).outbox)
    (hself : ∀ peer ≠ node, (w.update node f).Cleared node peer →
      w.Cleared node peer ∨ ¬ w.Cleared peer node) : (w.update node f).Ordered := by
  refine h.update (fun peer hpeer hcleared => ?_) fun peer _ hsent => .inl (houtbox peer hsent)
  refine (hself peer hpeer hcleared).imp_right fun hnot htheirs => hnot ?_
  exact cleared_other hpeer (fun _ hsent => houtbox peer hsent) htheirs

lemma Ordered.keep (h : w.Ordered)
    (hlive : (f (w.nodes node)).instanceLive = true → (w.nodes node).instanceLive = true)
    (hhandOver : (f (w.nodes node)).handOver = (w.nodes node).handOver)
    (hmailbox : ∀ peer, SingletonInbox.handOverAcknowledgment peer ∈ (f (w.nodes node)).mailbox →
      .handOverAcknowledgment peer ∈ (w.nodes node).mailbox)
    (hanswers : ∀ peer ≠ node, (peer, SingletonMessage.handOverAcknowledgment) ∈
      (f (w.nodes node)).outbox → (peer, .handOverAcknowledgment) ∈ (w.nodes node).outbox ∨
      ((w.nodes peer).handOver ≠ none → ¬ w.Cleared node peer)) : (w.update node f).Ordered :=
  h.update (fun peer hpeer hcleared =>
    .inl (cleared_self hpeer hlive hhandOver (hmailbox peer) hcleared)) hanswers

lemma Ordered.update_of_eq (h : w.Ordered)
    (hf : ∀ s : SingletonNode ι, (f s).instanceLive = s.instanceLive ∧
      (f s).handOver = s.handOver ∧ ∃ kinds : List SingletonPrompt,
        (f s).mailbox = s.mailbox ++ kinds.map .prompt ∧ (f s).outbox = s.outbox) :
    (w.update node f).Ordered := by
  obtain ⟨hlive, hhandOver, kinds, hmailbox, houtbox⟩ := hf (w.nodes node)
  refine h.keep (by rw [hlive]; exact id) hhandOver (fun peer hmem => ?_) fun peer _ hsent =>
    .inl (houtbox ▸ hsent)
  rw [hmailbox] at hmem
  refine (mem_append.1 hmem).resolve_right fun hmem => ?_
  obtain ⟨_, -, heq⟩ := mem_map.1 hmem
  cases heq

lemma Ordered.stopChild (h : w.Ordered) : (w.update node SingletonNode.stopChild).Ordered := by
  refine h.keep ?_ (SingletonNode.stopChild_handOver _) (fun peer => ?_) fun peer _ hsent => ?_
  · rw [SingletonNode.stopChild_instanceLive]
    exact id
  · rw [SingletonNode.stopChild_mailbox]
    exact id
  · rw [SingletonNode.stopChild_outbox] at hsent
    exact .inl hsent

lemma update_congr {g : SingletonNode ι → SingletonNode ι}
    (h : f (w.nodes node) = g (w.nodes node)) : w.update node f = w.update node g := by
  rw [update, update, h]

lemma update_eq_self (h : f (w.nodes node) = w.nodes node) : w.update node f = w := by
  rw [update, h, Function.update_eq_self]

lemma mem_handOverPeers {peer : ι} (hpeer : peer ≠ node) {s : SingletonNode ι}
    (h : peer ∈ s.view.eligible) : peer ∈ s.handOverPeers node :=
  mem_filter.2 ⟨h, decide_eq_true hpeer⟩

lemma Ordered.reconcileSync (h : w.Ordered)
    (hlists : SingletonNode.Takes node (w.nodes node) → w.Lists node)
    (hfresh : SingletonNode.Takes node (w.nodes node) → w.Fresh node) :
    (w.update node (SingletonNode.reconcileSync node)).Ordered := by
  by_cases htakes : SingletonNode.Takes node (w.nodes node)
  · have hpeers : ∀ peer ≠ node, peer ∉ (w.nodes node).handOverPeers node →
        ¬ w.Cleared peer node := fun peer hpeer hnot hcleared =>
      hnot (mem_handOverPeers hpeer (hlists htakes peer hpeer hcleared.claims))
    have hequation := SingletonNode.reconcileSync_of_takes htakes
    split at hequation
    · next hnobody =>
      rw [hnobody] at hpeers
      rw [update_congr hequation]
      refine h.quiet (fun peer hsent => ?_) fun peer hpeer _ =>
        .inr (hpeers peer hpeer not_mem_nil)
      rwa [SingletonNode.spawn_outbox] at hsent
    · next first others hasked =>
      rw [hasked] at hpeers
      rw [update_congr (g := fun s => SingletonNode.sendHandOverRequestTo
        { s with handOver := some (first :: others) } (first :: others)) hequation]
      refine h.quiet (fun peer hsent => SingletonNode.mem_sendHandOverRequestTo hsent)
        fun peer hpeer hcleared => ?_
      rw [Cleared, Overtakes, update_self] at hcleared
      rcases hcleared with hlive | ⟨awaiting, hawaiting, hnot | hack⟩
      · exact .inl (.inl hlive)
      · cases hawaiting
        exact .inr (hpeers peer hpeer hnot)
      · exact .inr fun hcleared =>
          hfresh htakes peer hpeer (acknowledges_update hpeer hack) hcleared.claims
  · rcases SingletonNode.reconcileSync_of_not_takes htakes with hsame | hstopped
    · rw [update_eq_self hsame]
      exact h
    · rw [update_congr hstopped]
      exact h.stopChild

/-- Whoever the hand-over no longer waits for is cleared, or has nothing to defend. -/
lemma Ordered.onHandOverRetry (h : w.Ordered) (hprune : ∀ peer ≠ node,
      SingletonNode.PrunesOn node (w.nodes node) peer (.prompt .handOverRetry) →
        ¬ w.Claims peer) :
    (w.update node (SingletonNode.onHandOverRetry false node)).Ordered := by
  cases hhandOver : (w.nodes node).handOver with
  | none =>
    rw [update_eq_self (by rw [SingletonNode.onHandOverRetry, hhandOver])]
    exact h
  | some awaiting =>
    have hdone : ∀ peer ≠ node, peer ∉ awaiting.filter (· ∈ (w.nodes node).handOverPeers node) →
          w.Cleared node peer ∨ ¬ w.Cleared peer node := by
      intro peer hpeer hnot
      by_cases hawaited : peer ∈ awaiting
      · refine .inr fun hcleared => hprune peer hpeer ⟨awaiting, hhandOver, hawaited, ?_⟩
          hcleared.claims
        exact fun hmem => hnot (mem_filter.2 ⟨hawaited, decide_eq_true hmem⟩)
      · exact .inl (.inr ⟨awaiting, hhandOver, .inl hawaited⟩)
    have hequation := SingletonNode.onHandOverRetry_of_some node hhandOver
    split at hequation
    · next hnobody =>
      rw [hnobody] at hdone
      rw [update_congr (g := fun s => SingletonNode.completeHandOver false node
        { s with handOver := some [] }) hequation]
      refine h.quiet (fun peer hsent => ?_) fun peer hpeer _ =>
        hdone peer hpeer not_mem_nil
      rwa [SingletonNode.completeHandOver_outbox] at hsent
    · next first others hleft =>
      rw [hleft] at hdone
      rw [update_congr (g := fun s => SingletonNode.sendHandOverRequestTo
        { s with handOver := some (first :: others) }
        ((s.handOverPeers node).filter (· ∈ first :: others))) hequation]
      refine h.quiet (fun peer hsent => SingletonNode.mem_sendHandOverRequestTo hsent)
        fun peer hpeer hcleared => ?_
      rw [Cleared, Overtakes, update_self] at hcleared
      rcases hcleared with hlive | ⟨left, heq, hnot | hack⟩
      · exact .inl (.inl hlive)
      · cases heq
        exact hdone peer hpeer hnot
      · exact .inl (.inr ⟨awaiting, hhandOver, .inr (acknowledges_update hpeer hack)⟩)

variable {mailbox : List (SingletonInbox ι)}

/-- An answer that is read clears nobody whom it had not cleared when it was sent. -/
lemma Ordered.onHandOverAcknowledgment (h : w.Ordered) {sender : ι}
    (hmailbox : (w.nodes node).mailbox = .handOverAcknowledgment sender :: mailbox) :
    (w.update node fun s =>
      SingletonNode.onHandOverAcknowledgment false node { s with mailbox } sender).Ordered := by
  have hread : ∀ peer, SingletonInbox.handOverAcknowledgment peer ∈ mailbox →
      .handOverAcknowledgment peer ∈ (w.nodes node).mailbox := fun peer hmem => by
    rw [hmailbox]
    exact mem_cons_of_mem _ hmem
  have hpopped : (w.update node fun s => { s with mailbox }).Ordered :=
    h.keep id rfl hread fun _ _ hsent => .inl hsent
  cases hhandOver : (w.nodes node).handOver with
  | none =>
    rw [update_congr (g := fun s => { s with mailbox })
      (by rw [SingletonNode.onHandOverAcknowledgment, hhandOver])]
    exact hpopped
  | some awaiting =>
    by_cases hawaited : sender ∈ awaiting
    · have hdone : ∀ peer ≠ node, peer ∉ awaiting.filter (· ≠ sender) →
          w.Cleared node peer := by
        intro peer hpeer hnot
        refine .inr ⟨awaiting, hhandOver, ?_⟩
        by_cases hmem : peer ∈ awaiting
        · have hsender : peer = sender := by
            by_contra hne
            exact hnot (mem_filter.2 ⟨hmem, decide_eq_true hne⟩)
          rw [hsender]
          exact .inr (.inr (hmailbox ▸ mem_cons_self))
        · exact .inl hmem
      have hequation := SingletonNode.onHandOverAcknowledgment_of_mem node
        (s := { w.nodes node with mailbox }) hhandOver hawaited
      split at hequation
      · next hnobody =>
        rw [hnobody] at hdone
        rw [update_congr (g := fun s => SingletonNode.completeHandOver false node
          { s with mailbox, handOver := some [] }) hequation]
        refine h.quiet (fun peer hsent => ?_) fun peer hpeer _ =>
          .inl (hdone peer hpeer not_mem_nil)
        rwa [SingletonNode.completeHandOver_outbox] at hsent
      · next first others hleft =>
        rw [hleft] at hdone
        rw [update_congr (g := fun s => { s with mailbox, handOver := some (first :: others) })
          hequation]
        refine h.quiet (fun _ hsent => hsent) fun peer hpeer hcleared => .inl ?_
        rw [Cleared, Overtakes, update_self] at hcleared
        rcases hcleared with hlive | ⟨left, heq, hnot | hack⟩
        · exact .inl hlive
        · cases heq
          exact hdone peer hpeer hnot
        · exact .inr ⟨awaiting, hhandOver,
            .inr ((acknowledges_update hpeer hack).imp_right (hread peer))⟩
    · rw [update_congr (g := fun s => { s with mailbox }) (by
          rw [SingletonNode.onHandOverAcknowledgment, hhandOver]
          exact if_pos hawaited)]
      exact hpopped

/-- A node that answers has no instance, so that it has cleared only whom its own hand-over
no longer waits for. -/
lemma not_cleared_of_no_child (htracked : (w.nodes node).Tracked)
    (hchild : (w.nodes node).child = false) (hpending : (w.nodes node).pendingStop = false)
    {peer : ι} (h : ¬ w.Overtakes node peer) : ¬ w.Cleared node peer := by
  rintro (hlive | hovertakes)
  · exact Bool.false_ne_true ((htracked.not_live hchild hpending).1.symm.trans hlive)
  · exact h hovertakes

lemma Ordered.onHandOverRequest (h : w.Ordered) (htracked : (w.nodes node).Tracked) {asker : ι}
    (hanswers : asker ≠ node →
      SingletonNode.AnswersOn node (w.nodes node) asker (.handOverRequest asker) →
        (w.nodes asker).handOver ≠ none → ¬ w.Overtakes node asker) :
    (w.update node fun s => s.onHandOverRequest node asker).Ordered := by
  have hnoted : ∀ requesters, (w.update node fun s =>
      { s with handOverRequesters := requesters }).Ordered := fun requesters =>
    h.keep id rfl (fun _ => id) fun _ _ hsent => .inl hsent
  have hstopped : ∀ requesters, (w.update node fun s =>
      SingletonNode.stopChild { s with handOverRequesters := requesters }).Ordered :=
    fun requesters => by
      rw [← update_update w node (fun s => { s with handOverRequesters := requesters })
        SingletonNode.stopChild]
      exact (hnoted requesters).stopChild
  by_cases hadmits : SingletonNode.admitsHandOverFrom node (w.nodes node) asker = false
  · rw [update_eq_self (by rw [SingletonNode.onHandOverRequest, if_pos hadmits])]
    exact h
  · by_cases hchild : (w.nodes node).child = true
    · rw [update_congr (g := fun s => SingletonNode.stopChild { s with handOverRequesters :=
        if asker ∈ (w.nodes node).handOverRequesters then (w.nodes node).handOverRequesters
        else (w.nodes node).handOverRequesters ++ [asker] })
        (by rw [SingletonNode.onHandOverRequest, if_neg hadmits, if_pos hchild])]
      exact hstopped _
    · by_cases hpending : (w.nodes node).pendingStop = true
      · rw [update_congr (g := fun s => { s with handOverRequesters :=
          if asker ∈ (w.nodes node).handOverRequesters then (w.nodes node).handOverRequesters
          else (w.nodes node).handOverRequesters ++ [asker] })
          (by rw [SingletonNode.onHandOverRequest, if_neg hadmits, if_neg hchild, if_pos hpending])]
        exact hnoted _
      · rw [update_congr (g := fun s => s.answerHandOver asker)
          (by rw [SingletonNode.onHandOverRequest, if_neg hadmits, if_neg hchild, if_neg hpending])]
        rw [Bool.not_eq_true] at hchild hpending
        rw [Bool.not_eq_false] at hadmits
        refine h.keep id rfl (fun _ => id) fun peer hpeer hsent => ?_
        rcases mem_append.1 hsent with hsent | hsent
        · exact .inl hsent
        · cases mem_singleton.1 hsent
          exact .inr fun houtstanding => not_cleared_of_no_child htracked hchild hpending
            (hanswers hpeer ⟨rfl, hadmits, hchild, hpending⟩ houtstanding)

lemma Ordered.onRestartChild (h : w.Ordered) (hrespawn : ∀ peer ≠ node,
      SingletonNode.RespawnsOn node (w.nodes node) (.prompt .restartChild) →
        ¬ w.Cleared peer node) :
    (w.update node (SingletonNode.onRestartChild false node)).Ordered := by
  by_cases hrespawns : SingletonNode.RespawnsOn node (w.nodes node) (.prompt .restartChild)
  · obtain ⟨hwant, hchild, hpending⟩ := hrespawns
    rw [update_congr (g := SingletonNode.spawn)
      (by rw [SingletonNode.onRestartChild, hwant, hchild, hpending]; rfl)]
    refine h.quiet (fun peer hsent => ?_) fun peer hpeer _ =>
      .inr (hrespawn peer hpeer ⟨hwant, hchild, hpending⟩)
    rwa [SingletonNode.spawn_outbox] at hsent
  · rw [update_eq_self ?_]
    · exact h
    · rw [SingletonNode.onRestartChild]
      split_ifs with hwant hthere hleased
      · rfl
      · rfl
      · exact absurd hleased.1 not_false
      · rw [Bool.or_eq_true, not_or, Bool.not_eq_true, Bool.not_eq_true] at hthere
        rw [Bool.not_eq_false] at hwant
        exact absurd ⟨hwant, hthere.1, hthere.2⟩ hrespawns

lemma Ordered.answerHandOverRequesters (h : w.Ordered) (htracked : (w.nodes node).Tracked)
    (hanswers : ∀ peer ≠ node, peer ∈ (w.nodes node).handOverRequesters →
      (w.nodes peer).handOver ≠ none → ¬ w.Overtakes node peer) :
    (w.update node SingletonNode.answerHandOverRequesters).Ordered := by
  by_cases hthere : ((w.nodes node).child || (w.nodes node).pendingStop) = true
  · rw [update_eq_self (by rw [SingletonNode.answerHandOverRequesters, if_pos hthere])]
    exact h
  · rw [update_congr (g := fun s => { s with
      handOverRequesters := []
      outbox := s.outbox ++ s.handOverRequesters.map fun peer =>
        (peer, .handOverAcknowledgment) })
      (by rw [SingletonNode.answerHandOverRequesters, if_neg hthere])]
    rw [Bool.or_eq_true, not_or, Bool.not_eq_true, Bool.not_eq_true] at hthere
    refine h.keep id rfl (fun _ => id) fun peer hpeer hsent => ?_
    rcases List.mem_append.1 hsent with hsent | hsent
    · exact .inl hsent
    · obtain ⟨_, hmem, heq⟩ := List.mem_map.1 hsent
      cases heq
      exact .inr fun houtstanding => not_cleared_of_no_child htracked hthere.1 hthere.2
        (hanswers peer hpeer hmem houtstanding)

lemma claims_update {peer : ι} (hpeer : peer ≠ node) :
    (w.update node f).Claims peer ↔ w.Claims peer := by
  rw [Claims, Claims, update_of_ne hpeer]

lemma Lists.update (h : w.Lists node) (hview : (f (w.nodes node)).view = (w.nodes node).view) :
    (w.update node f).Lists node := by
  intro peer hpeer hclaims
  rw [update_self, hview]
  exact h peer hpeer ((claims_update hpeer).1 hclaims)

lemma Fresh.update (h : w.Fresh node)
    (hmailbox : ∀ peer, SingletonInbox.handOverAcknowledgment peer ∈ (f (w.nodes node)).mailbox →
      .handOverAcknowledgment peer ∈ (w.nodes node).mailbox) : (w.update node f).Fresh node :=
  fun peer hpeer hack hclaims =>
    h peer hpeer ((acknowledges_update hpeer hack).imp_right (hmailbox peer))
      ((claims_update hpeer).1 hclaims)

end SingletonWorld

namespace SingletonNode

variable {ι : Type} [LinearOrder ι] {s : SingletonNode ι} {node : ι}

omit [LinearOrder ι] in
lemma answerHandOverRequesters_eq (s : SingletonNode ι) : ∃ requesters outbox,
    s.answerHandOverRequesters = { s with handOverRequesters := requesters, outbox } := by
  rw [answerHandOverRequesters]
  split_ifs
  · exact ⟨_, _, rfl⟩
  · exact ⟨_, _, rfl⟩

omit [LinearOrder ι] in
lemma releaseLease_eq (s : SingletonNode ι) (andThen : List SingletonPrompt) :
    ∃ leaseState awaiting calls, ∃ kinds : List SingletonPrompt, s.releaseLease andThen =
      { s with
        leaseState
        awaiting
        calls
        mailbox := s.mailbox ++ kinds.map SingletonInbox.prompt } := by
  rw [releaseLease]
  split_ifs
  · exact ⟨_, _, _, [], by rw [map_nil, append_nil]⟩
  · exact ⟨_, _, _, andThen, rfl⟩

omit [LinearOrder ι] in
lemma enqueue_eq (s : SingletonNode ι) (message : SingletonInbox ι) :
    ∃ told, s.enqueue message = { s with mailbox := s.mailbox ++ told } ∧
      ∀ read ∈ told, read = message := by
  rw [enqueue]
  split_ifs
  · exact ⟨[], by rw [append_nil], nofun⟩
  · exact ⟨[message], rfl, fun _ => mem_singleton.1⟩

omit [LinearOrder ι] in
lemma onChildDiedUnexpectedly_eq (restartOnTermination : Bool) (s : SingletonNode ι) :
    ∃ stopped leaseState calls, s.onChildDiedUnexpectedly restartOnTermination =
      { s with child := false, terminallyStopped := stopped, leaseState, calls } := by
  rw [onChildDiedUnexpectedly]
  split_ifs
  · exact ⟨_, _, _, rfl⟩
  · rw [voidReleaseLease]
    split_ifs
    · exact ⟨_, _, _, rfl⟩
    · exact ⟨_, _, _, rfl⟩

end SingletonNode

namespace SingletonWorld

variable {ι : Type} [LinearOrder ι] {w : SingletonWorld ι} {node : ι}

lemma Ordered.handleTerminated (h : w.Ordered) (restartOnTermination : Bool)
    (hgone : (w.nodes node).instanceLive.toNat + (w.nodes node).mailbox.count .terminated = 0)
    (hone : (w.nodes node).child.toNat + (w.nodes node).pendingStop.toNat = 1)
    (hthere : (w.nodes node).status ≠ .stopped)
    (hlists : SingletonNode.TakesOn node (w.nodes node) .terminated → w.Lists node)
    (hfresh : SingletonNode.TakesOn node (w.nodes node) .terminated → w.Fresh node)
    (hanswers : ∀ peer ≠ node, SingletonNode.AnswersOn node (w.nodes node) peer .terminated →
      (w.nodes peer).handOver ≠ none → ¬ w.Overtakes node peer) :
    (w.update node (SingletonNode.handleTerminated false node restartOnTermination)).Ordered := by
  by_cases hpending : (w.nodes node).pendingStop = true
  · have hchild : (w.nodes node).child = false := by
      rw [hpending] at hone
      exact Bool.toNat_eq_zero.1 (Nat.succ.inj hone)
    have hstopped : (w.update node fun s => { s with pendingStop := false }).Ordered :=
      h.keep id rfl (fun _ => id) fun _ _ hsent => .inl hsent
    have hanswered := hstopped.answerHandOverRequesters (w := _) (by
        rw [update_self]
        refine ⟨hgone.trans ?_, ?_, hthere⟩ <;> rw [hchild]
        · rfl
        · exact zero_le 1)
      (fun peer hpeer hmem houtstanding hovertakes => by
        rw [update_self] at hmem
        rw [update_of_ne hpeer] at houtstanding
        exact hanswers peer hpeer ⟨hmem, .inr hpending⟩ houtstanding
          (overtakes_self hpeer rfl id hovertakes))
    rw [update_update] at hanswered
    obtain ⟨requesters, outbox, hsame⟩ := SingletonNode.answerHandOverRequesters_eq
      { w.nodes node with pendingStop := false }
    by_cases hrelease : (w.nodes node).releaseLeaseWhenChildStops = true
    · rw [update_congr (g := fun s => SingletonNode.releaseLease
        { SingletonNode.answerHandOverRequesters { s with pendingStop := false } with
          releaseLeaseWhenChildStops := false } [.reconcile])
        (by
          rw [SingletonNode.handleTerminated, if_pos hpending]
          exact if_pos (by rw [hsame]; exact hrelease))]
      rw [← update_update w node (fun s => SingletonNode.answerHandOverRequesters
        { s with pendingStop := false }) fun s =>
        SingletonNode.releaseLease { s with releaseLeaseWhenChildStops := false } [.reconcile]]
      refine hanswered.update_of_eq fun s => ?_
      obtain ⟨_, _, _, kinds, heq⟩ := SingletonNode.releaseLease_eq
        { s with releaseLeaseWhenChildStops := false } [.reconcile]
      rw [heq]
      exact ⟨rfl, rfl, kinds, rfl, rfl⟩
    · rw [update_congr (g := fun s => SingletonNode.reconcileSync node
        (SingletonNode.answerHandOverRequesters { s with pendingStop := false }))
        (by
          rw [SingletonNode.handleTerminated, if_pos hpending]
          exact if_neg (by rw [hsame]; exact hrelease))]
      rw [← update_update w node (fun s => SingletonNode.answerHandOverRequesters
        { s with pendingStop := false }) (SingletonNode.reconcileSync node)]
      have htakes : SingletonNode.Takes node ((w.update node fun s =>
          SingletonNode.answerHandOverRequesters { s with pendingStop := false }).nodes node) →
          SingletonNode.TakesOn node (w.nodes node) .terminated := by
        rw [update_self, hsame]
        exact fun htakes => ⟨hpending, htakes⟩
      refine hanswered.reconcileSync (fun h => (hlists (htakes h)).update ?_)
        fun h => (hfresh (htakes h)).update ?_
      · rw [hsame]
      · rw [hsame]
        exact fun _ => id
  · rw [Bool.not_eq_true] at hpending
    have hchild : (w.nodes node).child = true := by
      rw [hpending] at hone
      exact Bool.toNat_eq_one.1 hone
    obtain ⟨stopped, leaseState, calls, hsame⟩ :=
      SingletonNode.onChildDiedUnexpectedly_eq restartOnTermination (w.nodes node)
    have hdied : (w.update node fun s => { s with
        child := false, terminallyStopped := stopped, leaseState, calls }).Ordered :=
      h.keep id rfl (fun _ => id) fun _ _ hsent => .inl hsent
    have hanswered := hdied.answerHandOverRequesters (w := _) (by
        rw [update_self]
        refine ⟨hgone.trans ?_, ?_, hthere⟩ <;> rw [hpending]
        · rfl
        · exact zero_le 1)
      (fun peer hpeer hmem houtstanding hovertakes => by
        rw [update_self] at hmem
        rw [update_of_ne hpeer] at houtstanding
        exact hanswers peer hpeer ⟨hmem, .inl hchild⟩ houtstanding
          (overtakes_self hpeer rfl id hovertakes))
    rw [update_update] at hanswered
    rw [update_congr (g := fun s => SingletonNode.answerHandOverRequesters { s with
      child := false, terminallyStopped := stopped, leaseState, calls })
      (by rw [SingletonNode.handleTerminated, if_neg (Bool.eq_false_iff.1 hpending),
        if_pos hchild, hsame])]
    exact hanswered

end SingletonWorld

namespace SingletonNode

variable {ι : Type} [LinearOrder ι] {s : SingletonNode ι} {node : ι}

lemma onLeaseAcquireResult_eq (node : ι) (s : SingletonNode ι) (got : Bool) :
    ∃ leaseState calls, onLeaseAcquireResult node s got = { s with leaseState, calls } ∨
      TakesOn node s (.leaseAcquireResult got) ∧
        onLeaseAcquireResult node s got = reconcileSync node { s with leaseState, calls } := by
  rw [onLeaseAcquireResult]
  split_ifs with hacquiring hgot hnot hwant
  · exact ⟨_, _, .inl rfl⟩
  · exact ⟨_, _, .inl rfl⟩
  · exact ⟨_, _, .inl rfl⟩
  · exact ⟨_, _, .inl rfl⟩
  · rw [Bool.not_eq_false] at hnot hwant
    refine ⟨.held, s.calls, ?_⟩
    by_cases htakes : Takes node s
    · refine .inr ⟨⟨hnot, not_not.1 hacquiring, htakes⟩, ?_⟩
      have hhosts : (wantHosted node { s with leaseState := .held } && !s.child) = true := by
        rw [Bool.and_eq_true, htakes.2.1]
        exact ⟨hwant, rfl⟩
      rw [reconcileSync, if_pos hhosts]
    · exact .inl (takeOverHosting_of_not_takes (s := { s with leaseState := .held }) hwant htakes)

end SingletonNode

namespace SingletonWorld

variable {ι : Type} [LinearOrder ι] {w : SingletonWorld ι} {node : ι}

lemma Ordered.onLeaseAcquireResult (h : w.Ordered) (got : Bool)
    (hlists : SingletonNode.TakesOn node (w.nodes node) (.leaseAcquireResult got) → w.Lists node)
    (hfresh : SingletonNode.TakesOn node (w.nodes node) (.leaseAcquireResult got) →
      w.Fresh node) :
    (w.update node fun s => SingletonNode.onLeaseAcquireResult node s got).Ordered := by
  obtain ⟨leaseState, calls, hequation⟩ :=
    SingletonNode.onLeaseAcquireResult_eq node (w.nodes node) got
  have hcalled : (w.update node fun s => { s with leaseState, calls }).Ordered :=
    h.keep id rfl (fun _ => id) fun _ _ hsent => .inl hsent
  rcases hequation with hequation | ⟨htakes, hequation⟩
  · rw [update_congr (g := fun s => { s with leaseState, calls }) hequation]
    exact hcalled
  · rw [update_congr (g := fun s => SingletonNode.reconcileSync node
      { s with leaseState, calls }) hequation, ← update_update w node
      (fun s => { s with leaseState, calls }) (SingletonNode.reconcileSync node)]
    exact hcalled.reconcileSync (fun _ => (hlists htakes).update rfl)
      fun _ => (hfresh htakes).update fun _ => id

variable {message : SingletonInbox ι} {f : SingletonNode ι → SingletonNode ι}

lemma Ordered.onReceive (h : w.Ordered) (restartOnTermination : Bool)
    (hnotAck : ∀ peer, message ≠ .handOverAcknowledgment peer)
    (hthere : (w.nodes node).status ≠ .stopped)
    (htracked : message ≠ .terminated → (w.nodes node).Tracked) (hgone : message = .terminated →
      (w.nodes node).instanceLive.toNat + (w.nodes node).mailbox.count .terminated = 0 ∧
        (w.nodes node).child.toNat + (w.nodes node).pendingStop.toNat = 1)
    (hwithin : message ≠ .prompt .handOverTimeout ∧
      (SingletonNode.TakesOn node (w.nodes node) message → w.Lists node))
    (hcourteous : (SingletonNode.TakesOn node (w.nodes node) message → w.Fresh node) ∧
      ∀ peer ≠ node, (SingletonNode.AnswersOn node (w.nodes node) peer message →
          (w.nodes peer).handOver ≠ none → ¬ w.Overtakes node peer) ∧
        (SingletonNode.RespawnsOn node (w.nodes node) message → ¬ w.Cleared peer node) ∧
        (SingletonNode.PrunesOn node (w.nodes node) peer message → ¬ w.Claims peer)) :
    (w.update node fun s =>
      SingletonNode.onReceive false node restartOnTermination s message).Ordered := by
  cases message with
  | prompt kind =>
    cases kind with
    | reconcile => exact h.reconcileSync hwithin.2 hcourteous.1
    | acquireRetry => exact h.reconcileSync hwithin.2 hcourteous.1
    | restartChild =>
      exact h.onRestartChild fun peer hpeer => (hcourteous.2 peer hpeer).2.1
    | handOverTimeout => exact absurd rfl hwithin.1
    | handOverRetry =>
      exact h.onHandOverRetry fun peer hpeer => (hcourteous.2 peer hpeer).2.2
  | leaseAcquireResult got => exact h.onLeaseAcquireResult got hwithin.2 hcourteous.1
  | handOverRequest asker =>
    exact h.onHandOverRequest (htracked nofun) fun hasker => (hcourteous.2 asker hasker).1
  | handOverAcknowledgment peer => exact absurd rfl (hnotAck peer)
  | terminated =>
    obtain ⟨hzero, hone⟩ := hgone rfl
    exact h.handleTerminated restartOnTermination hzero hone hthere hwithin.2 hcourteous.1
      fun peer hpeer => (hcourteous.2 peer hpeer).1

lemma Ordered.receive (h : w.Ordered) (restartOnTermination : Bool)
    (htracked : (w.nodes node).Tracked) (hwithin : w.Within (.receive node))
    (hcourteous : w.Courteous (.receive node)) :
    (w.update node (SingletonNode.receive false node restartOnTermination)).Ordered := by
  cases hmailbox : (w.nodes node).mailbox with
  | nil =>
    rw [update_eq_self (by rw [SingletonNode.receive, hmailbox])]
    exact h
  | cons message mailbox =>
    by_cases hready : (w.nodes node).status = .running ∧ (w.nodes node).awaiting.isNone
    · rw [update_congr (g := fun s => SingletonNode.onReceive false node restartOnTermination
        { s with mailbox } message)
        (by
          rw [SingletonNode.receive, hmailbox]
          exact if_pos hready)]
      by_cases hack : ∃ peer, message = .handOverAcknowledgment peer
      · obtain ⟨peer, rfl⟩ := hack
        exact h.onHandOverAcknowledgment hmailbox
      · have hread : ∀ peer, SingletonInbox.handOverAcknowledgment peer ∈ mailbox →
            .handOverAcknowledgment peer ∈ (w.nodes node).mailbox := fun peer hmem => by
          rw [hmailbox]
          exact mem_cons_of_mem _ hmem
        have hpopped : (w.update node fun s => { s with mailbox }).Ordered :=
          h.keep id rfl hread fun _ _ hsent => .inl hsent
        obtain ⟨hnotTimeout, hlists⟩ := hwithin message mailbox hmailbox
        obtain ⟨hfresh, hpeers⟩ := hcourteous message mailbox hmailbox
        rw [← update_update w node (fun s => { s with mailbox }) fun s =>
          SingletonNode.onReceive false node restartOnTermination s message]
        refine hpopped.onReceive restartOnTermination (fun peer heq => hack ⟨peer, heq⟩)
          ?_ (fun hne => ?_) (fun heq => ?_) ⟨hnotTimeout, fun htakes => ?_⟩
          ⟨fun htakes => ?_, fun peer hpeer => ⟨fun hanswers houtstanding hovertakes => ?_,
            fun hrespawns hcleared => ?_, fun hprunes hclaims => ?_⟩⟩
        · rw [update_self]
          exact htracked.there
        · rw [update_self]
          exact htracked.pop hmailbox hne
        · rw [update_self]
          exact htracked.popTerminated (heq ▸ hmailbox)
        · rw [update_self] at htakes
          exact (hlists htakes).update rfl
        · rw [update_self] at htakes
          exact (hfresh htakes).update hread
        · rw [update_self] at hanswers
          rw [update_of_ne hpeer] at houtstanding
          exact (hpeers peer hpeer).1 hanswers houtstanding
            (overtakes_self hpeer rfl (hread peer) hovertakes)
        · rw [update_self] at hrespawns
          exact (hpeers peer hpeer).2.1 hrespawns
            (cleared_other hpeer (fun _ hsent => hsent) hcleared)
        · rw [update_self] at hprunes
          exact (hpeers peer hpeer).2.2 hprunes ((claims_update hpeer).1 hclaims)
    · rw [update_eq_self (by
        rw [SingletonNode.receive, hmailbox]
        exact if_neg hready)]
      exact h

/-! ## Every run -/

/-- No two nodes have cleared each other, and every manager knows of its instance. -/
structure HandsOver (w : SingletonWorld ι) : Prop where
  tracked : ∀ node, (w.nodes node).Tracked
  ordered : w.Ordered

lemma tracked_update (h : ∀ node, (w.nodes node).Tracked) (hf : (f (w.nodes node)).Tracked)
    (other : ι) : ((w.update node f).nodes other).Tracked := by
  by_cases heq : other = node
  · subst heq
    rw [update_self]
    exact hf
  · rw [update_of_ne heq]
    exact h other

lemma HandsOver.update (h : w.HandsOver) (htracked : (f (w.nodes node)).Tracked)
    (hordered : (w.update node f).Ordered) : (w.update node f).HandsOver :=
  ⟨tracked_update h.tracked htracked, hordered⟩

lemma HandsOver.initial (views : ι → SingletonView ι) : (running views).HandsOver where
  tracked _ := ⟨rfl, zero_le 1, nofun⟩
  ordered := by
    rintro n m - ⟨hlive | ⟨awaiting, hawaiting, -⟩, -⟩
    · cases hlive
    · cases hawaiting

lemma Ordered.enqueue (h : w.Ordered)
    (hmessage : ∀ peer, message ≠ .handOverAcknowledgment peer) :
    (w.update node fun s => s.enqueue message).Ordered := by
  obtain ⟨told, htold, hread⟩ := (w.nodes node).enqueue_eq message
  rw [update_congr (g := fun s => { s with mailbox := s.mailbox ++ told }) htold]
  refine h.keep id rfl (fun peer hmem => ?_) fun _ _ hsent => .inl hsent
  exact (mem_append.1 hmem).resolve_right fun hmem => hmessage peer (hread _ hmem).symm

lemma Ordered.lose (h : w.Ordered) (node : ι) (i : ℕ) : (w.lose node i).Ordered :=
  h.keep (f := fun s => { s with outbox := s.outbox.eraseIdx i }) id rfl (fun _ => id)
    fun _ _ hsent => .inl (mem_of_mem_eraseIdx hsent)

lemma Ordered.deliverAck (h : w.Ordered) {peer : ι} {i : ℕ}
    (hsent : (w.nodes node).outbox[i]? = some (peer, .handOverAcknowledgment)) :
    ((w.lose node i).update peer fun s => s.enqueue (.handOverAcknowledgment node)).Ordered := by
  obtain ⟨told, htold, hread⟩ :=
    ((w.lose node i).nodes peer).enqueue_eq (.handOverAcknowledgment node)
  rw [update_congr (g := fun s => { s with mailbox := s.mailbox ++ told }) htold]
  have hlost : ∀ n, ∃ outbox, (w.lose node i).nodes n = { w.nodes n with outbox } ∧
      ∀ sent ∈ outbox, sent ∈ (w.nodes n).outbox := by
    intro n
    by_cases hn : n = node
    · subst hn
      exact ⟨_, update_self w n _, fun _ => mem_of_mem_eraseIdx⟩
    · exact ⟨_, update_of_ne hn w _, fun _ => id⟩
  have hafter : ∀ n, ∃ outbox mailbox, ((w.lose node i).update peer fun s =>
      { s with mailbox := s.mailbox ++ told }).nodes n = { w.nodes n with outbox, mailbox } ∧
      (∀ sent ∈ outbox, sent ∈ (w.nodes n).outbox) ∧
      ∀ message ∈ mailbox, message ∈ (w.nodes n).mailbox ∨
        n = peer ∧ message = .handOverAcknowledgment node := by
    intro n
    obtain ⟨outbox, heq, houtbox⟩ := hlost n
    by_cases hn : n = peer
    · subst hn
      refine ⟨outbox, (w.nodes n).mailbox ++ told, ?_, houtbox, fun message hmem => ?_⟩
      · rw [update_self, heq]
      · exact (mem_append.1 hmem).imp_right fun hmem => ⟨rfl, hread _ hmem⟩
    · refine ⟨outbox, (w.nodes n).mailbox, ?_, houtbox, fun _ => .inl⟩
      rw [update_of_ne hn, heq]
  have hacks : ∀ n m, ((w.lose node i).update peer fun s =>
      { s with mailbox := s.mailbox ++ told }).Acknowledges n m → w.Acknowledges n m := by
    intro n m hack
    obtain ⟨_, _, hn, houtbox, -⟩ := hafter n
    obtain ⟨_, _, hm, -, hmailbox⟩ := hafter m
    rw [Acknowledges, hn, hm] at hack
    rcases hack with hack | hack
    · exact .inl (houtbox _ hack)
    · rcases hmailbox _ hack with hack | ⟨rfl, heq⟩
      · exact .inr hack
      · cases heq
        exact .inl (mem_of_getElem? hsent)
  refine h.mono fun n m _ hcleared => ?_
  obtain ⟨_, _, hn, -⟩ := hafter n
  rw [Cleared, Overtakes, hn] at hcleared
  refine hcleared.imp_right fun ⟨awaiting, hawaiting, hnot⟩ => ⟨awaiting, hawaiting, ?_⟩
  exact hnot.imp_right (hacks m n)

lemma HandsOver.lose (h : w.HandsOver) (node : ι) (i : ℕ) : (w.lose node i).HandsOver :=
  ⟨tracked_update h.tracked (h.tracked node), h.ordered.lose node i⟩

lemma HandsOver.deliver (h : w.HandsOver) (node : ι) (i : ℕ) : (w.deliver node i).HandsOver := by
  rw [SingletonWorld.deliver]
  split
  · exact h
  · next peer message hsent =>
    have hlost := h.lose node i
    refine ⟨tracked_update hlost.tracked ((hlost.tracked peer).enqueue ?_), ?_⟩
    · cases message <;> nofun
    · cases message with
      | handOverRequest => exact hlost.ordered.enqueue nofun
      | handOverAcknowledgment => exact h.ordered.deliverAck hsent

lemma HandsOver.instanceTerminated (h : w.HandsOver) (node : ι) :
    (w.update node SingletonNode.instanceTerminated).HandsOver := by
  by_cases hlive : (w.nodes node).instanceLive = true
  · rw [update_congr (g := fun s => SingletonNode.tell { s with instanceLive := false }
      SingletonInbox.terminated)
      (by
        rw [SingletonNode.instanceTerminated, if_pos hlive]
        exact if_neg (h.tracked node).there)]
    refine h.update ?_ (h.ordered.keep nofun rfl (fun peer hmem => ?_) fun _ _ hsent => .inl hsent)
    · obtain ⟨hcount, hone, hthere⟩ := h.tracked node
      refine ⟨?_, hone, hthere⟩
      rw [hlive, Nat.add_comm] at hcount
      change 0 + ((w.nodes node).mailbox ++ [SingletonInbox.terminated]).count
        SingletonInbox.terminated = _
      rw [List.count_append, Nat.zero_add]
      exact hcount
    · exact (mem_append.1 hmem).resolve_right fun hmem => nomatch mem_singleton.1 hmem
  · rw [update_eq_self (by rw [SingletonNode.instanceTerminated, if_neg hlive])]
    exact h

lemma HandsOver.step (h : w.HandsOver) (restartOnTermination : Bool) {move : HandOverMove ι}
    (hwithin : w.Within move) (hcourteous : w.Courteous move) :
    (handOverStep restartOnTermination w move).HandsOver := by
  cases move with
  | changeView node view =>
    exact h.update (f := fun s => { s with view }) (h.tracked node)
      (h.ordered.keep id rfl (fun _ => id) fun _ _ hsent => .inl hsent)
  | reconcile node =>
    exact h.update (h.tracked node).reconcileSync (h.ordered.reconcileSync hwithin hcourteous)
  | prompt node kind =>
    exact h.update (f := fun s => s.enqueue (.prompt kind)) ((h.tracked node).enqueue nofun)
      (h.ordered.enqueue nofun)
  | deliver node i => exact h.deliver node i
  | lose node i => exact h.lose node i
  | receive node =>
    exact h.update ((h.tracked node).receive restartOnTermination)
      (h.ordered.receive restartOnTermination (h.tracked node) hwithin hcourteous)
  | instanceTerminated node => exact h.instanceTerminated node

/-- Along a run within the hand-over's reach in which the managers are courteous, two nodes
never have a live instance. -/
theorem handOver_unique (restartOnTermination : Bool) (views : ι → SingletonView ι)
    (moves : List (HandOverMove ι))
    (hmoves : Machine.Along (handOverStep restartOnTermination)
      (fun w move => w.Within move ∧ w.Courteous move) (running views) moves) :
    (Machine.run (handOverStep restartOnTermination) (running views) moves).Unique := by
  have hrun : HandsOver (Machine.run (handOverStep restartOnTermination) (running views) moves) :=
    Machine.invariant (fun _ _ hmove h => h.step restartOnTermination hmove.1 hmove.2) hmoves
      (HandsOver.initial views)
  intro n m hn hm
  by_contra hne
  exact hrun.ordered n m hne ⟨.inl hn, .inl hm⟩

/-- The second of two nodes hosts; then the first one comes up, and is handed over to. -/
def handedOver : List (HandOverMove (Fin 2)) :=
  [.reconcile 1, .changeView 0 ⟨[0, 1], [0, 1]⟩, .changeView 1 ⟨[0, 1], [0, 1]⟩, .reconcile 0,
    .deliver 0 0, .receive 1, .instanceTerminated 1, .receive 1, .deliver 1 0, .receive 0]

lemma within_receive (hmailbox : (w.nodes node).mailbox = message :: mailbox)
    (hmessage : message ≠ .prompt .handOverTimeout)
    (htakes : ¬ SingletonNode.TakesOn node (w.nodes node) message) : w.Within (.receive node) := by
  intro read rest hread
  obtain ⟨rfl, -⟩ := List.cons.inj (hmailbox.symm.trans hread)
  exact ⟨hmessage, fun h => absurd h htakes⟩

lemma within_deliver_zero (w : SingletonWorld ι) (node : ι) : w.Within (.deliver node 0) :=
  fun _ hj => absurd hj (not_lt_zero _)

/-- A turn on an answer, or on a message of a node that has no hand-over of its own. -/
lemma courteous_receive (hmailbox : (w.nodes node).mailbox = message :: mailbox)
    (htakes : ¬ SingletonNode.TakesOn node (w.nodes node) message)
    (hprompt : ∀ kind, message ≠ .prompt kind)
    (hanswers : ∀ peer, SingletonNode.AnswersOn node (w.nodes node) peer message →
      (w.nodes node).handOver = none) : w.Courteous (.receive node) := by
  intro read rest hread
  obtain ⟨rfl, -⟩ := List.cons.inj (hmailbox.symm.trans hread)
  refine ⟨fun h => absurd h htakes, fun peer _ => ⟨fun h _ hovertakes => ?_, fun h => ?_,
    fun h => ?_⟩⟩
  · obtain ⟨awaiting, hawaiting, -⟩ := hovertakes
    exact nomatch (hanswers peer h).symm.trans hawaiting
  · cases message with
    | prompt kind => exact absurd rfl (hprompt kind)
    | _ => exact h.elim
  · cases message with
    | prompt kind => exact absurd rfl (hprompt kind)
    | _ => exact h.elim

theorem handOver_unique_handedOver :
    (Machine.run (handOverStep true)
      (running fun _ => ⟨[0, 1], [1]⟩ : SingletonWorld (Fin 2)) handedOver).Unique := by
  have hall : ∀ node : Fin 2, node ∈ [0, 1] := by decide
  refine handOver_unique true _ _ ⟨⟨fun _ peer _ hclaims => ?_, fun _ peer _ hack _ => ?_⟩,
    ⟨hall, trivial⟩, ⟨hall, trivial⟩,
    ⟨fun _ peer _ _ => ?_, fun _ peer _ hack _ => ?_⟩, ⟨within_deliver_zero _ _, trivial⟩,
    ⟨within_receive rfl nofun id, courteous_receive rfl id nofun ?_⟩, ⟨trivial, trivial⟩,
    ⟨within_receive rfl nofun ?_, courteous_receive rfl ?_ nofun ?_⟩,
    ⟨within_deliver_zero _ _, trivial⟩,
    ⟨within_receive rfl nofun id, courteous_receive rfl id nofun ?_⟩, trivial⟩
  · rcases hclaims with hlive | hasked
    · cases hlive
    · exact absurd rfl hasked
  · rcases hack with hsent | hread
    · exact not_mem_nil hsent
    · exact not_mem_nil hread
  · exact hall peer
  · obtain rfl := Fin.eq_one_of_ne_zero peer ‹_›
    rcases hack with hsent | hread
    · exact not_mem_nil hsent
    · exact not_mem_nil hread
  · exact fun _ _ => rfl
  · exact fun h => Bool.false_ne_true h.2.1
  · exact fun h => Bool.false_ne_true h.2.1
  · exact fun _ _ => rfl
  · exact fun _ h => h.elim

/-! ### Two nodes that overtake each other -/

/-- Three nodes that know each other; the second does not yet see the first one come up. -/
def threeViews (node : Fin 3) : SingletonView (Fin 3) :=
  ⟨[0, 1, 2], if node = 1 then [1, 2] else [0, 1, 2]⟩

/-- The second node asks the third; the first asks both, and the second answers it while its own
hand-over is outstanding. -/
def overtaken : List (HandOverMove (Fin 3)) :=
  [.reconcile 1, .reconcile 0, .deliver 0 0, .receive 1, .deliver 0 0, .receive 2,
    .deliver 1 0, .receive 2, .deliver 1 0, .deliver 2 0, .receive 0, .receive 0,
    .deliver 2 0, .receive 1]

theorem not_handOver_unique_overtaken :
    Machine.Along (handOverStep true) Within (running threeViews) overtaken ∧
      ¬ (Machine.run (handOverStep true) (running threeViews) overtaken).Unique := by
  refine ⟨⟨fun _ peer _ hclaims => ?_, fun _ peer _ _ => ?_, within_deliver_zero _ _,
    within_receive rfl nofun id, within_deliver_zero _ _, within_receive rfl nofun id,
    within_deliver_zero _ _, within_receive rfl nofun id, within_deliver_zero _ _,
    within_deliver_zero _ _, within_receive rfl nofun id, within_receive rfl nofun id,
    within_deliver_zero _ _, within_receive rfl nofun id, trivial⟩, fun h => ?_⟩
  · rcases hclaims with hlive | hasked
    · cases hlive
    · exact absurd rfl hasked
  · have hall : ∀ peer : Fin 3, peer ∈ [0, 1, 2] := by decide
    exact hall peer
  · exact absurd (h 0 1 (by decide) (by decide)) (by decide)

end SingletonWorld

end ActorTs.Cluster
