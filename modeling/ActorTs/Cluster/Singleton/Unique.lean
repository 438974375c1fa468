import ActorTs.Cluster.Singleton.World
import Mathlib

/-!
# At most one instance behind the lease

A node that has an instance holds the lease and has no release under way. The mailbox is
what carries this through a hand-over: a manager forgets its child when it reads that the
child has terminated, and a result of an acquire is never read before the termination of an
instance that was there when it was asked for.
-/

open List Option Bool Function Nat

namespace ActorTs.Cluster

open Machine SingletonInbox SingletonWorld LeaseCall

variable {ι : Type}

def SingletonInbox.isResult : SingletonInbox ι → Bool
  | .leaseAcquireResult _ => true
  | _ => false

/-- An acquire that a manager will be told of. -/
def LeaseCall.isTold : LeaseCall → Bool
  | .acquire _ told => told
  | .release .. => false

/-- What the invariant of a node is about; `gone` says that no instance of the manager is
there. -/
structure SingletonCore (ι : Type) where
  leaseState : LeaseState
  child : Bool
  pendingStop : Bool
  instanceLive : Bool
  mailbox : List (SingletonInbox ι)
  calls : List LeaseCall
  gone : Bool

def SingletonNode.core (s : SingletonNode ι) : SingletonCore ι :=
  ⟨s.leaseState, s.child, s.pendingStop, s.instanceLive, s.mailbox, s.calls,
    decide (s.status = .recreating ∨ s.status = .stopped)⟩

/-- How many of the instances of a node its manager has not read the end of. -/
def SingletonCore.unread [DecidableEq ι] (c : SingletonCore ι) : ℕ :=
  c.instanceLive.toNat + c.mailbox.count .terminated

/-- The lease, the instance and the mailbox of a node agree with what its manager knows. -/
structure SingletonCore.Sound [DecidableEq ι] (node : ι) (holder : Option ι)
    (c : SingletonCore ι) : Prop where
  free : c.leaseState ≠ .held → c.child = false ∧ c.pendingStop = false ∧ c.instanceLive = false
  held : c.leaseState = .held → holder = some node
  known : c.leaseState = .held → c.unread = c.child.toNat + c.pendingStop.toNat ∧ c.unread ≤ 1
  unreleased : c.leaseState ≠ .none → ∀ awaited, LeaseCall.release false awaited ∉ c.calls
  answers : c.calls.countP LeaseCall.isTold + c.mailbox.countP SingletonInbox.isResult =
    if c.leaseState = .acquiring then 1 else 0
  granted : .acquire (some true) true ∈ c.calls → holder = some node
  got : .leaseAcquireResult true ∈ c.mailbox → holder = some node
  order : c.mailbox.Pairwise fun a b => a.isResult = true → b ≠ .terminated
  gone : c.gone = true → c.leaseState = .none

namespace SingletonCore.Sound

variable [DecidableEq ι] {node : ι} {holder : Option ι} {c : SingletonCore ι}
  {message : SingletonInbox ι} {mailbox : List (SingletonInbox ι)} {released : List LeaseCall}

lemma initial : (SingletonNode.core ({} : SingletonNode ι)).Sound node holder where
  free _ := ⟨rfl, rfl, rfl⟩
  held := nofun
  known := nofun
  unreleased h := absurd rfl h
  answers := rfl
  granted := nofun
  got := nofun
  order := .nil
  gone _ := rfl

lemma mono (h : c.Sound node holder) {holder' : Option ι}
    (hholder : holder = some node → holder' = some node) : c.Sound node holder' :=
  ⟨h.free, fun hheld => hholder (h.held hheld), h.known, h.unreleased, h.answers,
    fun hgranted => hholder (h.granted hgranted), fun hgot => hholder (h.got hgot), h.order,
    h.gone⟩

/-- What is told that is neither a result nor a termination changes nothing. -/
lemma tell (h : c.Sound node holder) (hresult : message.isResult = false)
    (hterminated : message ≠ .terminated) :
    ({ c with mailbox := c.mailbox ++ [message] } : SingletonCore ι).Sound node holder where
  free := h.free
  held := h.held
  known hheld := by
    have hunread : SingletonCore.unread { c with mailbox := c.mailbox ++ [message] } =
        c.unread := by
      rw [unread, unread, count_append, count_cons_of_ne hterminated]
      rfl
    rw [hunread]
    exact h.known hheld
  unreleased := h.unreleased
  answers := by
    rw [countP_append, countP_singleton, hresult]
    exact h.answers
  granted := h.granted
  got hgot := by
    rcases mem_append.1 hgot with hgot | hgot
    · exact h.got hgot
    · rw [← mem_singleton.1 hgot] at hresult
      cases hresult
  order := pairwise_append.2 ⟨h.order, pairwise_singleton _ _,
    fun _ _ b hb _ => mem_singleton.1 hb ▸ hterminated⟩
  gone := h.gone

lemma pop (h : c.Sound node holder) (hmailbox : c.mailbox = message :: mailbox)
    (hresult : message.isResult = false) (hterminated : message ≠ .terminated) :
    ({ c with mailbox } : SingletonCore ι).Sound node holder where
  free := h.free
  held := h.held
  known hheld := by
    have hunread : c.unread = SingletonCore.unread { c with mailbox } := by
      rw [unread, unread, hmailbox, count_cons_of_ne hterminated]
    rw [← hunread]
    exact h.known hheld
  unreleased := h.unreleased
  answers := by
    have hanswers := h.answers
    rw [hmailbox, countP_cons_of_neg (by rw [hresult]; exact false_ne_true)] at hanswers
    exact hanswers
  granted := h.granted
  got hgot := h.got (hmailbox ▸ mem_cons_of_mem _ hgot)
  order := (pairwise_cons.1 (hmailbox ▸ h.order)).2
  gone := h.gone

omit [DecidableEq ι] in
lemma not_result_of_countP (hresults : mailbox.countP isResult = 0) :
    ∀ message ∈ mailbox, message.isResult = false := fun message hmem =>
  eq_false_iff.2 (countP_eq_zero.1 hresults message hmem)

omit [DecidableEq ι] in
lemma countP_of_not_result (hresults : ∀ message ∈ mailbox, message.isResult = false) :
    mailbox.countP isResult = 0 :=
  countP_eq_zero.2 fun message hmem => by
    rw [hresults message hmem]
    exact false_ne_true

section

variable (h : c.Sound node holder)
include h

/-- A manager without an instance and without the lease, with nothing to be told of it. -/
lemma without (hreleased : ∀ call ∈ released, ∃ awaited, call = .release false awaited)
    (htold : c.calls.countP isTold = 0)
    (hmailbox : ∀ message ∈ mailbox, message.isResult = false) (gone : Bool) :
    Sound node holder ⟨.none, false, false, false, mailbox, c.calls ++ released, gone⟩ where
  free _ := ⟨rfl, rfl, rfl⟩
  held := nofun
  known := nofun
  unreleased hne := absurd rfl hne
  answers := by
    have hnone : released.countP isTold = 0 := by
      refine countP_eq_zero.2 fun call hcall => ?_
      obtain ⟨awaited, rfl⟩ := hreleased call hcall
      exact false_ne_true
    rw [countP_append, htold, hnone, countP_of_not_result hmailbox]
    rfl
  granted hgranted := by
    rcases mem_append.1 hgranted with hgranted | hgranted
    · exact h.granted hgranted
    · obtain ⟨_, heq⟩ := hreleased _ hgranted
      cases heq
  got hgot := nomatch hmailbox _ hgot
  order := pairwise_of_forall_mem_list fun a ha _ _ hresult => by
    rw [hmailbox a ha] at hresult
    cases hresult
  gone _ := rfl

lemma letGo (hchild : c.child = false) (hpending : c.pendingStop = false)
    (hlive : c.instanceLive = false)
    (hreleased : ∀ call ∈ released, ∃ awaited, call = .release false awaited)
    (htold : c.calls.countP isTold = 0)
    (hmailbox : ∀ message ∈ mailbox, message.isResult = false) :
    ({ c with leaseState := .none, mailbox, calls := c.calls ++ released } :
      SingletonCore ι).Sound node holder := by
  rw [hchild, hpending, hlive]
  exact h.without hreleased htold hmailbox c.gone

lemma answers_of_ne (hne : c.leaseState ≠ .acquiring) :
    c.calls.countP isTold = 0 ∧ ∀ message ∈ c.mailbox, message.isResult = false := by
  have hanswers := h.answers
  rw [if_neg hne] at hanswers
  obtain ⟨htold, hresults⟩ := Nat.add_eq_zero_iff.1 hanswers
  exact ⟨htold, not_result_of_countP hresults⟩

lemma live_of_no_child (hheld : c.leaseState = .held) (hchild : c.child = false)
    (hpending : c.pendingStop = false) :
    c.instanceLive = false ∧ c.mailbox.count .terminated = 0 := by
  obtain ⟨hunread, -⟩ := h.known hheld
  rw [hchild, hpending, unread] at hunread
  obtain ⟨hlive, hcount⟩ := Nat.add_eq_zero_iff.1 hunread
  exact ⟨Bool.toNat_eq_zero.1 hlive, hcount⟩

lemma release (hheld : c.leaseState = .held) (hchild : c.child = false)
    (hpending : c.pendingStop = false) (awaited : Bool) :
    ({ c with leaseState := .none, calls := c.calls ++ [.release false awaited] } :
      SingletonCore ι).Sound node holder := by
  obtain ⟨htold, hresults⟩ := h.answers_of_ne (by rw [hheld]; nofun)
  exact h.letGo hchild hpending (h.live_of_no_child hheld hchild hpending).1
    (fun call hcall => ⟨awaited, mem_singleton.1 hcall⟩) htold hresults

/-- What a manager knows when it reads the result of an acquire. -/
structure Asked (node : ι) (holder : Option ι) (c : SingletonCore ι) (got : Bool)
    (mailbox : List (SingletonInbox ι)) : Prop where
  acquiring : c.leaseState = .acquiring
  told : c.calls.countP LeaseCall.isTold = 0
  results : ∀ message ∈ mailbox, message.isResult = false
  holder : got = true → holder = some node
  terminated : SingletonInbox.terminated ∉ mailbox

lemma asked {got : Bool} (hmailbox : c.mailbox = .leaseAcquireResult got :: mailbox) :
    Asked node holder c got mailbox := by
  have hanswers := h.answers
  rw [hmailbox, List.countP_cons_of_pos rfl] at hanswers
  have hacquiring : c.leaseState = .acquiring := by
    by_contra hne
    rw [if_neg hne] at hanswers
    exact absurd hanswers (Nat.succ_ne_zero _)
  rw [if_pos hacquiring, ← Nat.add_assoc, Nat.add_eq_right] at hanswers
  obtain ⟨htold, hresults⟩ := Nat.add_eq_zero_iff.1 hanswers
  have horder := h.order
  rw [hmailbox, List.pairwise_cons] at horder
  refine ⟨hacquiring, htold, not_result_of_countP hresults, ?_, fun hmem => ?_⟩
  · rintro rfl
    exact h.got (hmailbox ▸ List.mem_cons_self)
  · exact horder.1 _ hmem rfl rfl

lemma acquired (hasked : Asked node holder c true mailbox) :
    ({ c with leaseState := .held, mailbox } : SingletonCore ι).Sound node holder := by
  obtain ⟨hchild, hpending, hlive⟩ := h.free (by rw [hasked.acquiring]; nofun)
  have hunread : SingletonCore.unread { c with leaseState := .held, mailbox } = 0 := by
    rw [unread, hlive, count_eq_zero.2 hasked.terminated]
    rfl
  refine ⟨fun hne => absurd rfl hne, fun _ => hasked.holder rfl, fun _ => ?_, fun _ => ?_, ?_,
    h.granted, fun _ => hasked.holder rfl, ?_, fun hgone => ?_⟩
  · rw [hunread, hchild, hpending]
    exact ⟨rfl, zero_le _⟩
  · exact h.unreleased (by rw [hasked.acquiring]; nofun)
  · rw [hasked.told, countP_of_not_result hasked.results]
    rfl
  · exact pairwise_of_forall_mem_list fun a ha _ _ hresult => by
      rw [hasked.results a ha] at hresult
      cases hresult
  · have hnone := h.gone hgone
    rw [hasked.acquiring] at hnone
    cases hnone

lemma popTerminated (hmailbox : c.mailbox = .terminated :: mailbox) :
    ({ c with mailbox, child := false, pendingStop := false } : SingletonCore ι).Sound node
      holder where
  free hne := ⟨rfl, rfl, (h.free hne).2.2⟩
  held := h.held
  known hheld := by
    obtain ⟨-, hone⟩ := h.known hheld
    have hunread : c.unread = SingletonCore.unread
        { c with mailbox, child := false, pendingStop := false } + 1 := by
      rw [unread, unread, hmailbox, count_cons_self]
      rfl
    rw [hunread] at hone
    have hzero := le_of_succ_le_succ hone
    exact ⟨Nat.le_zero.1 hzero, Nat.le_trans hzero (Nat.zero_le _)⟩
  unreleased := h.unreleased
  answers := by
    have hanswers := h.answers
    rw [hmailbox, countP_cons_of_neg Bool.false_ne_true] at hanswers
    exact hanswers
  granted := h.granted
  got hgot := h.got (hmailbox ▸ mem_cons_of_mem _ hgot)
  order := (pairwise_cons.1 (hmailbox ▸ h.order)).2
  gone := h.gone

lemma not_both (hpending : c.pendingStop = true) : c.child = false := by
  by_cases hheld : c.leaseState = .held
  · obtain ⟨hunread, hone⟩ := h.known hheld
    rw [hunread, hpending] at hone
    cases hchild : c.child with
    | false => rfl
    | true =>
      rw [hchild] at hone
      exact absurd hone (by decide)
  · exact (h.free hheld).1

end

end SingletonCore.Sound

/-! ## The turns of a manager -/

namespace SingletonNode

variable [LinearOrder ι] {node : ι} {holder : Option ι} {s : SingletonNode ι}
  {restartOnTermination : Bool}

/-- The invariant of a node. -/
abbrev Sound (node : ι) (holder : Option ι) (s : SingletonNode ι) : Prop :=
  s.core.Sound node holder

omit [LinearOrder ι] in
lemma stopChild_child (s : SingletonNode ι) : s.stopChild.child = false := by
  rw [stopChild]
  split_ifs with hchild
  · rfl
  · exact eq_false_iff.2 hchild

omit [LinearOrder ι] in
lemma stopChild_leaseState (s : SingletonNode ι) : s.stopChild.leaseState = s.leaseState := by
  rw [stopChild]
  split_ifs <;> rfl

variable {mailbox : List (SingletonInbox ι)} {message : SingletonInbox ι} {i : ℕ} {got : Bool}
  {α : Type*} {p : α → Bool} {l : List α}

section

variable (h : s.Sound node holder)
include h

lemma Sound.spawn (hheld : s.leaseState = .held) : s.spawn.Sound node holder := by
  rw [SingletonNode.spawn]
  split_ifs with hchild hpending hlive
  · exact h
  · exact h
  · rw [not_eq_true] at hchild hpending
    exact absurd (h.live_of_no_child hheld hchild hpending).1 (not_eq_false _ ▸ hlive)
  · rw [not_eq_true] at hchild hpending
    obtain ⟨-, hcount⟩ := h.live_of_no_child hheld hchild hpending
    have hunread : SingletonCore.unread { s.core with child := true, instanceLive := true } = 1 := by
      change true.toNat + s.mailbox.count .terminated = 1
      rw [show s.mailbox.count .terminated = 0 from hcount]
      rfl
    refine ⟨fun hne => absurd hheld hne, h.held, fun _ => ?_, h.unreleased, h.answers, h.granted,
      h.got, h.order, h.gone⟩
    refine ⟨hunread.trans ?_, Nat.le_of_eq hunread⟩
    rw [hpending]
    rfl

lemma Sound.stopChild : s.stopChild.Sound node holder := by
  rw [SingletonNode.stopChild]
  split_ifs with hchild
  · have hpending : s.pendingStop = false := by
      by_contra hpending
      rw [not_eq_false] at hpending
      exact false_ne_true ((h.not_both hpending).symm.trans hchild)
    have hheld : s.leaseState = .held := by
      by_contra hne
      exact false_ne_true ((h.free hne).1.symm.trans hchild)
    refine ⟨fun hne => absurd hheld hne, h.held, fun _ => ?_, h.unreleased, h.answers, h.granted,
      h.got, h.order, h.gone⟩
    obtain ⟨hunread, hone⟩ := h.known hheld
    refine ⟨hunread.trans ?_, hone⟩
    change s.child.toNat + s.pendingStop.toNat = false.toNat + true.toNat
    rw [hchild, hpending]
    rfl
  · exact h

lemma Sound.completeHandOver : (completeHandOver true node s).Sound node holder := by
  rw [SingletonNode.completeHandOver]
  split
  · exact h
  · split_ifs with hwant hheld
    · exact h
    · exact h
    · refine Sound.spawn (s := { s with handOver := none }) h ?_
      exact not_not.1 fun hne => hheld ⟨rfl, hne⟩

lemma Sound.takeOverHosting (hheld : s.leaseState = .held) :
    (s.takeOverHosting node).Sound node holder := by
  rw [SingletonNode.takeOverHosting]
  split_ifs
  · exact h
  · exact h
  · split
    · exact h.spawn hheld
    · exact h

lemma Sound.onHandOverRetry : (onHandOverRetry true node s).Sound node holder := by
  rw [SingletonNode.onHandOverRetry]
  split
  · exact h
  · dsimp only
    split
    · exact Sound.completeHandOver (s := { s with handOver := some [] }) h
    · exact h

lemma Sound.onHandOverAcknowledgment (peer : ι) :
    (onHandOverAcknowledgment true node s peer).Sound node holder := by
  rw [SingletonNode.onHandOverAcknowledgment]
  split
  · exact h
  · split
    · exact h
    · split
      · exact Sound.completeHandOver (s := { s with handOver := some [] }) h
      · exact h

lemma Sound.onHandOverRequest (peer : ι) : (s.onHandOverRequest node peer).Sound node holder := by
  rw [SingletonNode.onHandOverRequest]
  split_ifs
  · exact h
  · exact Sound.stopChild (s := { s with
      handOverRequesters := s.handOverRequesters }) h
  · exact Sound.stopChild (s := { s with
      handOverRequesters := s.handOverRequesters ++ [peer] }) h
  · exact h
  · exact h
  · exact h

lemma Sound.answerHandOverRequesters : s.answerHandOverRequesters.Sound node holder := by
  rw [SingletonNode.answerHandOverRequesters]
  split_ifs
  · exact h
  · exact h

lemma Sound.releaseLease (hchild : s.child = false)
    (hpending : s.pendingStop = false) (hheld : s.leaseState = .held)
    (andThen : List SingletonPrompt) : (s.releaseLease andThen).Sound node holder := by
  rw [SingletonNode.releaseLease, if_pos hheld]
  exact h.release hheld hchild hpending true

lemma Sound.voidReleaseLease (hchild : s.child = false)
    (hpending : s.pendingStop = false) : s.voidReleaseLease.Sound node holder := by
  rw [SingletonNode.voidReleaseLease]
  split_ifs with hheld
  · exact h.release hheld hchild hpending false
  · exact h

lemma Sound.handleReconcile (hthere : s.core.gone = false)
    (hreleases : s.wantHosted node = true → s.leaseState = .none →
      ∀ awaited, release false awaited ∉ s.calls) :
    (handleReconcile true node s).Sound node holder := by
  rw [SingletonNode.handleReconcile, if_neg (by decide)]
  split
  · next hwant =>
    split
    · next hheld => exact h.takeOverHosting hheld
    · exact h
    · next hnone =>
      have hne : s.leaseState ≠ .held := by
        rw [hnone]
        nofun
      obtain ⟨htold, hresults⟩ := h.answers_of_ne (by
        change s.leaseState ≠ .acquiring
        rw [hnone]
        nofun)
      refine ⟨fun _ => h.free hne, nofun, nofun, fun _ awaited hmem => ?_, ?_,
        fun hgranted => ?_, h.got, h.order, fun hgone => ?_⟩
      · rcases mem_append.1 hmem with hmem | hmem
        · exact hreleases hwant hnone awaited hmem
        · cases mem_singleton.1 hmem
      · have hzero : s.mailbox.countP isResult = 0 :=
          SingletonCore.Sound.countP_of_not_result hresults
        change (s.calls ++ [acquire none true]).countP _ + s.mailbox.countP _ = 1
        rw [countP_append, hzero]
        exact congrArg (· + 1) htold
      · refine h.granted ((mem_append.1 hgranted).resolve_right fun hmem => ?_)
        cases mem_singleton.1 hmem
      · exact absurd (hthere.symm.trans hgone) false_ne_true
  · split
    · next hheld =>
      have hstop := h.stopChild
      split
      · exact hstop
      · next hpending =>
        rw [not_eq_true] at hpending
        exact hstop.releaseLease s.stopChild_child hpending (s.stopChild_leaseState.trans hheld) []
    · exact h
    · exact h

lemma Sound.tell (kind : SingletonPrompt) : (s.tell (.prompt kind)).Sound node holder :=
  SingletonCore.Sound.tell h rfl nofun

lemma Sound.onRestartChild : (onRestartChild true node s).Sound node holder := by
  rw [SingletonNode.onRestartChild]
  split
  · exact h
  · split
    · exact h
    · split
      · exact h.tell .reconcile
      · next hheld => exact h.spawn (not_not.1 fun hne => hheld ⟨rfl, hne⟩)

lemma Sound.onLeaseAcquireResult (hmailbox : s.mailbox = .leaseAcquireResult got :: mailbox) :
    (onLeaseAcquireResult node { s with mailbox } got).Sound node holder := by
  have hasked := SingletonCore.Sound.asked h hmailbox
  have hacquiring : s.leaseState = .acquiring := hasked.acquiring
  obtain ⟨hchild, hpending, hlive⟩ := h.free (by
    change s.leaseState ≠ .held
    rw [hacquiring]
    nofun)
  rw [SingletonNode.onLeaseAcquireResult, if_neg (not_not.2 hacquiring)]
  have hletGo : ∀ released, (∀ call ∈ released, ∃ awaited, call = .release false awaited) →
      SingletonCore.Sound node holder
        { s.core with leaseState := .none, mailbox, calls := s.calls ++ released } :=
    fun released hreleased =>
      h.letGo hchild hpending hlive hreleased hasked.told hasked.results
  split
  · have hsame := hletGo [] nofun
    rw [append_nil] at hsame
    exact hsame
  · next hgot =>
    split
    · exact hletGo [.release false false] fun call hcall =>
        ⟨false, mem_singleton.1 hcall⟩
    · rw [not_eq_false] at hgot
      subst hgot
      exact Sound.takeOverHosting (s := { s with mailbox, leaseState := .held })
        (SingletonCore.Sound.acquired h hasked) rfl

end

lemma Sound.onChildDiedUnexpectedly (h : Sound node holder { s with child := false })
    (hpending : s.pendingStop = false) :
    (s.onChildDiedUnexpectedly restartOnTermination).Sound node holder := by
  rw [SingletonNode.onChildDiedUnexpectedly]
  split
  · exact h
  · exact Sound.voidReleaseLease (s := { s with child := false, terminallyStopped := true }) h rfl
      hpending

lemma Sound.handleTerminated (h : s.Sound node holder)
    (hmailbox : s.mailbox = .terminated :: mailbox) :
    (handleTerminated true node restartOnTermination { s with mailbox }).Sound node holder := by
  have hread : Sound node holder { s with mailbox, child := false, pendingStop := false } :=
    SingletonCore.Sound.popTerminated h hmailbox
  rw [SingletonNode.handleTerminated]
  split
  · next hpending =>
    have hchild : s.child = false := h.not_both hpending
    have hheld : s.leaseState = .held := by
      by_contra hne
      exact false_ne_true ((h.free hne).2.1.symm.trans hpending)
    have hafter : Sound node holder { s with mailbox, pendingStop := false } := by
      have hcore : core { s with mailbox, pendingStop := false } =
          core { s with mailbox, child := false, pendingStop := false } := by
        simp only [core, hchild]
      rw [Sound, hcore]
      exact hread
    have hanswered := hafter.answerHandOverRequesters
    have hsame : SingletonNode.answerHandOverRequesters { s with mailbox, pendingStop := false } =
        { s with
          mailbox
          pendingStop := false
          handOverRequesters := []
          outbox := s.outbox ++ s.handOverRequesters.map fun peer =>
            (peer, .handOverAcknowledgment) } := by
      rw [SingletonNode.answerHandOverRequesters, if_neg (by rw [hchild]; exact false_ne_true)]
    rw [hsame] at hanswered ⊢
    dsimp only
    split
    · exact Sound.releaseLease (s := { s with
        mailbox
        pendingStop := false
        releaseLeaseWhenChildStops := false
        handOverRequesters := []
        outbox := s.outbox ++ s.handOverRequesters.map fun peer =>
          (peer, .handOverAcknowledgment) }) hanswered hchild rfl hheld _
    · exact hanswered.tell .reconcile
  · next hpending =>
    have hpending' : s.pendingStop = false := eq_false_iff.2 hpending
    have hafter : Sound node holder { s with mailbox, child := false } := by
      have hcore : core { s with mailbox, child := false } =
          core { s with mailbox, child := false, pendingStop := false } := by
        simp only [core, hpending']
      rw [Sound, hcore]
      exact hread
    split
    · exact (Sound.onChildDiedUnexpectedly (s := { s with mailbox }) hafter
        hpending').answerHandOverRequesters
    · next hchild =>
      have hchild' : s.child = false := eq_false_iff.2 hchild
      have hcore : core { s with mailbox } = core { s with mailbox, child := false } := by
        simp only [core, hchild']
      rw [Sound, hcore]
      exact hafter

lemma Sound.onReceive (h : s.Sound node holder) (hthere : s.core.gone = false)
    (hmailbox : s.mailbox = message :: mailbox)
    (hreleases : message = .prompt .reconcile ∨ message = .prompt .acquireRetry →
      s.wantHosted node = true → s.leaseState = .none →
      ∀ awaited, release false awaited ∉ s.calls) :
    (onReceive true node restartOnTermination { s with mailbox } message).Sound node holder := by
  have hpop : message.isResult = false → message ≠ .terminated →
      Sound node holder { s with mailbox } :=
    fun hresult hterminated => SingletonCore.Sound.pop h hmailbox hresult hterminated
  cases message with
  | prompt kind =>
    have hpopped := hpop rfl nofun
    cases kind with
    | reconcile => exact hpopped.handleReconcile hthere (hreleases (.inl rfl))
    | acquireRetry => exact hpopped.handleReconcile hthere (hreleases (.inr rfl))
    | restartChild => exact hpopped.onRestartChild
    | handOverTimeout => exact hpopped.completeHandOver
    | handOverRetry => exact hpopped.onHandOverRetry
  | leaseAcquireResult got => exact h.onLeaseAcquireResult hmailbox
  | handOverRequest peer => exact (hpop rfl nofun).onHandOverRequest peer
  | handOverAcknowledgment peer => exact (hpop rfl nofun).onHandOverAcknowledgment peer
  | terminated => exact h.handleTerminated hmailbox

/-! ### What happens to a node between the turns -/

omit [LinearOrder ι] in
lemma status_of_idle (s : SingletonNode ι) (hidle : s.idle = true) :
    s.status = .running ∨ s.status = .suspended := by
  rw [idle, and_eq_true, or_eq_true, beq_iff_eq, beq_iff_eq] at hidle
  exact hidle.1

section

variable (h : s.Sound node holder)
include h

lemma Sound.enqueue (hresult : message.isResult = false)
    (hterminated : message ≠ .terminated) : (s.enqueue message).Sound node holder := by
  rw [SingletonNode.enqueue]
  split
  · exact h
  · exact SingletonCore.Sound.tell h hresult hterminated

lemma Sound.receive (hreleases : ∀ kind mailbox, s.mailbox = .prompt kind :: mailbox →
      s.status = .running ∧ s.awaiting.isNone = true →
      kind = .reconcile ∨ kind = .acquireRetry → s.wantHosted node = true →
      s.leaseState = .none → ∀ awaited, release false awaited ∉ s.calls) :
    (receive true node restartOnTermination s).Sound node holder := by
  rw [SingletonNode.receive]
  split
  · exact h
  · next message mailbox hmailbox =>
    split
    · next hidle =>
      have hthere : s.core.gone = false := by
        rw [core, hidle.1]
        rfl
      refine h.onReceive hthere hmailbox fun hkind => ?_
      rcases hkind with rfl | rfl
      · exact hreleases _ mailbox hmailbox hidle (.inl rfl)
      · exact hreleases _ mailbox hmailbox hidle (.inr rfl)
    · exact h

lemma Sound.instanceTerminated : s.instanceTerminated.Sound node holder := by
  rw [SingletonNode.instanceTerminated]
  split
  · next hlive =>
    have hheld : s.leaseState = .held := by
      by_contra hne
      exact Bool.false_ne_true ((h.free hne).2.2.symm.trans hlive)
    have hstatus : s.status ≠ .stopped := by
      intro hstopped
      have hnone : s.leaseState = .none := h.gone (by
        rw [core, hstopped]
        rfl)
      rw [hheld] at hnone
      cases hnone
    obtain ⟨htold, hresults⟩ := h.answers_of_ne (by
      change s.leaseState ≠ .acquiring
      rw [hheld]
      nofun)
    obtain ⟨hunread, hone⟩ := h.known hheld
    have hsame : false.toNat + (s.mailbox ++ [SingletonInbox.terminated]).count SingletonInbox.terminated =
        s.core.unread := by
      change _ = s.instanceLive.toNat + s.mailbox.count SingletonInbox.terminated
      rw [hlive, List.count_append, List.count_singleton_self, Nat.add_comm (Bool.toNat true)]
      exact Nat.zero_add _
    rw [SingletonNode.enqueue, if_neg hstatus]
    refine ⟨fun hne => absurd hheld hne, h.held, fun _ => ⟨hsame.trans hunread, ?_⟩,
      h.unreleased, ?_, h.granted, fun hgot => ?_, ?_, h.gone⟩
    · exact Nat.le_trans (Nat.le_of_eq hsame) hone
    · change s.calls.countP _ + (s.mailbox ++ [SingletonInbox.terminated]).countP _ = _
      rw [List.countP_append]
      exact h.answers
    · rcases List.mem_append.1 hgot with hgot | hgot
      · exact h.got hgot
      · cases List.mem_singleton.1 hgot
    · refine List.pairwise_append.2 ⟨h.order, List.pairwise_singleton _ _,
        fun a ha _ _ hresult => ?_⟩
      rw [hresults a ha] at hresult
      cases hresult
  · exact h

lemma Sound.restart
    (hquiet : s.idle = true → s.instanceLive = false ∧ s.leaseState ≠ .acquiring) :
    s.restart.Sound node holder := by
  rw [SingletonNode.restart]
  split
  · next hidle =>
    obtain ⟨hlive, hne⟩ := hquiet hidle
    obtain ⟨htold, hresults⟩ := h.answers_of_ne hne
    by_cases hheld : s.leaseState = .held
    · have hcore : core { s.postStop with status := .recreating } =
          ⟨.none, false, false, false, s.mailbox, s.calls ++ [.release false true], true⟩ := by
        simp [core, SingletonNode.postStop, SingletonNode.answerHandOverRequesters,
          SingletonNode.releaseLease, hheld, hlive]
      rw [Sound, hcore]
      exact h.without (fun call hcall => ⟨true, mem_singleton.1 hcall⟩) htold hresults true
    · have hnone : s.leaseState = .none := by
        cases hstate : s.leaseState with
        | none => rfl
        | acquiring => exact absurd hstate hne
        | held => exact absurd hstate hheld
      have hcore : core { s.postStop with status := .recreating } =
          ⟨.none, false, false, false, s.mailbox, s.calls ++ [], true⟩ := by
        simp [core, SingletonNode.postStop, SingletonNode.answerHandOverRequesters,
          SingletonNode.releaseLease, hnone, hlive]
      rw [Sound, hcore]
      exact h.without (forall_mem_nil _) htold hresults true
  · exact h

lemma Sound.preStart (hlive : s.instanceLive = false)
    (hgone : s.core.gone = true) : s.preStart.Sound node holder := by
  have hnone : s.leaseState = .none := h.gone hgone
  obtain ⟨htold, hresults⟩ := h.answers_of_ne (by
    change s.leaseState ≠ .acquiring
    rw [hnone]
    nofun)
  have hmailbox : ∀ message ∈ s.mailbox ++ [.prompt .reconcile], message.isResult = false := by
    intro message hmem
    rcases mem_append.1 hmem with hmem | hmem
    · exact hresults message hmem
    · rw [mem_singleton.1 hmem]
      rfl
  have hcore : s.preStart.core = ⟨.none, false, false, false, s.mailbox ++ [.prompt .reconcile],
      s.calls ++ [], false⟩ := by
    rw [SingletonNode.preStart, core, hlive, append_nil]
    rfl
  rw [Sound, hcore]
  exact h.without (forall_mem_nil _) htold hmailbox false

lemma Sound.recreated : s.recreated.Sound node holder := by
  rw [SingletonNode.recreated]
  split
  · next hready =>
    refine h.preStart hready.2.2 ?_
    rw [core, hready.1]
    rfl
  · exact h

lemma Sound.start : s.start.Sound node holder := by
  rw [SingletonNode.start]
  split
  · next hready =>
    have hgone : s.core.gone = true := by
      rw [core, hready.1]
      rfl
    refine h.preStart (h.free ?_).2.2 hgone
    rw [h.gone hgone]
    nofun
  · exact h

lemma Sound.stop : s.stop.Sound node holder := by
  rw [SingletonNode.stop]
  split
  · next hidle =>
    have hcore : core { s with status := .terminating } = s.core := by
      rw [core, core]
      rcases s.status_of_idle hidle with hstatus | hstatus
      · rw [hstatus]
        rfl
      · rw [hstatus]
        rfl
    rw [Sound, hcore]
    exact h
  · exact h

lemma Sound.stopped : s.stopped.Sound node holder := by
  rw [SingletonNode.stopped]
  split
  · refine ⟨fun _ => ⟨rfl, rfl, rfl⟩, nofun, nofun, fun hne => absurd rfl hne, ?_,
      fun hgranted => ?_, nofun, .nil, fun _ => rfl⟩
    · have hnone : (s.postStop.calls.map untold).countP isTold = 0 := by
        refine countP_eq_zero.2 fun call hcall => ?_
        obtain ⟨call, -, rfl⟩ := mem_map.1 hcall
        cases call <;> exact false_ne_true
      exact hnone
    · obtain ⟨call, -, heq⟩ := mem_map.1 hgranted
      cases call <;> cases heq
  · exact h

end

/-! ### The calls to the lease -/

lemma countP_set_of_eq {a b : α} (hi : l[i]? = some a) (hp : p b = p a) :
    (l.set i b).countP p = l.countP p := by
  induction l generalizing i with
  | nil => rfl
  | cons x l ih =>
    cases i with
    | zero =>
      obtain rfl : x = a := some.inj hi
      rw [set_cons_zero, countP_cons, countP_cons, hp]
    | succ i => rw [set_cons_succ, countP_cons, countP_cons, ih hi]

lemma countP_eraseIdx_add {a : α} (hi : l[i]? = some a) :
    (l.eraseIdx i).countP p + (if p a then 1 else 0) = l.countP p := by
  obtain ⟨hlt, rfl⟩ := List.getElem?_eq_some_iff.1 hi
  rw [← List.Perm.countP_eq p (List.getElem_cons_eraseIdx_perm hlt), List.countP_cons]

section

variable (h : s.Sound node holder)
include h

lemma Sound.setCall {call call' : LeaseCall} (hcall : s.calls[i]? = some call)
    (htold : call'.isTold = call.isTold) (hunreleased : ∀ awaited, call' ≠ .release false awaited)
    (hgranted : call' = .acquire (some true) true → holder = some node) :
    Sound node holder { s with calls := s.calls.set i call' } where
  free := h.free
  held := h.held
  known := h.known
  unreleased hne awaited hmem := by
    rcases mem_or_eq_of_mem_set hmem with hmem | heq
    · exact h.unreleased hne awaited hmem
    · exact hunreleased awaited heq.symm
  answers := by
    change (s.calls.set i call').countP _ + s.mailbox.countP _ = _
    rw [countP_set_of_eq hcall htold]
    exact h.answers
  granted hmem := by
    rcases mem_or_eq_of_mem_set hmem with hmem | heq
    · exact h.granted hmem
    · exact hgranted heq.symm
  got := h.got
  order := h.order
  gone := h.gone

lemma Sound.refuse (i : ℕ) : (s.refuse i).Sound node holder := by
  rw [SingletonNode.refuse]
  split
  · next told hcall => exact h.setCall hcall rfl nofun nofun
  · next awaited hcall => exact h.setCall hcall rfl nofun nofun
  · exact h

lemma Sound.eraseCall {call : LeaseCall} (hcall : s.calls[i]? = some call)
    (htold : call.isTold = false) : Sound node holder { s with calls := s.calls.eraseIdx i } where
  free := h.free
  held := h.held
  known := h.known
  unreleased hne awaited hmem := h.unreleased hne awaited (mem_of_mem_eraseIdx hmem)
  answers := by
    have hcount := countP_eraseIdx_add (p := isTold) hcall
    rw [htold] at hcount
    change (s.calls.eraseIdx i).countP _ + s.mailbox.countP _ = _
    rw [show (s.calls.eraseIdx i).countP isTold = s.calls.countP isTold from
      hcount]
    exact h.answers
  granted hmem := h.granted (mem_of_mem_eraseIdx hmem)
  got := h.got
  order := h.order
  gone := h.gone

lemma Sound.toldOf (hcall : s.calls[i]? = some (.acquire (some got) true)) :
    Sound node holder
      { s with
        calls := s.calls.eraseIdx i
        mailbox := s.mailbox ++ [.leaseAcquireResult got] } where
  free := h.free
  held := h.held
  known hheld := by
    have hsame : (s.mailbox ++ [SingletonInbox.leaseAcquireResult got]).count
        SingletonInbox.terminated = s.mailbox.count .terminated := by
      rw [List.count_append, List.count_cons_of_ne (by nofun)]
      rfl
    have hknown := h.known hheld
    change s.instanceLive.toNat + (s.mailbox ++ [SingletonInbox.leaseAcquireResult got]).count
      SingletonInbox.terminated = _ ∧ s.instanceLive.toNat + (s.mailbox ++
      [SingletonInbox.leaseAcquireResult got]).count SingletonInbox.terminated ≤ 1
    rw [hsame]
    exact hknown
  unreleased hne awaited hmem := h.unreleased hne awaited (List.mem_of_mem_eraseIdx hmem)
  answers := by
    have hcount := countP_eraseIdx_add (p := isTold) hcall
    change (s.calls.eraseIdx i).countP isTold +
      (s.mailbox ++ [SingletonInbox.leaseAcquireResult got]).countP SingletonInbox.isResult = _
    rw [List.countP_append, Nat.add_comm (s.mailbox.countP _), ← Nat.add_assoc]
    exact (congrArg (· + _) hcount).trans h.answers
  granted hmem := h.granted (List.mem_of_mem_eraseIdx hmem)
  got hmem := by
    rcases List.mem_append.1 hmem with hmem | hmem
    · exact h.got hmem
    · cases List.mem_singleton.1 hmem
      exact h.granted (List.mem_of_getElem? hcall)
  order := List.pairwise_append.2 ⟨h.order, List.pairwise_singleton _ _, fun _ _ b hb _ => by
      rw [List.mem_singleton.1 hb]
      nofun⟩
  gone := h.gone

lemma Sound.ofNone (hnone : s.leaseState = .none)
    (holder' : Option ι) : s.Sound node holder' := by
  obtain ⟨htold, hresults⟩ := h.answers_of_ne (by
    change s.leaseState ≠ .acquiring
    rw [hnone]
    nofun)
  refine ⟨h.free, fun hheld => absurd hheld ?_, h.known, h.unreleased, h.answers,
    fun hgranted => ?_, fun hgot => (nomatch hresults _ hgot), h.order, h.gone⟩
  · change s.leaseState ≠ .held
    rw [hnone]
    nofun
  · exact absurd rfl (countP_eq_zero.1 htold _ hgranted)

lemma Sound.tellAll (kinds : List SingletonPrompt) :
    Sound node holder { s with mailbox := s.mailbox ++ kinds.map .prompt } := by
  induction kinds generalizing s with
  | nil =>
    rw [map_nil, append_nil]
    exact h
  | cons kind kinds ih =>
    rw [map_cons, append_cons]
    exact ih (h.tell kind)

lemma Sound.answer (i : ℕ) : (s.answer i).Sound node holder := by
  rw [SingletonNode.answer]
  split
  · next got told hcall =>
    cases told with
    | true => exact h.toldOf hcall
    | false => exact h.eraseCall hcall rfl
  · next awaited hcall =>
    have herased := h.eraseCall hcall rfl
    split
    · exact herased.tellAll _
    · exact herased
  · exact h

end

end SingletonNode

/-! ## Every run -/

namespace SingletonWorld

variable [LinearOrder ι] {restartOnTermination : Bool} {w : SingletonWorld ι}

def Sound (w : SingletonWorld ι) : Prop := ∀ node, (w.nodes node).Sound node w.holder

lemma Sound.update (h : w.Sound) {node : ι} {f : SingletonNode ι → SingletonNode ι}
    (hf : (f (w.nodes node)).Sound node w.holder) : (w.update node f).Sound := by
  intro other
  change (Function.update w.nodes node (f (w.nodes node)) other).Sound other w.holder
  by_cases heq : other = node
  · subst heq
    rw [Function.update_self]
    exact hf
  · rw [Function.update_of_ne heq]
    exact h other

lemma Sound.land (h : w.Sound) (node : ι) (i : ℕ) (heard : Bool) :
    (w.land node i heard).Sound := by
  rw [SingletonWorld.land]
  split
  · next told hcall =>
    have hgot : ∀ other, w.holder = some other →
        (if decide (w.holder = none ∨ w.holder = some node) = true then some node
          else w.holder) = some other := by
      intro other hother
      split
      · next hfree =>
        rcases of_decide_eq_true hfree with hnone | hnode
        · cases hnone.symm.trans hother
        · exact hnode.symm.trans hother
      · exact hother
    have hafter : Sound { w with holder := if decide (w.holder = none ∨
        w.holder = some node) = true then some node else w.holder } :=
      fun other => (h other).mono (hgot other)
    refine hafter.update ((hafter node).setCall hcall rfl nofun fun heq => ?_)
    have htrue : decide (w.holder = none ∨ w.holder = some node) = true := by
      injection heq with hanswer
      exact (and_eq_true_iff.1 (some.inj hanswer)).1
    rw [if_pos htrue]
  · next awaited hcall =>
    have hnone : (w.nodes node).leaseState = .none := by
      by_contra hne
      exact (h node).unreleased hne awaited (mem_of_getElem? hcall)
    have hafter : Sound { w with holder := if w.holder = some node then none
        else w.holder } := by
      intro other
      by_cases heq : other = node
      · subst heq
        exact (h other).ofNone hnone _
      · refine (h other).mono fun hother => ?_
        have hne : w.holder ≠ some node := fun hnode =>
          heq (some.inj (hother.symm.trans hnode))
        rw [if_neg hne]
        exact hother
    exact hafter.update ((hafter node).setCall hcall rfl nofun nofun)
  · exact h

lemma Sound.deliver (h : w.Sound) (node : ι) (i : ℕ) : (w.deliver node i).Sound := by
  rw [SingletonWorld.deliver]
  split
  · exact h
  · next peer message _ =>
    have hlost : (w.lose node i).Sound := h.update (h node)
    refine hlost.update ((hlost peer).enqueue ?_ ?_)
    · cases message <;> rfl
    · cases message <;> nofun

lemma Sound.step (h : w.Sound) {move : SingletonMove ι} (hmove : w.Orderly move) :
    (step restartOnTermination w move).Sound := by
  cases move with
  | changeView node view => exact h.update (h node)
  | prompt node kind => exact h.update ((h node).enqueue rfl nofun)
  | deliver node i => exact h.deliver node i
  | lose node i => exact h.update (h node)
  | receive node => exact h.update ((h node).receive hmove)
  | land node i heard => exact h.land node i heard
  | refuse node i => exact h.update ((h node).refuse i)
  | answer node i => exact h.update ((h node).answer i)
  | instanceTerminated node => exact h.update (h node).instanceTerminated
  | restart node => exact h.update ((h node).restart hmove)
  | recreated node => exact h.update (h node).recreated
  | stop node => exact h.update (h node).stop
  | stopped node => exact h.update (h node).stopped
  | start node => exact h.update (h node).start

lemma Sound.unique (h : w.Sound) : w.Unique := by
  intro n m hn hm
  have hholds : ∀ node, (w.nodes node).instanceLive = true → w.holder = some node := by
    intro node hlive
    refine (h node).held ?_
    by_contra hne
    exact false_ne_true (((h node).free hne).2.2.symm.trans hlive)
  exact some.inj ((hholds n hn).symm.trans (hholds m hm))

/-- Along a run in which no manager is restarted over an instance or an acquire, and none asks
for the lease while a release of its own may still take effect, two nodes never have a live
instance. -/
theorem singleton_unique (restartOnTermination : Bool) (moves : List (SingletonMove ι))
    (hmoves : Machine.Along (step restartOnTermination) Orderly initial moves) :
    (run (step restartOnTermination) initial moves).Unique := by
  have hsound : Sound (run (step restartOnTermination) initial moves) :=
    invariant (fun _ _ hmove h => h.step hmove) hmoves fun _ => SingletonCore.Sound.initial
  exact hsound.unique

/-- One of two nodes, as both of them see it. -/
def hostedBy (host : Bool) : SingletonView Bool := ⟨[false, true], [host]⟩

/-- The first node acquires the lease and spawns the instance. -/
def firstHosts : List (SingletonMove Bool) :=
  [.changeView false (hostedBy false), .changeView true (hostedBy false), .start false,
    .start true, .receive false, .land false 0 true, .answer false 0, .receive false]

/-- The host moves: the second node acquires the lease once the instance of the first one has
terminated and the lease is released. -/
theorem singleton_unique_handedOver :
    (run (step true) initial
      (firstHosts ++ [.changeView false (hostedBy true), .changeView true (hostedBy true),
        .prompt false .reconcile, .receive false, .instanceTerminated false, .receive false,
        .land false 0 true, .answer false 0, .receive true, .land true 0 true, .answer true 0,
        .receive true])).Unique := by
  refine singleton_unique true _ ⟨trivial, trivial, trivial, trivial, ?_, trivial, trivial, ?_,
    trivial, trivial, trivial, ?_, trivial, ?_, trivial, trivial, ?_, trivial, trivial, ?_,
    trivial⟩ <;> exact fun _ _ _ _ _ _ _ _ => not_mem_nil

/-- The manager of the first node is restarted while it has its instance. -/
theorem not_singleton_unique_restarted :
    ¬ (run (step true) initial
      (firstHosts ++ [.restart false, .land false 0 true, .changeView true (hostedBy true),
        .prompt true .reconcile, .receive true, .land true 0 true, .answer true 0,
        .receive true, .receive true])).Unique := by
  intro h
  have hlive := h false true
  exact false_ne_true (hlive (by decide) (by decide))

end SingletonWorld

end ActorTs.Cluster
