import ActorTs.Cluster.Downing.LeaseMajorityRuns
import ActorTs.Cluster.Downing.SplitBrain

/-!
# The nodes of an even split and their lease

Every node of a split runs a strategy of its own, and all of them ask for one record that
has one owner at a time. The record answers an acquire at once and the answer arrives
later, or not at all; a release that gives an abandoned win back frees the record.

The record is granted to one node of a side, and refused to the next, which takes that for the loss
of its side. So a side that wins survives as a whole where the record gives the nodes of a side one
answer.
-/

open List Option Function

namespace ActorTs.Cluster.Downing

open LeaseMajority System

/-- An even split as its nodes see it: who is on which side, and the views, in which the
own side is in reach, the other one is not, and the two count the same. -/
structure EvenSplit (ι : Type) where
  side : JsString → Bool
  home : ι → Bool
  options : ι → LeaseMajorityOptions
  view : ι → ClusterPartitionView
  unreachable_iff : ∀ i, ∀ m ∈ (view i).allMembers,
    addrKey m ∈ (view i).unreachable ↔ side (addrKey m) ≠ home i
  even : ∀ i, ((view i).reachable (options i).role).length =
    ((view i).unreachableCandidates (options i).role).length

/-- The strategies and the record. `reply` is what the record answered an acquire whose
result has not arrived. The last three are not in the code: all that the record answered,
the nodes whose acquire was won and taken for a decision, and what `decide` returned. -/
structure Arbitration (ι : Type) where
  nodes : ι → System := fun _ => {}
  holder : Option ι := none
  reply : ι → Option Bool := fun _ => none
  answered : List (ι × Bool) := []
  winners : List ι := []
  returned : List (ι × DowningDecision) := []

inductive Turn (ι : Type) where
  | decide (i : ι) (now : ℚ)
  /-- The acquire of the node reaches the record. -/
  | answer (i : ι)
  | report (i : ι)
  | reject (i : ι)
  | released (i : ι) (failed : Bool)

namespace Arbitration

variable {ι : Type} [DecidableEq ι] (split : EvenSplit ι)

/-- The record is free or the node's own. -/
def grants (w : Arbitration ι) (i : ι) : Bool := decide (w.holder = none ∨ w.holder = some i)

/-- The node has an acquire under way that did not reach the record yet. -/
def Asks (w : Arbitration ι) (i : ι) : Prop := (w.nodes i).pending ≠ [] ∧ w.reply i = none

instance (w : Arbitration ι) (i : ι) : Decidable (w.Asks i) := inferInstanceAs (Decidable (_ ∧ _))

/-- `checkAlive` of the node is asked only where it has won, and says that the record is
its own. -/
def onDecide (w : Arbitration ι) (i : ι) (now : ℚ) : Arbitration ι :=
  let alive := decide (w.holder = some i)
  let answer := ((w.nodes i).strategy.decide (split.options i) alive now (split.view i)).2.1
  { w with
    nodes := Function.update w.nodes i
      ((w.nodes i).onDecide (split.options i) alive now (split.view i))
    returned := (i, answer.decision) :: w.returned }

def onAnswer (w : Arbitration ι) (i : ι) : Arbitration ι :=
  if w.Asks i then
    { w with
      holder := if w.grants i then some i else w.holder
      reply := Function.update w.reply i (some (w.grants i))
      answered := (i, w.grants i) :: w.answered }
  else w

def onReport (w : Arbitration ι) (i : ι) : Arbitration ι :=
  match w.reply i with
  | none => w
  | some won =>
    let sys := (w.nodes i).onAcquired 0 (.reported won)
    { w with
      nodes := Function.update w.nodes i sys
      reply := Function.update w.reply i none
      winners := if sys.strategy.decisionRestsOnLease then i :: w.winners else w.winners }

def onReject (w : Arbitration ι) (i : ι) : Arbitration ι :=
  { w with
    nodes := Function.update w.nodes i ((w.nodes i).onAcquired 0 .rejected)
    reply := Function.update w.reply i none }

def onReleased (w : Arbitration ι) (i : ι) (failed : Bool) : Arbitration ι :=
  if (w.nodes i).undoing = [] then w
  else
    { w with
      nodes := Function.update w.nodes i ((w.nodes i).onReleased 0 failed)
      holder := if !failed && w.holder = some i then none else w.holder }

def step (w : Arbitration ι) : Turn ι → Arbitration ι
  | .decide i now => w.onDecide split i now
  | .answer i => w.onAnswer i
  | .report i => w.onReport i
  | .reject i => w.onReject i
  | .released i failed => w.onReleased i failed

/-- The record gives a node the answer it gave the other nodes of its side. -/
def OneAnswer (w : Arbitration ι) : Turn ι → Prop
  | .answer i => w.Asks i → ∀ j won, (j, won) ∈ w.answered → j ≠ i →
      split.home j = split.home i → won = w.grants i
  | _ => True

/-- The runs in which every side is given one answer. -/
inductive Reaches : Arbitration ι → Prop
  | initial : Reaches {}
  | step {w : Arbitration ι} (hw : Reaches w) (turn : Turn ι) (h : w.OneAnswer split turn) :
      Reaches (w.step split turn)

/-- Where a node won, no node of its side ever returned a member of that side. -/
def WinnersSurvive (w : Arbitration ι) : Prop :=
  ∀ i ∈ w.winners, ∀ p ∈ w.returned, split.home p.1 = split.home i →
    ∀ key ∈ p.2, split.side key ≠ split.home i

end Arbitration

/-! ### One node of an even split -/

/-- The attempt is for the split that the view shows. -/
structure Attempt.IsFor (a : Attempt) (options : LeaseMajorityOptions)
    (view : ClusterPartitionView) : Prop where
  fingerprint : a.fingerprint = view.fingerprint options.role
  surviveSet : a.surviveSet = keysOf (view.unreachableCandidates options.role)
  downSelfSet : a.downSelfSet = keysOf (view.reachable options.role)

namespace LeaseMajority

variable {options : LeaseMajorityOptions} {s : LeaseMajority} {alive : Bool} {now : ℚ}
  {view : ClusterPartitionView}

lemma decide_of_even (s : LeaseMajority) (alive : Bool) (now : ℚ)
    (heven : (view.reachable options.role).length =
    (view.unreachableCandidates options.role).length) :
    s.decide options alive now view = (s, .nothing, none) ∨
      s.decide options alive now view =
        (s.observe (view.fingerprint options.role)).arbitrate options alive now view := by
  have hsum := length_reachable_add view options.role
  unfold decide
  split
  · exact .inl rfl
  split
  · exact .inl rfl
  · next hcount =>
    right
    rw [if_neg (by omega)]
    rw [if_neg (by omega), if_neg (by omega)]

lemma await_call {a : Attempt} (h : (s.await options now view).2.2 = some a) :
    a.IsFor options view := by
  unfold await at h
  split_ifs at h
  cases h
  exact ⟨rfl, rfl, rfl⟩

lemma decide_call {a : Attempt} (h : (s.decide options alive now view).2.2 = some a) :
    a.IsFor options view := by
  obtain hsame | hreset | ⟨_, hcounted⟩ | ⟨-, harbitrate⟩ := decide_cases s options alive now view
  · rw [hsame] at h
    cases h
  · rw [hreset] at h
    cases h
  · rw [hcounted] at h
    cases h
  rw [harbitrate] at h
  obtain hsame | ⟨_, -, -, hcached⟩ | hdropped | ⟨-, hawait⟩ :=
    arbitrate_cases (s.observe (view.fingerprint options.role)) options alive now view
  · rw [hsame] at h
    cases h
  · rw [hcached] at h
    cases h
  · rw [hdropped] at h
    exact await_call h
  · rw [hawait] at h
    exact await_call h

lemma decide_undecided (alive : Bool) (now : ℚ) (heven : (view.reachable options.role).length =
    (view.unreachableCandidates options.role).length) (hdecision : s.decision = none) :
    (s.decide options alive now view).2.1 = .nothing ∧
      (s.decide options alive now view).1.decision = none := by
  obtain hsame | harbitrate := decide_of_even s alive now heven
  · rw [hsame]
    exact ⟨rfl, hdecision⟩
  have hobserved : (s.observe (view.fingerprint options.role)).decision = none := by
    unfold observe
    split_ifs
    · rfl
    · exact hdecision
  rw [harbitrate]
  refine ⟨?_, arbitrate_decision_none hobserved⟩
  obtain hsame | ⟨_, hsome, -⟩ | hdropped | ⟨-, hawait⟩ :=
    arbitrate_cases (s.observe (view.fingerprint options.role)) options alive now view
  · rw [hsame]
  · rw [hobserved] at hsome
    cases hsome
  · rw [hdropped, await_answer]
  · rw [hawait, await_answer]

lemma decide_decided (now : ℚ) (heven : (view.reachable options.role).length =
    (view.unreachableCandidates options.role).length) {d : DowningDecision}
    (hdecision : s.decision = some d)
    (hfingerprint : s.lastFingerprint = some (view.fingerprint options.role))
    (halive : s.decisionRestsOnLease = true → alive = true) :
    s.decide options alive now view = (s, .nothing, none) ∨
      s.decide options alive now view = (s, .cached d, none) := by
  obtain hsame | harbitrate := decide_of_even s alive now heven
  · exact .inl hsame
  have hobserved : s.observe (view.fingerprint options.role) = s := by
    rw [observe, if_neg (not_not.2 hfingerprint.symm)]
  have hheld : (!s.decisionRestsOnLease || alive) = true := by
    cases hrests : s.decisionRestsOnLease with
    | false => rfl
    | true => simpa using halive hrests
  rw [harbitrate, hobserved, arbitrate]
  simp only [hdecision, if_pos hheld]
  split
  · exact .inl rfl
  · exact .inr rfl

end LeaseMajority

namespace System

variable {sys : System}

lemma Sound.of_undoing (h : Sound sys) (hundoing : sys.undoing ≠ []) :
    sys.pending = [] ∧ sys.writer = none := by
  have hphase := h.phase
  generalize sys.pending = pending at hphase ⊢
  generalize sys.undoing = undoing at hphase hundoing
  generalize sys.writer = writer at hphase ⊢
  cases hphase with
  | idle | watching | forsaken => exact absurd rfl hundoing
  | undoing => exact ⟨rfl, rfl⟩

lemma Sound.of_writer (h : Sound sys) {a : Attempt} {won : Bool}
    (hwriter : sys.writer = some (a, won)) : sys.pending = [] ∧ sys.undoing = [] := by
  have hphase := h.phase
  generalize sys.pending = pending at hphase ⊢
  generalize sys.undoing = undoing at hphase ⊢
  rw [hwriter] at hphase
  cases hphase with
  | idle => exact ⟨rfl, rfl⟩

lemma onDecide_writer {options : LeaseMajorityOptions} {alive : Bool} {now : ℚ}
    {view : ClusterPartitionView} : (sys.onDecide options alive now view).writer =
      writerAfter sys.writer (sys.strategy.decide options alive now view).1
        (sys.strategy.decide options alive now view).2.1 := rfl

lemma Sound.onAcquired_cases (h : Sound sys) (hpending : sys.pending ≠ [])
    (result : AcquireResult) :
    sys.writer = none ∧ sys.undoing = [] ∧ (sys.onAcquired 0 result).pending = [] ∧
      ((∃ a won, sys.pending = [a] ∧ result = .reported won ∧
          (sys.onAcquired 0 result).writer = some (a, won) ∧
          (sys.onAcquired 0 result).strategy.decisionRestsOnLease = won) ∨
        (sys.onAcquired 0 result).writer = none ∧
          (sys.onAcquired 0 result).strategy.decision = sys.strategy.decision) := by
  obtain ⟨a, ha⟩ : ∃ a, sys.pending[0]? = some a :=
    ⟨_, getElem?_eq_getElem (length_pos_of_ne_nil hpending)⟩
  obtain ⟨-, hsingle, hundoing, hwriter, ⟨-, habandoned, hepoch, -⟩ | ⟨-, habandoned, hepoch⟩⟩ :=
    h.pending_cases ha
  · obtain ⟨hreported, hrejected⟩ := onAcquired_watched hsingle habandoned hepoch
    cases result with
    | reported won =>
      rw [hreported won]
      exact ⟨hwriter, hundoing, rfl, .inl ⟨a, won, hsingle, rfl, rfl, rfl⟩⟩
    | rejected =>
      rw [hrejected]
      exact ⟨hwriter, hundoing, rfl, .inr ⟨hwriter, rfl⟩⟩
  · obtain ⟨hwon, hlost⟩ := onAcquired_forsaken hsingle hundoing habandoned hepoch
    by_cases hresult : result = .reported true
    · rw [hresult, hwon]
      exact ⟨hwriter, hundoing, rfl, .inr ⟨hwriter, rfl⟩⟩
    · rw [hlost result fun won hreported => by cases won <;> simp_all]
      exact ⟨hwriter, hundoing, rfl, .inr ⟨hwriter, rfl⟩⟩

end System

/-! ### All nodes together -/

namespace Arbitration

variable {ι : Type} [DecidableEq ι] {split : EvenSplit ι} {w w' : Arbitration ι} {i k : ι}

/-- How the fields of a node go with the record and with what it returned so far. -/
structure NodeInv (split : EvenSplit ι) (w : Arbitration ι) (i : ι) : Prop where
  sound : System.Sound (w.nodes i)
  calls : ∀ a ∈ (w.nodes i).pending, a.IsFor (split.options i) (split.view i)
  replied : ∀ won, w.reply i = some won →
    (w.nodes i).pending ≠ [] ∧ (i, won) ∈ w.answered ∧ (won = true → w.holder = some i)
  undecided : (w.nodes i).writer = none → (w.nodes i).strategy.decision = none ∧
    i ∉ w.winners ∧ ∀ p ∈ w.returned, p.1 = i → p.2 = ∅
  decided : ∀ a won, (w.nodes i).writer = some (a, won) →
    a.IsFor (split.options i) (split.view i) ∧ (i, won) ∈ w.answered ∧
      (won = true → w.holder = some i) ∧ (won = false → i ∉ w.winners) ∧
      ∀ p ∈ w.returned, p.1 = i → p.2 = ∅ ∨ p.2 = a.outcome won

omit [DecidableEq ι] in
lemma NodeInv.frame (h : NodeInv split w k) (hnodes : w'.nodes k = w.nodes k)
    (hreply : w'.reply k = w.reply k) (hanswered : ∀ p ∈ w.answered, p ∈ w'.answered)
    (hwinners : k ∈ w'.winners → k ∈ w.winners)
    (hreturned : ∀ p ∈ w'.returned, p.1 = k → p ∈ w.returned)
    (hholder : w.holder = some k → w'.holder = some k) : NodeInv split w' k := by
  refine ⟨hnodes ▸ h.sound, hnodes ▸ h.calls, fun won hwon => ?_, fun hwriter => ?_,
    fun a won hwriter => ?_⟩
  · obtain ⟨hpending, hmem, hheld⟩ := h.replied won (hreply ▸ hwon)
    exact ⟨hnodes ▸ hpending, hanswered _ hmem, fun heq => hholder (hheld heq)⟩
  · obtain ⟨hdecision, hlost, hempty⟩ := h.undecided (hnodes ▸ hwriter)
    exact ⟨hnodes ▸ hdecision, fun hmem => hlost (hwinners hmem),
      fun p hp hk => hempty p (hreturned p hp hk) hk⟩
  · obtain ⟨hfor, hmem, hheld, hlost, hanswers⟩ := h.decided a won (hnodes ▸ hwriter)
    exact ⟨hfor, hanswered _ hmem, fun heq => hholder (hheld heq),
      fun heq hmem' => hlost heq (hwinners hmem'),
      fun p hp hk => hanswers p (hreturned p hp hk) hk⟩

lemma NodeInv.decide_decided (h : NodeInv split w i) {a : Attempt} {won : Bool}
    (hwriter : (w.nodes i).writer = some (a, won)) (now : ℚ) :
    ((w.nodes i).onDecide (split.options i) (decide (w.holder = some i)) now
        (split.view i)).writer = some (a, won) ∧
      (((w.nodes i).strategy.decide (split.options i) (decide (w.holder = some i)) now
        (split.view i)).2.1.decision = ∅ ∨
      ((w.nodes i).strategy.decide (split.options i) (decide (w.holder = some i)) now
        (split.view i)).2.1.decision = a.outcome won) := by
  obtain ⟨hdecision, hrests, hfound⟩ := h.sound.phase.writer_some hwriter
  obtain ⟨hfor, -, hheld, -, -⟩ := h.decided a won hwriter
  have hkept : ∀ answer : Answer, (∀ d, answer ≠ .counted d) →
      System.writerAfter (w.nodes i).writer (w.nodes i).strategy answer = some (a, won) := by
    intro answer hcounted
    rw [System.writerAfter_of_decision hcounted, hwriter]
    rw [hdecision]
    exact some_ne_none _
  have halive : (w.nodes i).strategy.decisionRestsOnLease = true →
      decide (w.holder = some i) = true := fun hwon => decide_eq_true (hheld (hrests ▸ hwon))
  have hfingerprint := hfor.fingerprint ▸ hfound
  obtain hnothing | hcached :=
    LeaseMajority.decide_decided now (split.even i) hdecision hfingerprint halive
  · rw [System.onDecide, hnothing]
    exact ⟨hkept .nothing fun _ => nofun, .inl rfl⟩
  · rw [System.onDecide, hcached]
    exact ⟨hkept (.cached (a.outcome won)) fun _ => nofun, .inr rfl⟩

lemma NodeInv.decide_undecided (h : NodeInv split w i) (hwriter : (w.nodes i).writer = none)
    (now : ℚ) :
    ((w.nodes i).onDecide (split.options i) (decide (w.holder = some i)) now
        (split.view i)).writer = none ∧
      ((w.nodes i).onDecide (split.options i) (decide (w.holder = some i)) now
        (split.view i)).strategy.decision = none ∧
      ((w.nodes i).strategy.decide (split.options i) (decide (w.holder = some i)) now
        (split.view i)).2.1.decision = ∅ := by
  obtain ⟨hanswer, hstill⟩ := LeaseMajority.decide_undecided (decide (w.holder = some i)) now
    (split.even i) (h.undecided hwriter).1
  refine ⟨?_, hstill, ?_⟩
  · rw [System.onDecide_writer, hanswer]
    exact if_pos hstill
  · rw [hanswer]
    rfl

lemma NodeInv.onDecide (h : NodeInv split w i) (now : ℚ) :
    NodeInv split (w.onDecide split i now) i := by
  have hnode : (w.onDecide split i now).nodes i = (w.nodes i).onDecide (split.options i)
      (decide (w.holder = some i)) now (split.view i) := update_self _ _ _
  have hreturned : ∀ p ∈ (w.onDecide split i now).returned, p ∈ w.returned ∨
      p = (i, ((w.nodes i).strategy.decide (split.options i) (decide (w.holder = some i)) now
        (split.view i)).2.1.decision) := fun p hp => (mem_cons.1 hp).symm
  refine ⟨hnode ▸ h.sound.onDecide, ?_, ?_, ?_, ?_⟩
  · rw [hnode, onDecide_pending]
    intro a ha
    rcases mem_append.1 ha with ha | ha
    · exact h.calls a ha
    · exact decide_call (mem_toList.1 ha)
  · intro won hwon
    obtain ⟨hpending, hmem, hheld⟩ := h.replied won hwon
    rw [hnode, onDecide_pending]
    exact ⟨fun hnil => hpending (append_eq_nil_iff.1 hnil).1, hmem, hheld⟩
  · rw [hnode]
    intro hafter
    cases hwriter : (w.nodes i).writer with
    | none =>
      obtain ⟨-, hstill, hnothing⟩ := h.decide_undecided hwriter now
      obtain ⟨-, hlost, hempty⟩ := h.undecided hwriter
      refine ⟨hstill, hlost, fun p hp hk => ?_⟩
      rcases hreturned p hp with hp | rfl
      · exact hempty p hp hk
      · exact hnothing
    | some writer =>
      obtain ⟨hkept, -⟩ := h.decide_decided hwriter now
      rw [hafter] at hkept
      cases hkept
  · rw [hnode]
    intro a won hafter
    cases hwriter : (w.nodes i).writer with
    | none =>
      obtain ⟨hkept, -⟩ := h.decide_undecided hwriter now
      rw [hafter] at hkept
      cases hkept
    | some writer =>
      obtain ⟨b, won'⟩ := writer
      obtain ⟨hkept, hnext⟩ := h.decide_decided hwriter now
      rw [hafter] at hkept
      cases hkept
      obtain ⟨hfor, hmem, hheld, hlost, hanswers⟩ := h.decided a won hwriter
      refine ⟨hfor, hmem, hheld, hlost, fun p hp hk => ?_⟩
      rcases hreturned p hp with hp | rfl
      · exact hanswers p hp hk
      · exact hnext

lemma onAnswer_of_asks (h : w.Asks i) : w.onAnswer i = { w with
      holder := if w.grants i then some i else w.holder
      reply := update w.reply i (some (w.grants i))
      answered := (i, w.grants i) :: w.answered } := if_pos h

lemma holder_onAnswer (hk : w.holder = some k) : (w.onAnswer i).holder = some k := by
  by_cases h : w.Asks i
  · rw [onAnswer_of_asks h]
    split
    · next hgrants =>
      rcases of_decide_eq_true hgrants with hfree | hown
      · rw [hfree] at hk
        cases hk
      · exact hown.symm.trans hk
    · exact hk
  · rw [onAnswer, if_neg h]
    exact hk

lemma NodeInv.onAnswer (h : NodeInv split w i) : NodeInv split (w.onAnswer i) i := by
  by_cases hasks : w.Asks i
  · have hundecided : (w.nodes i).writer = none := by
      cases hwriter : (w.nodes i).writer with
      | none => rfl
      | some writer => exact absurd (h.sound.of_writer hwriter).1 hasks.1
    rw [onAnswer_of_asks hasks]
    refine ⟨h.sound, h.calls, fun won hwon => ?_, h.undecided, fun a won hwriter => ?_⟩
    · obtain rfl : w.grants i = won := some.inj
        ((update_self i (some (w.grants i)) w.reply).symm.trans hwon)
      exact ⟨hasks.1, mem_cons_self, fun hgrants => if_pos hgrants⟩
    · cases hundecided.symm.trans hwriter
  · rw [Arbitration.onAnswer, if_neg hasks]
    exact h

omit [DecidableEq ι] in
lemma NodeInv.onAcquired (h : NodeInv split w i) (hpending : (w.nodes i).pending ≠ [])
    {result : AcquireResult} (hnode : w'.nodes i = (w.nodes i).onAcquired 0 result)
    (hreply : w'.reply i = none) (hanswered : ∀ p ∈ w.answered, p ∈ w'.answered)
    (hreturned : w'.returned = w.returned) (hholder : w.holder = some i → w'.holder = some i)
    (hresult : ∀ won, result = .reported won → w.reply i = some won)
    (hwinners : i ∈ w'.winners → i ∈ w.winners ∨
      (w'.nodes i).strategy.decisionRestsOnLease = true) : NodeInv split w' i := by
  obtain ⟨hwriter, -, hnil, hcases⟩ := h.sound.onAcquired_cases hpending result
  obtain ⟨hdecision, hlost, hempty⟩ := h.undecided hwriter
  have hsound : Sound (w'.nodes i) := hnode ▸ h.sound.onAcquired 0 result
  rw [← hnode] at hnil hcases
  refine ⟨hsound, ?_, ?_, fun hnone => ?_, fun b won hsome => ?_⟩
  · rw [hnil]
    exact nofun
  · rw [hreply]
    exact nofun
  · obtain ⟨a, won, -, -, hsome, -⟩ | ⟨-, hsame⟩ := hcases
    · cases hnone.symm.trans hsome
    · refine ⟨hsame.trans hdecision, fun hmem => ?_, hreturned ▸ hempty⟩
      obtain ⟨a, ha⟩ := hsound.rests ((hwinners hmem).resolve_left hlost)
      cases hnone.symm.trans ha
  · obtain ⟨a, won', hsingle, hreported, hsome', hrests⟩ | ⟨hnone, -⟩ := hcases
    · cases hsome.symm.trans hsome'
      obtain ⟨-, hmem, hheld⟩ := h.replied won (hresult won hreported)
      refine ⟨h.calls b (hsingle ▸ mem_cons_self), hanswered _ hmem,
        fun hwon => hholder (hheld hwon), fun hlose hmem => ?_,
        fun p hp hk => .inl (hempty p (hreturned ▸ hp) hk)⟩
      have hrest := (hwinners hmem).resolve_left hlost
      rw [hrests, hlose] at hrest
      cases hrest
    · cases hnone.symm.trans hsome

lemma NodeInv.onReport (h : NodeInv split w i) : NodeInv split (w.onReport i) i := by
  cases hreply : w.reply i with
  | none =>
    rw [Arbitration.onReport, hreply]
    exact h
  | some won =>
    have hreport : w.onReport i = { w with
        nodes := update w.nodes i ((w.nodes i).onAcquired 0 (.reported won))
        reply := update w.reply i none
        winners := if ((w.nodes i).onAcquired 0 (.reported won)).strategy.decisionRestsOnLease
          then i :: w.winners else w.winners } := by
      rw [Arbitration.onReport, hreply]
    have hnode : (w.onReport i).nodes i = (w.nodes i).onAcquired 0 (.reported won) := by
      rw [hreport]
      exact update_self _ _ _
    refine h.onAcquired (h.replied won hreply).1 hnode ?_ ?_ ?_ ?_ ?_ ?_
    · rw [hreport]
      exact update_self _ _ _
    · rw [hreport]
      exact fun _ hp => hp
    · rw [hreport]
    · rw [hreport]
      exact id
    · rintro _ ⟨⟩
      exact hreply
    · rw [hnode, hreport]
      split
      · next hrests => exact fun _ => .inr hrests
      · exact .inl

lemma onAcquired_of_nil {sys : System} (h : sys.pending = []) (result : AcquireResult) :
    sys.onAcquired 0 result = sys := by
  simp only [onAcquired, h, getElem?_nil]

lemma NodeInv.onReject (h : NodeInv split w i) : NodeInv split (w.onReject i) i := by
  have hnode : (w.onReject i).nodes i = (w.nodes i).onAcquired 0 .rejected :=
    update_self _ _ _
  have hreply : (w.onReject i).reply i = none := update_self _ _ _
  by_cases hpending : (w.nodes i).pending = []
  · rw [onAcquired_of_nil hpending] at hnode
    have hsame : w.reply i = none := by
      cases hreply : w.reply i with
      | none => rfl
      | some won => exact absurd hpending (h.replied won hreply).1
    exact h.frame hnode (hreply.trans hsame.symm) (fun _ hp => hp) id (fun _ hp _ => hp) id
  · exact h.onAcquired hpending hnode hreply (fun _ hp => hp) rfl id (fun _ => nofun) .inl

lemma NodeInv.onReleased (h : NodeInv split w i) (failed : Bool) :
    NodeInv split (w.onReleased i failed) i := by
  by_cases hundoing : (w.nodes i).undoing = []
  · rw [Arbitration.onReleased, if_pos hundoing]
    exact h
  · obtain ⟨hpending, hwriter⟩ := h.sound.of_undoing hundoing
    obtain ⟨a, rest, hcons⟩ := exists_cons_of_ne_nil hundoing
    have hsys : (w.nodes i).onReleased 0 failed = { w.nodes i with
        strategy := (w.nodes i).strategy.released failed
        undoing := (w.nodes i).undoing.eraseIdx 0 } := by
      simp only [System.onReleased, hcons, getElem?_cons_zero]
    have hnode : (w.onReleased i failed).nodes i = (w.nodes i).onReleased 0 failed := by
      rw [Arbitration.onReleased, if_neg hundoing]
      exact update_self _ _ _
    have hrest : (w.onReleased i failed).reply = w.reply ∧
        (w.onReleased i failed).winners = w.winners ∧
        (w.onReleased i failed).returned = w.returned := by
      rw [Arbitration.onReleased, if_neg hundoing]
      exact ⟨rfl, rfl, rfl⟩
    obtain ⟨hreply, hwinners, hreturned⟩ := hrest
    refine ⟨hnode ▸ h.sound.onReleased 0 failed, ?_, fun won hwon => ?_, fun _ => ?_,
      fun b won hsome => ?_⟩
    · rw [hnode, hsys, hpending]
      exact fun _ hmem => absurd hmem not_mem_nil
    · exact absurd hpending (h.replied won (hreply ▸ hwon)).1
    · rw [hnode, hsys, hwinners, hreturned]
      exact h.undecided hwriter
    · rw [hnode, hsys] at hsome
      cases hwriter.symm.trans hsome

/-- What every turn keeps: the fields of the nodes go with the record, and the nodes of a
side were given one answer. -/
structure Inv (split : EvenSplit ι) (w : Arbitration ι) : Prop where
  node : ∀ i, NodeInv split w i
  agree : ∀ i j won won', (i, won) ∈ w.answered → (j, won') ∈ w.answered → i ≠ j →
    split.home i = split.home j → won = won'

omit [DecidableEq ι] in
lemma inv_initial : Inv split ({} : Arbitration ι) where
  node _ := ⟨sound_init, nofun, nofun, fun _ => ⟨rfl, nofun, nofun⟩, nofun⟩
  agree _ _ _ _ := nofun

lemma Inv.onDecide (h : Inv split w) (i : ι) (now : ℚ) : Inv split (w.onDecide split i now) := by
  refine ⟨fun k => ?_, h.agree⟩
  by_cases hk : k = i
  · rw [hk]
    exact (h.node i).onDecide now
  · refine (h.node k).frame (update_of_ne hk _ _) rfl (fun _ hp => hp) id ?_ id
    intro p hp hown
    rcases mem_cons.1 hp with rfl | hp
    · exact absurd hown.symm hk
    · exact hp

lemma Inv.onAnswer (h : Inv split w) (i : ι) (hone : w.OneAnswer split (.answer i)) :
    Inv split (w.onAnswer i) := by
  by_cases hasks : w.Asks i
  · refine ⟨fun k => ?_, ?_⟩
    · by_cases hk : k = i
      · rw [hk]
        exact (h.node i).onAnswer
      · have hanswer := onAnswer_of_asks hasks
        refine (h.node k).frame ?_ ?_ ?_ ?_ ?_ holder_onAnswer <;> rw [hanswer]
        · exact update_of_ne hk _ _
        · exact fun _ hp => mem_cons_of_mem _ hp
        · exact id
        · exact fun _ hp _ => hp
    · -- the new answer is the one that the other nodes of the side were given
      rw [onAnswer_of_asks hasks]
      intro j k won won' hj hk hjk hhome
      rcases mem_cons.1 hj with hj | hj <;> rcases mem_cons.1 hk with hk | hk
      · cases hj
        cases hk
        exact absurd rfl hjk
      · cases hj
        exact (hone hasks k won' hk hjk.symm hhome.symm).symm
      · cases hk
        exact hone hasks j won hj hjk hhome
      · exact h.agree j k won won' hj hk hjk hhome
  · rw [Arbitration.onAnswer, if_neg hasks]
    exact h

lemma Inv.onReport (h : Inv split w) (i : ι) : Inv split (w.onReport i) := by
  have hanswered : (w.onReport i).answered = w.answered := by
    rw [Arbitration.onReport]
    cases w.reply i <;> rfl
  refine ⟨fun k => ?_, hanswered ▸ h.agree⟩
  by_cases hk : k = i
  · rw [hk]
    exact (h.node i).onReport
  · rw [Arbitration.onReport]
    cases w.reply i with
    | none => exact h.node k
    | some won =>
      refine (h.node k).frame (update_of_ne hk _ _) (update_of_ne hk _ _)
        (fun _ hp => hp) ?_ (fun _ hp _ => hp) id
      simp only
      split
      · exact fun hmem => (mem_cons.1 hmem).resolve_left hk
      · exact id

lemma Inv.onReject (h : Inv split w) (i : ι) : Inv split (w.onReject i) := by
  refine ⟨fun k => ?_, h.agree⟩
  by_cases hk : k = i
  · rw [hk]
    exact (h.node i).onReject
  · exact (h.node k).frame (update_of_ne hk _ _) (update_of_ne hk _ _)
      (fun _ hp => hp) id (fun _ hp _ => hp) id

lemma Inv.onReleased (h : Inv split w) (i : ι) (failed : Bool) :
    Inv split (w.onReleased i failed) := by
  by_cases hundoing : (w.nodes i).undoing = []
  · rw [Arbitration.onReleased, if_pos hundoing]
    exact h
  · have hreleased : w.onReleased i failed = { w with
        nodes := Function.update w.nodes i ((w.nodes i).onReleased 0 failed)
        holder := if !failed && w.holder = some i then none else w.holder } := if_neg hundoing
    refine ⟨fun k => ?_, ?_⟩
    · by_cases hk : k = i
      · rw [hk]
        exact (h.node i).onReleased failed
      · rw [hreleased]
        refine (h.node k).frame (update_of_ne hk _ _) rfl (fun _ hp => hp) id
          (fun _ hp _ => hp) fun hholder => ?_
        have hother : ¬ w.holder = some i := fun heq =>
          hk (Option.some.inj (hholder.symm.trans heq))
        simp only [hother, decide_false, Bool.and_false, Bool.false_eq_true, if_false]
        exact hholder
    · rw [hreleased]
      exact h.agree

lemma inv_of_reaches (h : Reaches split w) : Inv split w := by
  induction h with
  | initial => exact inv_initial
  | step _ turn hone ih =>
    cases turn with
    | decide i now => exact ih.onDecide i now
    | answer i => exact ih.onAnswer i hone
    | report i => exact ih.onReport i
    | reject i => exact ih.onReject i
    | released i failed => exact ih.onReleased i failed

omit [DecidableEq ι] in
lemma side_of_mem_surviveSet {key : JsString}
    (h : key ∈ keysOf ((split.view i).unreachableCandidates (split.options i).role)) :
    split.side key ≠ split.home i := by
  obtain ⟨m, hm, rfl⟩ := mem_keysOf.1 h
  obtain ⟨hcandidate, hfar⟩ := mem_filter.1 hm
  exact (split.unreachable_iff i m (mem_filter.1 hcandidate).1).1 (of_decide_eq_true hfar)

/-- In every run in which the record gives the nodes of a side one answer, the side of a
winner survives as a whole. -/
theorem winner_side_survives (split : EvenSplit ι) (w : Arbitration ι) (h : Reaches split w) :
    w.WinnersSurvive split := by
  have hinv := inv_of_reaches h
  intro i hi p hp hhome key hkey
  have hwon : ∃ a, (w.nodes i).writer = some (a, true) := by
    cases hwriter : (w.nodes i).writer with
    | none => exact absurd hi ((hinv.node i).undecided hwriter).2.1
    | some writer =>
      obtain ⟨a, won⟩ := writer
      cases won with
      | true => exact ⟨a, rfl⟩
      | false => exact absurd hi (((hinv.node i).decided a false hwriter).2.2.2.1 rfl)
  obtain ⟨a, hwon⟩ := hwon
  cases hwriter : (w.nodes p.1).writer with
  | none =>
    rw [((hinv.node p.1).undecided hwriter).2.2 p hp rfl] at hkey
    cases hkey
  | some writer =>
    obtain ⟨b, won⟩ := writer
    obtain ⟨hfor, hmem, -, -, hanswers⟩ := (hinv.node p.1).decided b won hwriter
    have htrue : won = true := by
      by_cases hsame : p.1 = i
      · rw [hsame, hwon] at hwriter
        cases hwriter
        rfl
      · exact hinv.agree p.1 i won true hmem ((hinv.node i).decided a true hwon).2.1 hsame hhome
    rcases hanswers p hp rfl with hempty | houtcome
    · rw [hempty] at hkey
      cases hkey
    · rw [houtcome, htrue, Attempt.outcome, if_pos rfl, hfor.surviveSet] at hkey
      exact hhome ▸ side_of_mem_surviveSet hkey

/-! ### Two nodes of one side -/

/-- The first thing a node of an even split does is to ask the lease. -/
def asking (options : LeaseMajorityOptions) (view : ClusterPartitionView) : LeaseMajority where
  acquiring := true
  lastFingerprint := some (view.fingerprint options.role)
  acquireDeadline := options.acquireTimeoutMs.getD 5000
  acquireEpoch := 2

def firstAttempt (options : LeaseMajorityOptions) (view : ClusterPartitionView) : Attempt where
  epoch := 2
  fingerprint := view.fingerprint options.role
  surviveSet := keysOf (view.unreachableCandidates options.role)
  downSelfSet := keysOf (view.reachable options.role)

lemma onDecide_first {options : LeaseMajorityOptions} {view : ClusterPartitionView}
    (heven : (view.reachable options.role).length = (view.unreachableCandidates options.role).length)
    (hreach : view.reachable options.role ≠ []) (alive : Bool) :
    ({} : System).onDecide options alive 0 view =
      { strategy := asking options view
        pending := [firstAttempt options view]
        acquireCalls := 1 } := by
  have hsum := length_reachable_add view options.role
  have hpos := length_pos_of_ne_nil hreach
  have hdecide : ({} : LeaseMajority).decide options alive 0 view =
      (asking options view, .nothing, some (firstAttempt options view)) := by
    unfold LeaseMajority.decide
    rw [if_neg (by simp), if_neg (by omega), if_neg (by omega)]
    rw [if_neg (by omega), if_neg (by omega)]
    simp [observe, reset, arbitrate, await, asking, firstAttempt]
  simp only [System.onDecide, hdecide]
  rfl

/-- What a node that was answered comes to. -/
def settled (options : LeaseMajorityOptions) (view : ClusterPartitionView) (won : Bool) : System where
  strategy := { asking options view with
    acquiring := false
    decision := some ((firstAttempt options view).outcome won)
    decisionRestsOnLease := won }
  acquireCalls := 1
  writer := some (firstAttempt options view, won)

variable (options : LeaseMajorityOptions) (view : ClusterPartitionView)

lemma settled_rests (won : Bool) :
    (settled options view won).strategy.decisionRestsOnLease = won := rfl

lemma onAcquired_first (won : Bool) :
    ({ strategy := asking options view, pending := [firstAttempt options view],
        acquireCalls := 1 } : System).onAcquired 0 (.reported won) = settled options view won :=
  (onAcquired_watched rfl rfl rfl).1 won

lemma decide_settled {options : LeaseMajorityOptions} {view : ClusterPartitionView}
    (heven : (view.reachable options.role).length = (view.unreachableCandidates options.role).length)
    (hreach : view.reachable options.role ≠ []) (alive : Bool) :
    ((settled options view false).strategy.decide options alive 0 view).2.1 =
      .cached (keysOf (view.reachable options.role)) := by
  have hsum := length_reachable_add view options.role
  have hpos := length_pos_of_ne_nil hreach
  unfold LeaseMajority.decide
  rw [if_neg (by simp [settled, asking]), if_neg (by omega), if_neg (by omega)]
  rw [if_neg (by omega), if_neg (by omega)]
  simp [observe, arbitrate, settled, asking, Attempt.outcome, firstAttempt]

/-- Two nodes of a side ask the lease, one after the other. -/
def race (i j : ι) : List (Turn ι) :=
  [.decide i 0, .decide j 0, .answer i, .answer j, .report i, .report j, .decide j 0]

lemma race_loses (split : EvenSplit ι) {j : ι} (hij : i ≠ j)
    (hi : (split.view i).reachable (split.options i).role ≠ [])
    (hj : (split.view j).reachable (split.options j).role ≠ []) :
    let w := (race i j).foldl (step split) {}
    w.winners = [i] ∧
      w.returned.head? = some (j, keysOf ((split.view j).reachable (split.options j).role)) := by
  have hfirst := fun alive => onDecide_first (split.even i) hi alive
  have hsecond := fun alive => onDecide_first (split.even j) hj alive
  have hlast := fun alive => decide_settled (split.even j) hj alive
  simp [race, step, onDecide, onAnswer, onReport, Asks, grants, update_of_ne hij.symm,
    hij, hfirst, hsecond, onAcquired_first, settled_rests, hlast,
    Answer.decision]

/-- Two members on either side. -/
def quartet : List Member :=
  [memberAt "a" .up, memberAt "b" .up, memberAt "c" .up, memberAt "d" .up]

lemma nodup_quartet : (quartet.map addrKey).Nodup := by decide

def leftHalf (key : JsString) : Bool :=
  decide (key = addrKey (memberAt "a" .up) ∨ key = addrKey (memberAt "b" .up))

def halves : EvenSplit (Fin 4) where
  side := leftHalf
  home i := decide (i.val < 2)
  options _ := {}
  view i := sideView quartet nodup_quartet leftHalf (decide (i.val < 2))
  unreachable_iff := by decide
  even := by decide

/-- One node of either side asks the lease. -/
theorem winner_side_survives_halves : ((race 0 2).foldl (step halves) {}).winners = [0] ∧
      WinnersSurvive halves ((race 0 2).foldl (step halves) {}) := by
  refine ⟨(race_loses halves (by decide) (by decide) (by decide)).1, winner_side_survives halves _ ?_⟩
  have hanswered : ((({} : Arbitration (Fin 4)).onDecide halves 0 0).onDecide halves 2 0
      |>.onAnswer 0).answered = [(0, true)] := by decide +kernel
  have hlast : ((({} : Arbitration (Fin 4)).onDecide halves 0 0).onDecide halves 2 0
      |>.onAnswer 0).OneAnswer halves (.answer 2) := by
    intro _ j won hmem _ hhome
    rw [hanswered, mem_singleton] at hmem
    cases hmem
    exact absurd hhome (by decide)
  exact .step (.step (.step (.step (.step (.step (.step .initial (.decide 0 0) trivial)
    (.decide 2 0) trivial) (.answer 0) (fun _ => nofun)) (.answer 2) hlast) (.report 0) trivial)
      (.report 2) trivial) (.decide 2 0) trivial

/-- Of the two nodes on the left the first wins, and the second takes both of them down. -/
theorem not_winnersSurvive_race : ¬ WinnersSurvive halves ((race 0 1).foldl (step halves) {}) := by
  obtain ⟨hwinners, hreturned⟩ := race_loses halves (i := 0) (j := 1) (by decide)
    (by decide) (by decide)
  intro hsurvive
  have hkey := hsurvive 0 (hwinners ▸ mem_cons_self) _ (mem_of_mem_head? hreturned)
    (by decide) (addrKey (memberAt "a" .up)) (by decide)
  exact hkey (by decide)

end Arbitration

end ActorTs.Cluster.Downing
