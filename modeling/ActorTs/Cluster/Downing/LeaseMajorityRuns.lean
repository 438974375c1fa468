import ActorTs.Cluster.Downing.LeaseMajority

/-!
# Runs of the strategy that asks a lease

`Phase` says how the fields of the strategy go with the calls under way: nothing is under way, one
attempt is watched, one is abandoned and has not reported, or one has reported a win and is being
undone. Every event leads from phase to phase, and what the strategy may return is read off the
phase it is in.
-/

open List Option Bool Nat

namespace ActorTs.Cluster.Downing

open System

namespace LeaseMajority

/-- How the fields go with the attempts under way, the undoing releases and the attempt
behind the decision. -/
inductive Phase (s : LeaseMajority) :
    List Attempt → List Attempt → Option (Attempt × Bool) → Prop
  | idle {writer : Option (Attempt × Bool)} (hacquiring : s.acquiring = false)
      (habandoned : s.abandonedAcquireEpoch = none)
      (hwriter : ∀ a won, writer = some (a, won) → s.decision = some (a.outcome won) ∧
        s.decisionRestsOnLease = won ∧ s.lastFingerprint = some a.fingerprint) :
      Phase s [] [] writer
  | watching {a : Attempt} (hacquiring : s.acquiring = true)
      (habandoned : s.abandonedAcquireEpoch = none) (hepoch : a.epoch = s.acquireEpoch)
      (hfingerprint : s.lastFingerprint = some a.fingerprint) : Phase s [a] [] none
  | forsaken {a : Attempt} (hacquiring : s.acquiring = false)
      (habandoned : s.abandonedAcquireEpoch = some a.epoch) (hepoch : a.epoch < s.acquireEpoch) :
      Phase s [a] [] none
  | undoing {a : Attempt} (hacquiring : s.acquiring = false)
      (habandoned : s.abandonedAcquireEpoch = some a.epoch) (hepoch : a.epoch < s.acquireEpoch) :
      Phase s [] [a] none

variable {options : LeaseMajorityOptions} {s : LeaseMajority} {pending undoing : List Attempt}
  {writer : Option (Attempt × Bool)} {alive : Bool} {now : ℚ} {view : ClusterPartitionView}
  {won : Bool}

lemma Phase.epoch_lt (h : Phase s pending undoing writer) {e : ℕ}
    (he : s.abandonedAcquireEpoch = some e) : e < s.acquireEpoch := by
  cases h with
  | idle _ habandoned _ | watching _ habandoned _ _ =>
    rw [habandoned] at he
    cases he
  | forsaken _ habandoned hepoch | undoing _ habandoned hepoch =>
    rw [habandoned] at he
    exact some.inj he ▸ hepoch

lemma Phase.abandoned_none {a : Attempt} (h : Phase s pending undoing (some (a, won))) :
    s.abandonedAcquireEpoch = none := by
  cases h with
  | idle _ habandoned _ => exact habandoned

section

variable (h : Phase s pending undoing writer)
include h

lemma Phase.undoing_nil (hpending : pending ≠ []) : undoing = [] := by
  cases h with
  | idle | watching | forsaken => rfl
  | undoing => exact absurd rfl hpending

lemma Phase.writer_none (hdecision : s.decision = none) : writer = none := by
  cases h with
  | idle _ _ hwriter =>
    cases writer with
    | none => rfl
    | some w =>
      have hsome := (hwriter w.1 w.2 rfl).1
      rw [hdecision] at hsome
      cases hsome
  | watching | forsaken | undoing => rfl

lemma Phase.writer_some {a : Attempt}
    (hsome : writer = some (a, won)) : s.decision = some (a.outcome won) ∧
      s.decisionRestsOnLease = won ∧ s.lastFingerprint = some a.fingerprint := by
  cases h with
  | idle _ _ hwriter => exact hwriter a won hsome
  | watching | forsaken | undoing => cases hsome

lemma Phase.reset : Phase s.reset pending undoing none := by
  cases h with
  | idle hacquiring habandoned _ =>
    refine .idle rfl ?_ nofun
    simp only [reset, hacquiring, habandoned]
    rfl
  | watching hacquiring habandoned hepoch _ =>
    refine .forsaken rfl ?_ ?_
    · simp only [reset, hacquiring, if_true, hepoch]
    · simp only [reset, hepoch]
      omega
  | forsaken hacquiring habandoned hepoch =>
    refine .forsaken rfl ?_ ?_
    · simp only [reset, hacquiring, habandoned]
      rfl
    · simp only [reset]
      omega
  | undoing hacquiring habandoned hepoch =>
    refine .undoing rfl ?_ ?_
    · simp only [reset, hacquiring, habandoned]
      rfl
    · simp only [reset]
      omega

end

/-- Fields that the phase does not look at may change where no attempt is behind the
decision. -/
lemma Phase.congr {s' : LeaseMajority} (h : Phase s pending undoing none)
    (hacquiring : s'.acquiring = s.acquiring)
    (habandoned : s'.abandonedAcquireEpoch = s.abandonedAcquireEpoch)
    (hepoch : s'.acquireEpoch = s.acquireEpoch)
    (hfingerprint : s.acquiring = true → s'.lastFingerprint = s.lastFingerprint) :
    Phase s' pending undoing none := by
  cases h with
  | idle h₁ h₂ _ => exact .idle (hacquiring.trans h₁) (habandoned.trans h₂) nofun
  | watching h₁ h₂ h₃ h₄ =>
    exact .watching (hacquiring.trans h₁) (habandoned.trans h₂) (h₃.trans hepoch.symm)
      ((hfingerprint h₁).trans h₄)
  | forsaken h₁ h₂ h₃ =>
    exact .forsaken (hacquiring.trans h₁) (habandoned.trans h₂) (hepoch ▸ h₃)
  | undoing h₁ h₂ h₃ =>
    exact .undoing (hacquiring.trans h₁) (habandoned.trans h₂) (hepoch ▸ h₃)

lemma Phase.forget (h : Phase s pending undoing writer) : Phase s pending undoing none := by
  cases h with
  | idle hacquiring habandoned _ => exact .idle hacquiring habandoned nofun
  | watching h₁ h₂ h₃ h₄ => exact .watching h₁ h₂ h₃ h₄
  | forsaken h₁ h₂ h₃ => exact .forsaken h₁ h₂ h₃
  | undoing h₁ h₂ h₃ => exact .undoing h₁ h₂ h₃

lemma Phase.observe (h : Phase s pending undoing writer) (fingerprint : JsString) :
    Phase (s.observe fingerprint) pending undoing
        (if (s.observe fingerprint).decision = none then none else writer) ∧
      (s.observe fingerprint).lastFingerprint = some fingerprint := by
  by_cases hsame : some fingerprint = s.lastFingerprint
  · rw [LeaseMajority.observe, if_neg (not_not.2 hsame)]
    refine ⟨?_, hsame.symm⟩
    split
    · exact h.forget
    · exact h
  · rw [LeaseMajority.observe, if_pos hsame]
    exact ⟨h.reset.congr rfl rfl rfl nofun, rfl⟩

lemma Phase.await (h : Phase s pending undoing none)
    (hfingerprint : s.lastFingerprint = some (view.fingerprint options.role)) :
    Phase (s.await options now view).1 (pending ++ (s.await options now view).2.2.toList) undoing
      none := by
  cases h with
  | idle hacquiring habandoned _ =>
    simp only [await, hacquiring, habandoned, false_eq_true, if_false, ne_eq,
      not_true_eq_false, toList_some, nil_append]
    exact .watching rfl rfl rfl hfingerprint
  | watching hacquiring habandoned hepoch hfp =>
    simp only [await, hacquiring, if_true]
    split
    · simp only [toList_none, append_nil]
      exact .forsaken rfl (congrArg some hepoch.symm) (by simp [hepoch])
    · simp only [toList_none, append_nil]
      exact .watching hacquiring habandoned hepoch hfp
  | forsaken hacquiring habandoned hepoch =>
    simp only [await, hacquiring, habandoned, false_eq_true, if_false, ne_eq,
      reduceCtorEq, not_false_eq_true, if_true, toList_none, append_nil]
    exact .forsaken hacquiring habandoned hepoch
  | undoing hacquiring habandoned hepoch =>
    simp only [await, hacquiring, habandoned, false_eq_true, if_false, ne_eq,
      reduceCtorEq, not_false_eq_true, if_true, toList_none, append_nil]
    exact .undoing hacquiring habandoned hepoch

variable (s)

@[simp] lemma await_decision : (s.await options now view).1.decision = s.decision := by
  unfold await
  split_ifs <;> rfl

@[simp] lemma await_rests :
    (s.await options now view).1.decisionRestsOnLease = s.decisionRestsOnLease := by
  unfold await
  split_ifs <;> rfl

@[simp] lemma await_answer : (s.await options now view).2.1 = .nothing := by
  unfold await
  split_ifs <;> rfl

lemma await_epoch_le : s.acquireEpoch ≤ (s.await options now view).1.acquireEpoch := by
  unfold await
  split_ifs <;> simp

lemma observe_epoch_le (fingerprint : JsString) :
    s.acquireEpoch ≤ (s.observe fingerprint).acquireEpoch := by
  unfold observe
  split_ifs <;> simp [reset]

lemma arbitrate_cases (options : LeaseMajorityOptions) (alive : Bool)
    (now : ℚ) (view : ClusterPartitionView) :
    s.arbitrate options alive now view = (s, .nothing, none) ∨
      (∃ d, s.decision = some d ∧ (s.decisionRestsOnLease = true → alive = true) ∧
        s.arbitrate options alive now view = (s, .cached d, none)) ∨
      s.arbitrate options alive now view =
        ({ s with decision := none, decisionRestsOnLease := false }).await options now view ∨
      s.decision = none ∧ s.arbitrate options alive now view = s.await options now view := by
  unfold arbitrate
  split
  · exact .inl rfl
  split
  · rename_i d hdecision
    split
    · rename_i hheld
      refine .inr (.inl ⟨d, hdecision, fun hrests => ?_, rfl⟩)
      simpa [hrests] using hheld
    · exact .inr (.inr (.inl rfl))
  · rename_i hdecision
    exact .inr (.inr (.inr ⟨hdecision, rfl⟩))

lemma decide_cases (options : LeaseMajorityOptions) (alive : Bool)
    (now : ℚ) (view : ClusterPartitionView) :
    s.decide options alive now view = (s, .nothing, none) ∨
      s.decide options alive now view = (s.reset, .nothing, none) ∨
      (∃ d, s.decide options alive now view =
        ({ s.observe (view.fingerprint options.role) with
            decision := some d, decisionRestsOnLease := false }, .counted d, none)) ∨
      s.stopped = false ∧ s.decide options alive now view =
        (s.observe (view.fingerprint options.role)).arbitrate options alive now view := by
  unfold decide
  split
  · exact .inl rfl
  rename_i hstopped
  split
  · exact .inl rfl
  split
  · exact .inr (.inl rfl)
  simp only
  split
  · exact .inr (.inr (.inl ⟨_, rfl⟩))
  split
  · exact .inr (.inr (.inl ⟨_, rfl⟩))
  · exact .inr (.inr (.inr ⟨eq_false_of_not_eq_true hstopped, rfl⟩))

variable {s}

lemma arbitrate_decision_none (h : s.decision = none) :
    (s.arbitrate options alive now view).1.decision = none := by
  obtain hsame | ⟨d, -, -, hcached⟩ | hdropped | ⟨-, hawait⟩ :=
    arbitrate_cases s options alive now view
  · rw [hsame]
    exact h
  · rw [hcached]
    exact h
  · rw [hdropped, await_decision]
  · rw [hawait, await_decision]
    exact h

variable (s)

lemma arbitrate_epoch_le :
    s.acquireEpoch ≤ (s.arbitrate options alive now view).1.acquireEpoch := by
  obtain hsame | ⟨d, -, -, hcached⟩ | hdropped | ⟨-, hawait⟩ :=
    arbitrate_cases s options alive now view
  · rw [hsame]
  · rw [hcached]
  · rw [hdropped]
    exact await_epoch_le { s with decision := none, decisionRestsOnLease := false }
  · rw [hawait]
    exact await_epoch_le s

lemma decide_epoch_le : s.acquireEpoch ≤ (s.decide options alive now view).1.acquireEpoch := by
  have hobserve := observe_epoch_le s (view.fingerprint options.role)
  obtain hsame | hreset | ⟨d, hcounted⟩ | ⟨-, harbitrate⟩ :=
    decide_cases s options alive now view
  · rw [hsame]
  · rw [hreset]
    exact le_succ _
  · rw [hcounted]
    exact hobserve
  · rw [harbitrate]
    exact hobserve.trans (arbitrate_epoch_le _)

lemma decide_stopped : (s.decide options alive now view).1.stopped = s.stopped := by
  have hawait : ∀ t : LeaseMajority, (t.await options now view).1.stopped = t.stopped := by
    intro t
    unfold await
    split_ifs <;> rfl
  have hobserve : (s.observe (view.fingerprint options.role)).stopped = s.stopped := by
    unfold observe
    split_ifs <;> rfl
  obtain hsame | hreset | ⟨d, hcounted⟩ | ⟨-, harbitrate⟩ := decide_cases s options alive now view
  · rw [hsame]
  · rw [hreset]
    rfl
  · rw [hcounted]
    exact hobserve
  rw [harbitrate, ← hobserve]
  obtain hsame | ⟨_, -, -, hcached⟩ | hdropped | ⟨-, hawaits⟩ :=
    arbitrate_cases (s.observe (view.fingerprint options.role)) options alive now view
  · rw [hsame]
  · rw [hcached]
  · rw [hdropped, hawait]
  · rw [hawaits, hawait]

variable {s}

/-- The kept decision is answered for the split it was found for, and one that rests on
the lease only where the lease is held. -/
lemma decide_cached {d : DowningDecision}
    (h : (s.decide options alive now view).2.1 = .cached d) :
    s.decision = some d ∧ s.lastFingerprint = some (view.fingerprint options.role) ∧
      (s.decisionRestsOnLease = true → alive = true) := by
  obtain hsame | hreset | ⟨_, hcounted⟩ | ⟨-, harbitrate⟩ :=
    decide_cases s options alive now view
  · rw [hsame] at h
    cases h
  · rw [hreset] at h
    cases h
  · rw [hcounted] at h
    cases h
  rw [harbitrate] at h
  obtain hsame | ⟨_, hdecision, halive, hcached⟩ | hdropped | ⟨-, hawait⟩ :=
    arbitrate_cases (s.observe (view.fingerprint options.role)) options alive now view
  · rw [hsame] at h
    cases h
  · rw [hcached] at h
    cases h
    unfold observe at hdecision halive
    split_ifs at hdecision halive with hchanged
    · cases hdecision
    · exact ⟨hdecision, (not_not.1 hchanged).symm, halive⟩
  · rw [hdropped, await_answer] at h
    cases h
  · rw [hawait, await_answer] at h
    cases h

/-- Where the decision rests on the lease behind `decide`, it did so before, and it is
not one of the counts. -/
lemma decide_rests (h : (s.decide options alive now view).1.decisionRestsOnLease = true) :
    s.decisionRestsOnLease = true ∧ (s.decide options alive now view).1.decision = s.decision ∧
      ∀ d, (s.decide options alive now view).2.1 ≠ .counted d := by
  obtain hsame | hreset | ⟨_, hcounted⟩ | ⟨-, harbitrate⟩ :=
    decide_cases s options alive now view
  · rw [hsame] at h ⊢
    exact ⟨h, rfl, fun _ => nofun⟩
  · rw [hreset] at h
    cases h
  · rw [hcounted] at h
    cases h
  rw [harbitrate] at h ⊢
  -- a changed view would have dropped the flag
  have hobserve : (s.observe (view.fingerprint options.role)).decisionRestsOnLease = true →
      s.decisionRestsOnLease = true ∧
        (s.observe (view.fingerprint options.role)).decision = s.decision := by
    intro hrests
    unfold observe at hrests ⊢
    split_ifs at hrests ⊢
    · cases hrests
    · exact ⟨hrests, rfl⟩
  obtain hsame | ⟨_, -, -, hcached⟩ | hdropped | ⟨-, hawait⟩ :=
    arbitrate_cases (s.observe (view.fingerprint options.role)) options alive now view
  · rw [hsame] at h ⊢
    exact ⟨(hobserve h).1, (hobserve h).2, fun _ => nofun⟩
  · rw [hcached] at h ⊢
    exact ⟨(hobserve h).1, (hobserve h).2, fun _ => nofun⟩
  · rw [hdropped, await_rests] at h
    cases h
  · rw [hawait, await_rests] at h
    rw [hawait, await_decision, await_answer]
    exact ⟨(hobserve h).1, (hobserve h).2, fun _ => nofun⟩

lemma writerAfter_ite (s : LeaseMajority) (r : Decided)
    (hr : s.decision = none → r.1.decision = none) :
    writerAfter (if s.decision = none then none else writer) r.1 r.2.1 =
      writerAfter writer r.1 r.2.1 := by
  split
  · rename_i hnone
    cases r.2.1 <;> simp [writerAfter, hr hnone]
  · rfl

lemma Phase.unchanged (h : Phase s pending undoing writer) :
    Phase s (pending ++ []) undoing (if s.decision = none then none else writer) := by
  rw [append_nil]
  split
  · exact h.forget
  · exact h

lemma Phase.arbitrate (h : Phase s pending undoing writer)
    (hfingerprint : s.lastFingerprint = some (view.fingerprint options.role)) :
    Phase (s.arbitrate options alive now view).1
      (pending ++ (s.arbitrate options alive now view).2.2.toList) undoing
      (writerAfter writer (s.arbitrate options alive now view).1
        (s.arbitrate options alive now view).2.1) := by
  obtain hsame | ⟨_, -, -, hcached⟩ | hdropped | ⟨hdecision, hawait⟩ :=
    arbitrate_cases s options alive now view
  · rw [hsame]
    exact h.unchanged
  · rw [hcached]
    exact h.unchanged
  · have hforgotten : Phase { s with decision := none, decisionRestsOnLease := false } pending
        undoing none := h.forget.congr rfl rfl rfl fun _ => rfl
    rw [hdropped, await_answer]
    simp only [writerAfter, await_decision, if_true]
    exact hforgotten.await hfingerprint
  · rw [hawait, await_answer]
    simp only [writerAfter, await_decision, hdecision, if_true]
    exact h.forget.await hfingerprint

lemma Phase.decide (h : Phase s pending undoing writer) :
    Phase (s.decide options alive now view).1
      (pending ++ (s.decide options alive now view).2.2.toList) undoing
      (writerAfter writer (s.decide options alive now view).1
        (s.decide options alive now view).2.1) := by
  obtain ⟨hobserve, hfingerprint⟩ := h.observe (view.fingerprint options.role)
  obtain hsame | hreset | ⟨_, hcounted⟩ | ⟨-, harbitrate⟩ :=
    decide_cases s options alive now view
  · rw [hsame]
    exact h.unchanged
  · rw [hreset]
    simp only [writerAfter, toList_none, append_nil]
    exact h.reset
  · rw [hcounted]
    simp only [writerAfter, toList_none, append_nil]
    exact hobserve.forget.congr rfl rfl rfl fun _ => rfl
  · rw [harbitrate,
      ← writerAfter_ite (s.observe (view.fingerprint options.role)) _ arbitrate_decision_none]
    exact hobserve.arbitrate hfingerprint

variable {a : Attempt} {index : ℕ}

lemma acquired_watched (hepoch : a.epoch = s.acquireEpoch) (won : Bool) :
    s.acquired a (.reported won) =
      ({ s with
          acquiring := false
          decision := some (a.outcome won)
          decisionRestsOnLease := won }, false) := by
  simp [acquired, hepoch]

lemma acquired_forsaken (habandoned : s.abandonedAcquireEpoch = some a.epoch)
    (hepoch : a.epoch < s.acquireEpoch) (won : Bool) :
    s.acquired a (.reported won) =
      if won then (s, true) else ({ s with abandonedAcquireEpoch := none }, false) := by
  simp [acquired, habandoned, hepoch.ne]

lemma Phase.shutdown (h : Phase s pending undoing writer) :
    Phase s.shutdown.1 pending undoing (if s.shutdown.1.decision = none then none else writer) := by
  unfold LeaseMajority.shutdown
  split
  · have := h.unchanged
    rwa [append_nil] at this
  · exact h.reset.congr rfl rfl rfl nofun

end LeaseMajority

namespace System

open LeaseMajority

/-- What every event keeps: the phase, that an abandoned attempt is one of the past, that
none of them is behind the decision, and that a decision which rests on the lease has an
attempt behind it. -/
structure Sound (sys : System) : Prop where
  phase : Phase sys.strategy sys.pending sys.undoing sys.writer
  abandoned_lt : ∀ e ∈ sys.abandoned, e < sys.strategy.acquireEpoch
  writer_watched : ∀ a won, sys.writer = some (a, won) → a.epoch ∉ sys.abandoned
  rests : sys.strategy.decisionRestsOnLease = true → ∃ a, sys.writer = some (a, true)

variable {options : LeaseMajorityOptions} {sys : System} {alive : Bool} {now : ℚ}
  {view : ClusterPartitionView}

lemma sound_init : Sound {} :=
  ⟨.idle rfl rfl nofun, nofun, nofun, nofun⟩

variable {s : LeaseMajority} {writer : Option (Attempt × Bool)} {abandoned : List ℕ}
  {answer : Answer}

lemma noteAbandoned_lt {pending undoing : List Attempt} (h : Phase s pending undoing writer)
    (habandoned : ∀ e ∈ abandoned, e < s.acquireEpoch) :
    ∀ e ∈ noteAbandoned abandoned s, e < s.acquireEpoch := by
  intro e he
  rcases mem_append.1 he with hnew | hold
  · exact h.epoch_lt (mem_toList.1 hnew)
  · exact habandoned e hold

lemma noteAbandoned_writer {pending undoing : List Attempt} {a : Attempt} {won : Bool}
    (h : Phase s pending undoing (some (a, won))) : noteAbandoned abandoned s = abandoned := by
  rw [noteAbandoned, h.abandoned_none, toList_none, nil_append]

lemma writerAfter_some {w : Attempt × Bool} (h : writerAfter writer s answer = some w) :
    writer = some w := by
  cases answer with
  | counted => cases h
  | nothing | cached =>
    simp only [writerAfter] at h
    split at h
    · cases h
    · exact h

lemma writerAfter_of_decision (hcounted : ∀ d, answer ≠ .counted d)
    (hdecision : s.decision ≠ none) : writerAfter writer s answer = writer := by
  cases answer with
  | counted d => exact absurd rfl (hcounted d)
  | nothing | cached => rw [writerAfter, if_neg hdecision]; simp

lemma Sound.onDecide (h : Sound sys) : Sound (sys.onDecide options alive now view) := by
  have hphase : Phase (sys.strategy.decide options alive now view).1 _ _ _ := h.phase.decide
  refine ⟨hphase, noteAbandoned_lt hphase fun e he =>
    (h.abandoned_lt e he).trans_le (decide_epoch_le _), ?_, ?_⟩
  · intro a won hwriter
    change writerAfter _ _ _ = some (a, won) at hwriter
    change a.epoch ∉ noteAbandoned sys.abandoned _
    rw [noteAbandoned_writer (hwriter ▸ hphase)]
    exact h.writer_watched a won (writerAfter_some hwriter)
  · intro hrests
    obtain ⟨hbefore, hdecision, hcounted⟩ := decide_rests hrests
    obtain ⟨a, hwriter⟩ := h.rests hbefore
    have hkept : (sys.strategy.decide options alive now view).1.decision ≠ none := by
      rw [hdecision]
      intro hnone
      cases (h.phase.writer_none hnone).symm.trans hwriter
    exact ⟨a, (writerAfter_of_decision hcounted hkept).trans hwriter⟩

/-- Where an attempt is under way, it is the only one, and it is watched or abandoned. -/
lemma Sound.pending_cases (h : Sound sys) {index : ℕ} {a : Attempt}
    (ha : sys.pending[index]? = some a) :
    index = 0 ∧ sys.pending = [a] ∧ sys.undoing = [] ∧ sys.writer = none ∧
      (sys.strategy.acquiring = true ∧ sys.strategy.abandonedAcquireEpoch = none ∧
          a.epoch = sys.strategy.acquireEpoch ∧
          sys.strategy.lastFingerprint = some a.fingerprint ∨
        sys.strategy.acquiring = false ∧ sys.strategy.abandonedAcquireEpoch = some a.epoch ∧
          a.epoch < sys.strategy.acquireEpoch) := by
  have hphase := h.phase
  generalize sys.pending = pending at hphase ha
  generalize sys.undoing = undoing at hphase
  generalize sys.writer = writer at hphase
  cases hphase with
  | idle | undoing => cases ha
  | @watching b hacquiring habandoned hepoch hfingerprint =>
    cases index with
    | zero =>
      cases ha
      exact ⟨rfl, rfl, rfl, rfl, .inl ⟨hacquiring, habandoned, hepoch, hfingerprint⟩⟩
    | succ => cases ha
  | @forsaken b hacquiring habandoned hepoch =>
    cases index with
    | zero =>
      cases ha
      exact ⟨rfl, rfl, rfl, rfl, .inr ⟨hacquiring, habandoned, hepoch⟩⟩
    | succ => cases ha

/-- The result of a watched attempt becomes the decision; a rejection changes nothing but
that no attempt is under way. -/
lemma onAcquired_watched {a : Attempt} (hpending : sys.pending = [a])
    (habandoned : sys.strategy.abandonedAcquireEpoch = none)
    (hepoch : a.epoch = sys.strategy.acquireEpoch) :
    (∀ won, sys.onAcquired 0 (.reported won) =
      { sys with
        strategy := { sys.strategy with
          acquiring := false
          decision := some (a.outcome won)
          decisionRestsOnLease := won }
        pending := []
        writer := some (a, won) }) ∧
      sys.onAcquired 0 .rejected =
        { sys with strategy := { sys.strategy with acquiring := false }, pending := [] } := by
  constructor
  · intro won
    simp [onAcquired, hpending, acquired_watched hepoch, hepoch]
  · simp [onAcquired, acquired, hpending, habandoned, hepoch]

/-- A win of an abandoned attempt is given back; without one there is nothing to wait
for. -/
lemma onAcquired_forsaken {a : Attempt} (hpending : sys.pending = [a])
    (hundoing : sys.undoing = []) (habandoned : sys.strategy.abandonedAcquireEpoch = some a.epoch)
    (hepoch : a.epoch < sys.strategy.acquireEpoch) :
    sys.onAcquired 0 (.reported true) =
        { sys with pending := [], undoing := [a], releaseCalls := sys.releaseCalls + 1 } ∧
      ∀ result, (∀ won, result = .reported won → won = false) →
        sys.onAcquired 0 result =
          { sys with
            strategy := { sys.strategy with abandonedAcquireEpoch := none }, pending := [] } := by
  constructor
  · simp [onAcquired, hpending, hundoing, acquired_forsaken habandoned hepoch, hepoch.ne]
  · intro result hresult
    cases result with
    | reported won =>
      cases hresult won rfl
      simp [onAcquired, hpending, acquired_forsaken habandoned hepoch, hepoch.ne]
    | rejected => simp [onAcquired, acquired, hpending, habandoned, hepoch.ne]

lemma Sound.onAcquired (h : Sound sys) (index : ℕ) (result : AcquireResult) :
    Sound (sys.onAcquired index result) := by
  cases ha : sys.pending[index]? with
  | none =>
    unfold System.onAcquired
    rw [ha]
    exact h
  | some a =>
    obtain ⟨rfl, hpending, hundoing, hwriter, hwatched | hforsaken⟩ := h.pending_cases ha
    · obtain ⟨-, habandoned, hepoch, hfingerprint⟩ := hwatched
      obtain ⟨hreported, hrejected⟩ := onAcquired_watched hpending habandoned hepoch
      cases result with
      | reported won =>
        rw [hreported won]
        refine ⟨?_, h.abandoned_lt, ?_, ?_⟩
        · rw [hundoing]
          refine .idle rfl habandoned fun b won' heq => ?_
          cases heq
          exact ⟨rfl, rfl, hfingerprint⟩
        · intro b won' heq hmem
          cases heq
          exact (h.abandoned_lt _ hmem).ne hepoch
        · intro hrests
          cases (hrests : won = true)
          exact ⟨a, rfl⟩
      | rejected =>
        rw [hrejected]
        refine ⟨?_, h.abandoned_lt, h.writer_watched, h.rests⟩
        rw [hundoing, hwriter]
        exact .idle rfl habandoned nofun
    · obtain ⟨hacquiring, habandoned, hepoch⟩ := hforsaken
      obtain ⟨hwon, hlost⟩ := onAcquired_forsaken hpending hundoing habandoned hepoch
      by_cases hresult : result = .reported true
      · rw [hresult, hwon]
        refine ⟨?_, h.abandoned_lt, h.writer_watched, h.rests⟩
        rw [hwriter]
        exact .undoing hacquiring habandoned hepoch
      · rw [hlost result ?_]
        · refine ⟨?_, h.abandoned_lt, h.writer_watched, h.rests⟩
          rw [hundoing, hwriter]
          exact .idle hacquiring rfl nofun
        · rintro (_ | _) rfl
          · rfl
          · exact absurd rfl hresult

lemma Sound.onReleased (h : Sound sys) (index : ℕ) (failed : Bool) :
    Sound (sys.onReleased index failed) := by
  unfold System.onReleased
  split
  · exact h
  rename_i a ha
  have hphase := h.phase
  generalize hundoing : sys.undoing = undoing at hphase ha
  generalize sys.pending = pending at hphase
  generalize hwriter : sys.writer = writer at hphase
  cases hphase with
  | idle | watching | forsaken => cases ha
  | @undoing b hacquiring habandoned hepoch =>
    cases index with
    | succ => cases ha
    | zero =>
      refine ⟨.idle hacquiring rfl nofun, h.abandoned_lt, nofun, fun hrests => ?_⟩
      obtain ⟨c, hc⟩ := h.rests hrests
      cases hwriter.symm.trans hc

lemma shutdown_epoch_le (s : LeaseMajority) : s.acquireEpoch ≤ s.shutdown.1.acquireEpoch := by
  unfold shutdown
  split
  · exact le_rfl
  · exact le_succ _

lemma Sound.onShutdown (h : Sound sys) : Sound sys.onShutdown := by
  have hphase := h.phase.shutdown
  refine ⟨hphase, noteAbandoned_lt hphase fun e he =>
    (h.abandoned_lt e he).trans_le (shutdown_epoch_le _), ?_, ?_⟩
  · intro a won hwriter
    change (if sys.strategy.shutdown.1.decision = none then none else sys.writer) =
      some (a, won) at hwriter
    change a.epoch ∉ noteAbandoned sys.abandoned _
    rw [noteAbandoned_writer (hwriter ▸ hphase)]
    split at hwriter
    · cases hwriter
    · exact h.writer_watched a won hwriter
  · intro hrests
    change sys.strategy.shutdown.1.decisionRestsOnLease = true at hrests
    change ∃ a, (if sys.strategy.shutdown.1.decision = none then none else sys.writer) =
      some (a, true)
    by_cases hstopped : sys.strategy.stopped = true
    · rw [shutdown, if_pos hstopped] at hrests ⊢
      obtain ⟨a, hwriter⟩ := h.rests hrests
      refine ⟨a, ?_⟩
      rw [if_neg, hwriter]
      intro hnone
      cases (h.phase.writer_none hnone).symm.trans hwriter
    · rw [shutdown, if_neg hstopped] at hrests
      cases hrests

lemma Sound.step (h : Sound sys) (event : Event) : Sound (sys.step options event) := by
  cases event with
  | decide alive now view => exact h.onDecide
  | acquired index result => exact h.onAcquired index result
  | released index failed => exact h.onReleased index failed
  | shutdown => exact h.onShutdown

lemma Sound.run (h : Sound sys) (events : List Event) : Sound (sys.run options events) := by
  induction events generalizing sys with
  | nil => exact h
  | cons event events ih => exact ih (h.step event)

lemma sound_run (events : List Event) : Sound (run options {} events) :=
  sound_init.run events

lemma Sound.pending_length_le (h : Sound sys) : sys.pending.length ≤ 1 := by
  have hphase := h.phase
  generalize sys.pending = pending at hphase
  generalize sys.undoing = undoing at hphase
  generalize sys.writer = writer at hphase
  cases hphase <;> simp

lemma step_acquireCalls_le (sys : System) (event : Event) :
    sys.acquireCalls ≤ (sys.step options event).acquireCalls := by
  cases event with
  | decide alive now view => exact le_add_right _ _
  | acquired index result =>
    simp only [step, onAcquired]
    split <;> exact le_rfl
  | released index failed =>
    simp only [step, onReleased]
    split <;> exact le_rfl
  | shutdown => exact le_rfl

lemma run_acquireCalls_le (sys : System) (events : List Event) :
    sys.acquireCalls ≤ (sys.run options events).acquireCalls := by
  induction events generalizing sys with
  | nil => exact le_rfl
  | cons event events ih => exact (step_acquireCalls_le sys event).trans (ih _)

lemma onDecide_acquireCalls : (sys.onDecide options alive now view).acquireCalls =
      sys.acquireCalls + (sys.strategy.decide options alive now view).2.2.toList.length :=
  rfl

lemma onDecide_pending : (sys.onDecide options alive now view).pending =
      sys.pending ++ (sys.strategy.decide options alive now view).2.2.toList :=
  rfl

lemma decide_of_stopped (h : sys.strategy.stopped = true) :
    sys.strategy.decide options alive now view = (sys.strategy, .nothing, none) := by
  rw [LeaseMajority.decide, if_pos h]

lemma step_stopped (h : sys.strategy.stopped = true) (event : Event) :
    (sys.step options event).strategy.stopped = true := by
  cases event with
  | decide alive now view => exact (decide_stopped sys.strategy).trans h
  | acquired index result =>
    simp only [step, onAcquired]
    split
    · exact h
    · simp only [acquired]
      split
      · exact h
      · split_ifs <;> exact h
  | released index failed =>
    simp only [step, onReleased]
    split <;> exact h
  | shutdown =>
    simp only [step, onShutdown, shutdown, h, if_true]

lemma run_stopped (h : sys.strategy.stopped = true) (events : List Event) :
    (sys.run options events).strategy.stopped = true := by
  induction events generalizing sys with
  | nil => exact h
  | cons event events ih => exact ih (step_stopped h event)

lemma onShutdown_stopped (sys : System) : sys.onShutdown.strategy.stopped = true := by
  simp only [onShutdown, shutdown]
  split
  · assumption
  · rfl

/-- No attempt is under way, and `n` releases were called, but for the one of a shutdown. -/
structure Quiet (n : ℕ) (sys : System) : Prop where
  sound : Sound sys
  pending : sys.pending = []
  releases : sys.strategy.stopped = true ∨ sys.releaseCalls = n

variable {n : ℕ}

/-- An event that makes no acquire call makes no release call either, a shutdown apart. -/
lemma Quiet.step (h : Quiet n sys) (event : Event)
    (hcalls : (sys.step options event).acquireCalls = sys.acquireCalls) :
    Quiet n (sys.step options event) := by
  refine ⟨h.sound.step event, ?_, ?_⟩
  · cases event with
    | decide alive now view =>
      rw [System.step, onDecide_acquireCalls] at hcalls
      have hnone := eq_nil_of_length_eq_zero (add_eq_left.1 hcalls)
      rw [System.step, onDecide_pending, hnone, h.pending, append_nil]
    | acquired index result =>
      simp only [System.step, System.onAcquired, h.pending, getElem?_nil]
    | released index failed =>
      simp only [System.step, System.onReleased]
      split <;> exact h.pending
    | shutdown => exact h.pending
  · rcases h.releases with hstopped | hreleases
    · exact .inl (step_stopped hstopped event)
    · cases event with
      | decide alive now view => exact .inr hreleases
      | acquired index result =>
        refine .inr ?_
        simp only [System.step, System.onAcquired, h.pending, getElem?_nil]
        exact hreleases
      | released index failed =>
        refine .inr ?_
        simp only [System.step, System.onReleased]
        split <;> exact hreleases
      | shutdown => exact .inl (onShutdown_stopped sys)

lemma Quiet.run (h : Quiet n sys) (events : List Event)
    (hcalls : (sys.run options events).acquireCalls = sys.acquireCalls) :
    Quiet n (sys.run options events) := by
  induction events generalizing sys with
  | nil => exact h
  | cons event events ih =>
    have hstep : (sys.step options event).acquireCalls = sys.acquireCalls := by
      refine le_antisymm ?_ (step_acquireCalls_le sys event)
      rw [← hcalls]
      exact run_acquireCalls_le _ events
    exact ih (h.step event hstep) (hcalls.trans hstep.symm)

/-- Where an acquire call is made next, the releases are what they were, and none is
under way. -/
lemma Quiet.starts (h : Quiet n sys) (event : Event)
    (hcalls : sys.acquireCalls < (sys.step options event).acquireCalls) :
    sys.releaseCalls = n ∧ sys.undoing = [] := by
  cases event with
  | decide alive now view =>
    have hcall : 0 < (sys.strategy.decide options alive now view).2.2.toList.length := by
      exact Nat.lt_add_right_iff_pos.1 hcalls
    refine ⟨h.releases.resolve_left fun hstopped => ?_, ?_⟩
    · rw [decide_of_stopped hstopped] at hcall
      cases hcall
    · have hphase : Phase (sys.strategy.decide options alive now view).1 _ _ _ :=
        h.sound.phase.decide
      refine hphase.undoing_nil fun hnil => ?_
      rw [(append_eq_nil_iff.1 hnil).2] at hcall
      cases hcall
  | acquired index result =>
    simp only [System.step, System.onAcquired] at hcalls
    split at hcalls <;> exact absurd hcalls (lt_irrefl _)
  | released index failed =>
    simp only [System.step, System.onReleased] at hcalls
    split at hcalls <;> exact absurd hcalls (lt_irrefl _)
  | shutdown => exact absurd hcalls (lt_irrefl _)

end System

end ActorTs.Cluster.Downing
