import Mathlib.Algebra.Order.Group.Multiset
import ActorTs.Library.Machine
import ActorTs.Mailbox.UserMailbox

/-!
# What becomes of an envelope

Every envelope that a mailbox is handed is delivered, drained, still queued or reported
dropped, as often as it was handed in. What may not be dropped is not, unless it comes
through the ordinary door. The envelopes that the bound is about stay within it, but for
those that the exempt door lets in.
-/

open List Option Nat Prod

namespace ActorTs.Mailbox

open Envelope ControlAwareMailbox Machine DroppingMailbox

variable {T : Type}

/-! ### Taking out -/

section Take

variable {α : Type} {p : α → Bool} {l rest : List α} {a : α}

lemma takeFirst_some (h : takeFirst p l = (some a, rest)) : p a = true ∧ l.Perm (a :: rest) := by
  induction l generalizing rest with
  | nil => cases h
  | cons candidate l ih =>
    unfold takeFirst at h
    split at h
    · next hp =>
      obtain ⟨hcandidate, rfl⟩ := mk.inj h
      obtain rfl := some.inj hcandidate
      exact ⟨hp, List.Perm.refl _⟩
    · obtain ⟨hfound, rfl⟩ := mk.inj h
      obtain ⟨hp, hperm⟩ := ih (Prod.ext hfound rfl)
      exact ⟨hp, (hperm.cons candidate).trans (List.Perm.swap a candidate _)⟩

lemma takeFirst_none (h : takeFirst p l = (none, rest)) : rest = l ∧ l.countP p = 0 := by
  induction l generalizing rest with
  | nil => exact ⟨(congrArg Prod.snd h).symm, rfl⟩
  | cons candidate l ih =>
    unfold takeFirst at h
    split at h
    · cases h
    · next hp =>
      obtain ⟨hfound, rfl⟩ := mk.inj h
      obtain ⟨hrest, hcount⟩ := ih (Prod.ext hfound rfl)
      exact ⟨congrArg _ hrest, by rw [countP_cons_of_neg hp, hcount]⟩

lemma takeLast_some (h : takeLast p l = (some a, rest)) : p a = true ∧ l.Perm (a :: rest) := by
  obtain ⟨hfound, rfl⟩ := mk.inj h
  obtain ⟨hp, hperm⟩ := takeFirst_some (Prod.ext hfound rfl)
  exact ⟨hp, l.reverse_perm.symm.trans (hperm.trans ((reverse_perm _).symm.cons a))⟩

lemma takeLast_none (h : takeLast p l = (none, rest)) : rest = l ∧ l.countP p = 0 := by
  obtain ⟨hfound, rfl⟩ := mk.inj h
  obtain ⟨hrest, hcount⟩ := takeFirst_none (Prod.ext hfound rfl)
  exact ⟨(congrArg reverse hrest).trans (reverse_reverse l), by rw [← countP_reverse, hcount]⟩

end Take

lemma coe_of_perm {α : Type} {l rest : List α} {a : α} (h : l.Perm (a :: rest)) :
    (l : Multiset α) = {a} + rest := by
  rw [Multiset.coe_eq_coe.2 h, ← Multiset.cons_coe, Multiset.singleton_add]

/-! ### The bounded queue -/

/-- The envelopes of a list that may not be dropped. -/
def keepsakes (l : List (Envelope T)) : List (Envelope T) := l.filter (·.undroppable)

/-- What an admission does: no envelope is lost or doubled, those that are discarded may be,
and the bound is kept where it was. -/
structure Admits (capacity : ℕ) (queue envelopes exposed : List (Envelope T))
    (a : Admission T) : Prop where
  accounts : (a.admitted + a.queue + a.drops.map Prod.snd : Multiset (Envelope T)) =
    queue + envelopes
  shed : (keepsakes (a.drops.map Prod.snd)).Sublist (keepsakes exposed)
  bound : a.admitted.countP droppable + a.queue.countP droppable ≤
    max capacity (queue.countP droppable)

lemma countP_droppable_singleton_le (envelope : Envelope T) :
    [envelope].countP droppable ≤ 1 :=
  countP_le_length

variable {envelope : Envelope T}

lemma keepsakes_of_droppable (h : envelope.droppable = true) : keepsakes [envelope] = [] := by
  simpa [keepsakes, droppable] using h

lemma keepsakes_append {l kept : List (Envelope T)} (h : (keepsakes l).Sublist kept)
    (hdroppable : envelope.droppable = true) : (keepsakes (l ++ [envelope])).Sublist kept := by
  have hnone : [envelope].filter (·.undroppable) = [] := keepsakes_of_droppable hdroppable
  rw [keepsakes, filter_append, hnone, append_nil]
  exact h

variable {capacity : ℕ} {overflow : BoundedMailboxOverflow} {queue : List (Envelope T)}
  {a : Admission T}

lemma admitArrival_spec (hcapacity : 0 < capacity)
    (h : admitArrival capacity overflow queue envelope = .ok a) :
    Admits capacity queue [envelope] [envelope] a := by
  have hone := countP_droppable_singleton_le envelope
  unfold admitArrival at h
  split at h
  · cases overflow with
    | reject => cases h
    | dropNew =>
      obtain rfl := Except.ok.inj h
      exact ⟨by simp, List.Sublist.refl _, by simp⟩
    | dropHead =>
      dsimp only [removeOldest] at h
      split at h
      · next dropped rest heq =>
        obtain ⟨hdroppable, hperm⟩ := takeFirst_some heq
        obtain rfl := Except.ok.inj h
        refine ⟨?_, ?_, ?_⟩
        · rw [coe_of_perm hperm, ← Multiset.coe_add]
          abel
        · change (keepsakes [dropped]).Sublist _
          rw [keepsakes_of_droppable hdroppable]
          exact nil_sublist _
        · rw [hperm.countP_eq, countP_cons_of_pos hdroppable, countP_append]
          simp only [countP_nil]
          omega
      · next rest heq =>
        obtain ⟨rfl, hnone⟩ := takeFirst_none heq
        obtain rfl := Except.ok.inj h
        refine ⟨by simp [← Multiset.coe_add], nil_sublist _, ?_⟩
        rw [countP_append, hnone]
        simp only [countP_nil]
        omega
  · next hroom =>
    obtain rfl := Except.ok.inj h
    refine ⟨by simp [← Multiset.coe_add], nil_sublist _, ?_⟩
    have hqueue : queue.countP droppable ≤ queue.length := countP_le_length
    rw [countP_append]
    simp only [countP_nil]
    omega

variable {envelopes : List (Envelope T)}

lemma admitReplayed_spec (h : Admits capacity queue envelopes [] a) (envelope : Envelope T) :
    Admits capacity queue (envelopes ++ [envelope]) []
      (admitReplayed capacity overflow a envelope) := by
  have hone := countP_droppable_singleton_le envelope
  have hbound := h.bound
  unfold admitReplayed
  split
  · next hgoes =>
    refine ⟨?_, h.shed, ?_⟩
    · rw [← Multiset.coe_add, ← Multiset.coe_add, ← add_assoc, ← h.accounts]
      abel
    · have hadmitted : a.admitted.countP droppable ≤ a.admitted.length :=
        countP_le_length
      have hqueue : a.queue.countP droppable ≤ a.queue.length := countP_le_length
      rw [countP_append]
      rcases hgoes with hundroppable | hroom
      · have hzero : [envelope].countP droppable = 0 := by
          simp [droppable, hundroppable]
        dsimp only
        omega
      · dsimp only
        omega
  · next hfull =>
    have hdroppable : envelope.droppable = true := by
      rw [not_or] at hfull
      simpa [droppable] using hfull.1
    split
    · next evicted rest hevicted =>
      obtain ⟨hmay, hperm⟩ := takeLast_some hevicted
      refine ⟨?_, ?_, ?_⟩
      · have haccounts := h.accounts
        rw [coe_of_perm hperm] at haccounts
        rw [← Multiset.coe_add, ← Multiset.coe_add, ← add_assoc, ← haccounts,
          map_append, ← Multiset.coe_add]
        abel
      · rw [map_append]
        exact keepsakes_append h.shed hmay
      · rw [hperm.countP_eq, countP_cons_of_pos hmay] at hbound
        rw [countP_append]
        dsimp only
        omega
    · refine ⟨?_, ?_, hbound⟩
      · rw [← Multiset.coe_add, ← add_assoc, ← h.accounts, map_append, ← Multiset.coe_add]
        abel
      · rw [map_append]
        exact keepsakes_append h.shed hdroppable

lemma admitReplay_spec (h : admitReplay capacity overflow queue envelopes = .ok a) :
    Admits capacity queue envelopes [] a := by
  unfold admitReplay at h
  split at h
  · split at h
    · cases h
    · next hroom =>
      obtain rfl := Except.ok.inj h
      refine ⟨by simp [add_comm], List.Sublist.refl _, ?_⟩
      have hqueue : queue.countP droppable ≤ queue.length := countP_le_length
      dsimp only
      omega
  · obtain rfl := Except.ok.inj h
    have hfold : ∀ (later before : List (Envelope T)) (a : Admission T),
        Admits capacity queue before [] a →
        Admits capacity queue (before ++ later) []
          (later.foldl (admitReplayed capacity overflow) a) := by
      intro later
      induction later with
      | nil => exact fun before a ha => by rwa [append_nil]
      | cons envelope later ih =>
        intro before a ha
        rw [foldl_cons, ← singleton_append, ← append_assoc]
        exact ih _ _ (admitReplayed_spec ha envelope)
    exact hfold envelopes [] { queue := queue } ⟨by simp, List.Sublist.refl _, by simp⟩

/-! ### What a call does -/

lemma DroppingMailbox.reportDrops_spec (m : DroppingMailbox T) (reports : List (DropReport T)) :
    m.reportDrops reports = { m with
      droppedCount := m.droppedCount + reports.length
      dropReports := m.dropReports ++ reports } := by
  unfold reportDrops
  induction reports generalizing m with
  | nil => simp
  | cons report reports ih =>
    rw [foldl_cons, ih]
    simp [reportDrop, add_assoc, add_comm 1]

/-- What a mailbox does with envelopes that it is handed. Those that may not be dropped are
exposed where they come through the ordinary door; some may be exempt from the bound. -/
structure Handed (envelopes exposed : List (Envelope T)) (exempt : ℕ) (m m' : UserMailbox T) :
    Prop where
  capacity : m'.capacity = m.capacity
  drops : ∃ new, m'.dropReports = m.dropReports ++ new ∧
    m'.droppedCount = m.droppedCount + new.length ∧
    (m'.held + new.map Prod.snd : Multiset (Envelope T)) = m.held + envelopes ∧
    (keepsakes (new.map Prod.snd)).Sublist (keepsakes exposed)
  bound : ∀ capacity, m.capacity = some capacity →
    m'.underBound.length ≤ max (capacity : ℕ) m.underBound.length + exempt

/-- What a mailbox does when envelopes leave it. -/
structure Released (envelopes : List (Envelope T)) (m m' : UserMailbox T) : Prop where
  capacity : m'.capacity = m.capacity
  dropReports : m'.dropReports = m.dropReports
  droppedCount : m'.droppedCount = m.droppedCount
  held : m.held = envelopes ++ m'.held
  bound : m'.underBound.length ≤ m.underBound.length

lemma Handed.plain {m m' : UserMailbox T} {exposed : List (Envelope T)} {exempt : ℕ}
    (hcapacity : m'.capacity = m.capacity) (hreports : m'.dropReports = m.dropReports)
    (hcount : m'.droppedCount = m.droppedCount)
    (hheld : (m'.held : Multiset (Envelope T)) = m.held + envelopes)
    (hbound : ∀ capacity, m.capacity = some capacity →
      m'.underBound.length ≤ max (capacity : ℕ) m.underBound.length + exempt) :
    Handed envelopes exposed exempt m m' where
  capacity := hcapacity
  drops := ⟨[], by rw [hreports, append_nil], hcount, by simpa using hheld, nil_sublist _⟩
  bound := hbound

lemma Handed.trans {m m' m'' : UserMailbox T} {first second : List (Envelope T)}
    (h : Handed first [] 0 m m') (h' : Handed second [] 0 m' m'') :
    Handed (first ++ second) [] 0 m m'' := by
  obtain ⟨new, hreports, hcount, hheld, hshed⟩ := h.drops
  obtain ⟨new', hreports', hcount', hheld', hshed'⟩ := h'.drops
  refine ⟨h'.capacity.trans h.capacity, ⟨new ++ new', ?_, ?_, ?_, ?_⟩, fun c hc => ?_⟩
  · rw [hreports', hreports, append_assoc]
  · rw [hcount', hcount, length_append, add_assoc]
  · rw [map_append, ← Multiset.coe_add, ← Multiset.coe_add]
    calc _ = (↑m''.held + ↑(new'.map Prod.snd) + ↑(new.map Prod.snd) :
            Multiset (Envelope T)) := by abel
      _ = (↑m'.held + ↑(new.map Prod.snd) + ↑second : Multiset (Envelope T)) := by
            rw [hheld']
            abel
      _ = _ := by
            rw [hheld]
            abel
  · rw [map_append, keepsakes, filter_append]
    exact hshed.append hshed'
  · have hfirst := h.bound c hc
    have hsecond := h'.bound c (h.capacity.trans hc)
    omega

namespace UserMailbox

lemma length_underBound_bounded (m : BoundedMailbox T) :
    (bounded m).underBound.length = m.userQueue.countP droppable :=
  countP_eq_length_filter.symm

lemma length_underBound_controlAware (m : ControlAwareMailbox T) :
    (controlAware m).underBound.length = m.userQueue.countP droppable :=
  countP_eq_length_filter.symm

variable (m : PriorityMailbox T)

lemma length_underBound_priority :
    (priority m).underBound.length = (m.ordered.map PriorityEntry.envelope).countP droppable :=
  countP_eq_length_filter.symm

variable {envelopes exposed : List (Envelope T)}

lemma handed_settle_bounded {m : BoundedMailbox T} {a : Admission T}
    (h : Admits m.capacity m.userQueue envelopes exposed a) :
    Handed envelopes exposed 0 (bounded m) (bounded (m.settle a)) where
  capacity := rfl
  drops := by
    refine ⟨a.drops, ?_, ?_, ?_, h.shed⟩
    · change (m.settle a).dropReports = _
      rw [BoundedMailbox.settle, reportDrops_spec]
      rfl
    · change (m.settle a).droppedCount = _
      rw [BoundedMailbox.settle, reportDrops_spec]
      rfl
    · change ((m.settle a).userQueue + a.drops.map Prod.snd : Multiset (Envelope T)) = _
      rw [BoundedMailbox.settle, reportDrops_spec]
      exact h.accounts
  bound capacity hcapacity := by
    obtain rfl : m.capacity = capacity := some.inj hcapacity
    rw [length_underBound_bounded, length_underBound_bounded, BoundedMailbox.settle,
      reportDrops_spec]
    rw [countP_append]
    exact h.bound

lemma handed_enqueue_bounded {m m' : BoundedMailbox T} {envelope : Envelope T}
    (h : m.enqueue envelope = (none, m')) :
    Handed [envelope] [envelope] 0 (bounded m) (bounded m') := by
  unfold BoundedMailbox.enqueue at h
  split at h
  · next a ha =>
    obtain rfl := congrArg Prod.snd h
    exact handed_settle_bounded (admitArrival_spec m.capacity.pos ha)
  · cases h

lemma handed_prependUser_bounded {m m' : BoundedMailbox T}
    (h : m.prependUser envelopes = (none, m')) :
    Handed envelopes [] 0 (bounded m) (bounded m') := by
  unfold BoundedMailbox.prependUser at h
  split at h
  · next a ha =>
    obtain rfl := congrArg Prod.snd h
    exact handed_settle_bounded (admitReplay_spec ha)
  · cases h

lemma handed_settle_controlAware {m : ControlAwareMailbox T} (asked : ℕ)
    (control : List (Envelope T)) {ordinary : List (Envelope T)} {capacity : ℕ} {a : Admission T}
    (hcapacity : ∀ c, m.capacity = some c → (c : ℕ) = capacity)
    (h : Admits capacity m.userQueue ordinary exposed a) :
    Handed (control ++ ordinary) exposed 0 (controlAware m) (controlAware
        ({ m with asked := asked, controlQueue := control ++ m.controlQueue }.settle a)) where
  capacity := rfl
  drops := by
    refine ⟨a.drops, ?_, ?_, ?_, h.shed⟩
    · change (settle _ a).dropReports = _
      rw [settle, reportDrops_spec]
      rfl
    · change (settle _ a).droppedCount = _
      rw [settle, reportDrops_spec]
      rfl
    · have haccounts := h.accounts
      rw [settle, reportDrops_spec]
      change (↑(control ++ m.controlQueue ++ (a.admitted ++ a.queue)) + ↑(a.drops.map Prod.snd) :
          Multiset (Envelope T)) =
        ↑(m.controlQueue ++ m.userQueue) + ↑(control ++ ordinary)
      simp only [← Multiset.coe_add]
      calc _ = (↑control + ↑m.controlQueue : Multiset (Envelope T)) +
            (↑a.admitted + ↑a.queue + ↑(a.drops.map Prod.snd)) := by abel
        _ = (↑control + ↑m.controlQueue : Multiset (Envelope T)) +
            (↑m.userQueue + ↑ordinary) := by rw [haccounts]
        _ = _ := by abel
  bound c hc := by
    rw [length_underBound_controlAware, length_underBound_controlAware,
      settle, reportDrops_spec, hcapacity c hc]
    rw [countP_append]
    exact h.bound

lemma handed_push_control (m : ControlAwareMailbox T) (asked exempt : ℕ) (envelope : Envelope T)
    (exposed : List (Envelope T)) :
    Handed [envelope] exposed exempt (controlAware m)
      (controlAware { m with asked := asked, controlQueue := m.controlQueue ++ [envelope] }) := by
  refine Handed.plain rfl rfl rfl ?_ fun capacity _ => ?_
  · change (↑(m.controlQueue ++ [envelope] ++ m.userQueue) : Multiset (Envelope T)) =
      ↑(m.controlQueue ++ m.userQueue) + ↑[envelope]
    simp only [← Multiset.coe_add]
    abel
  · exact (le_max_right _ _).trans (le_add_right _ _)

lemma handed_enqueue_controlAware {m m' : ControlAwareMailbox T} {envelope : Envelope T}
    (h : m.enqueue envelope = (none, m')) :
    Handed [envelope] [envelope] 0 (controlAware m) (controlAware m') := by
  unfold ControlAwareMailbox.enqueue classesAsControl at h
  split at h
  · next asked hclass =>
    obtain rfl := (mk.inj hclass).2
    obtain rfl := congrArg Prod.snd h
    exact handed_push_control m _ 0 envelope _
  · next asked hclass =>
    obtain rfl := (mk.inj hclass).2
    split at h
    · next capacity hcapacity =>
      split at h
      · next a ha =>
        obtain rfl := congrArg Prod.snd h
        have hc : ∀ c, m.capacity = some c → (c : ℕ) = capacity := fun c hc => by
          obtain rfl : c = capacity := some.inj (hc.symm.trans hcapacity)
          rfl
        exact handed_settle_controlAware (m.asked + 1) [] hc (admitArrival_spec capacity.pos ha)
      · cases h
    · next hnone =>
      obtain rfl := congrArg Prod.snd h
      refine Handed.plain rfl rfl rfl ?_ fun capacity hcapacity => ?_
      · change (↑(m.controlQueue ++ (m.userQueue ++ [envelope])) : Multiset (Envelope T)) =
          ↑(m.controlQueue ++ m.userQueue) + ↑[envelope]
        simp only [← Multiset.coe_add]
        abel
      · exact (some_ne_none _ (hcapacity.symm.trans hnone)).elim

lemma handed_enqueueSignal_controlAware (m : ControlAwareMailbox T) (envelope : Envelope T) :
    Handed [envelope] [] ([envelope].countP droppable) (controlAware m)
      (controlAware (m.enqueueSignal envelope)) := by
  unfold ControlAwareMailbox.enqueueSignal classesAsControl
  split
  · next asked hclass =>
    obtain rfl := (mk.inj hclass).2
    exact handed_push_control m _ _ envelope _
  · next asked hclass =>
    obtain rfl := (mk.inj hclass).2
    refine Handed.plain rfl rfl rfl ?_ fun capacity _ => ?_
    · change (↑(m.controlQueue ++ (m.userQueue ++ [envelope])) : Multiset (Envelope T)) =
        ↑(m.controlQueue ++ m.userQueue) + ↑[envelope]
      simp only [← Multiset.coe_add]
      abel
    · rw [length_underBound_controlAware, length_underBound_controlAware, countP_append]
      exact Nat.add_le_add_right (le_max_right _ _) _

lemma classify_spec (m : ControlAwareMailbox T) (envelopes : List (Envelope T)) :
    ((m.classify envelopes).1 + (m.classify envelopes).2.1 : Multiset (Envelope T)) = envelopes ∧
      ∃ asked, (m.classify envelopes).2.2 = { m with asked := asked } := by
  induction envelopes generalizing m with
  | nil => exact ⟨rfl, m.asked, rfl⟩
  | cons envelope envelopes ih =>
    unfold classify classesAsControl
    split
    · next asked hclass =>
      obtain rfl := (mk.inj hclass).2
      obtain ⟨hboth, asked, hasked⟩ := ih { m with asked := m.asked + 1 }
      refine ⟨?_, asked, by rw [hasked]⟩
      rw [← Multiset.cons_coe, ← Multiset.cons_coe, Multiset.cons_add, hboth]
    · next asked hclass =>
      obtain rfl := (mk.inj hclass).2
      obtain ⟨hboth, asked, hasked⟩ := ih { m with asked := m.asked + 1 }
      refine ⟨?_, asked, by rw [hasked]⟩
      rw [← Multiset.cons_coe, ← Multiset.cons_coe, Multiset.add_cons, hboth]

lemma handed_prependUser_controlAware {m m' : ControlAwareMailbox T}
    (h : m.prependUser envelopes = (none, m')) :
    Handed envelopes [] 0 (controlAware m) (controlAware m') := by
  obtain ⟨hboth, asked, hasked⟩ := classify_spec m envelopes
  unfold ControlAwareMailbox.prependUser at h
  generalize m.classify envelopes = batch at h hboth hasked
  obtain ⟨control, ordinary, classified⟩ := batch
  dsimp only at h hboth hasked
  subst hasked
  have hbatch : ∀ m' : UserMailbox T, Handed (control ++ ordinary) [] 0 (controlAware m) m' →
      Handed envelopes [] 0 (controlAware m) m' := by
    intro m' hm'
    obtain ⟨new, hreports, hcount, hheld, hshed⟩ := hm'.drops
    refine ⟨hm'.capacity, ⟨new, hreports, hcount, ?_, hshed⟩, hm'.bound⟩
    rw [hheld, ← Multiset.coe_add, hboth]
  refine hbatch _ ?_
  cases hcapacity : m.capacity with
  | none =>
    have hadmitted : ({ m with asked := asked } : ControlAwareMailbox T).admitOrdinaryReplay
        ordinary = .ok { admitted := ordinary, queue := m.userQueue } := by
      unfold admitOrdinaryReplay
      rw [hcapacity]
    rw [hadmitted] at h
    obtain rfl := congrArg Prod.snd h
    refine Handed.plain rfl rfl rfl ?_ fun capacity hc => ?_
    · change (↑(control ++ m.controlQueue ++ (ordinary ++ m.userQueue)) :
        Multiset (Envelope T)) = ↑(m.controlQueue ++ m.userQueue) + ↑(control ++ ordinary)
      simp only [← Multiset.coe_add]
      abel
    · exact (some_ne_none _ (hc.symm.trans hcapacity)).elim
  | some capacity =>
    have hadmitted : ({ m with asked := asked } : ControlAwareMailbox T).admitOrdinaryReplay
        ordinary = admitReplay capacity m.overflow m.userQueue ordinary := by
      unfold admitOrdinaryReplay
      rw [hcapacity]
    rw [hadmitted] at h
    split at h
    · next a ha =>
      obtain rfl := congrArg Prod.snd h
      refine handed_settle_controlAware (m := m) asked control (fun c hc => ?_)
        (admitReplay_spec ha)
      obtain rfl : c = capacity := some.inj (hc.symm.trans hcapacity)
      rfl
    · cases h

lemma held_insert (envelope : Envelope T) :
    ((m.insert envelope).ordered.map PriorityEntry.envelope : Multiset (Envelope T)) =
      m.ordered.map PriorityEntry.envelope + [envelope] := by
  have hsplit : ∀ (l : List (PriorityEntry T)) (entry : PriorityEntry T) (low : ℕ),
      entry.envelope = envelope →
      ((l.take low ++ entry :: l.drop low).map PriorityEntry.envelope : Multiset (Envelope T)) =
        l.map PriorityEntry.envelope + [envelope] := by
    intro l entry low hentry
    have hparts := congrArg (List.map PriorityEntry.envelope) (take_append_drop low l)
    rw [← hparts, map_append, map_cons, hentry, map_append, ← Multiset.coe_add,
      ← Multiset.coe_add, ← Multiset.cons_coe, ← Multiset.singleton_add, Multiset.coe_singleton]
    abel
  exact hsplit _ _ _ rfl

lemma countP_insert (envelope : Envelope T) :
    ((m.insert envelope).ordered.map PriorityEntry.envelope).countP droppable =
      (m.ordered.map PriorityEntry.envelope).countP droppable + [envelope].countP droppable := by
  have hperm := held_insert m envelope
  rw [Multiset.coe_add, Multiset.coe_eq_coe] at hperm
  rw [hperm.countP_eq, countP_append]

lemma handed_insert (envelope : Envelope T) (exposed : List (Envelope T)) :
    Handed [envelope] exposed ([envelope].countP droppable) (priority m)
      (priority (m.insert envelope)) := by
  refine Handed.plain rfl rfl rfl (held_insert m envelope) fun capacity _ => ?_
  rw [length_underBound_priority, length_underBound_priority, countP_insert]
  exact Nat.add_le_add_right (le_max_right _ _) _

lemma handed_shedLeastImportant (envelope : Envelope T) :
    Handed [envelope] [envelope] 0 (priority m) (priority (m.shedLeastImportant envelope)) := by
  have hone := countP_droppable_singleton_le envelope
  have hheld := held_insert m envelope
  have hcount := countP_insert m envelope
  unfold PriorityMailbox.shedLeastImportant
  dsimp only
  split
  · next shed rest hshed =>
    obtain ⟨hmay, hperm⟩ := takeLast_some hshed
    have hleft := hperm.map PriorityEntry.envelope
    rw [map_cons] at hleft
    refine ⟨rfl, ⟨[(if shed.envelope.identity = envelope.identity then .dropNew else .dropHead,
      shed.envelope)], rfl, rfl, ?_, ?_⟩, fun capacity _ => ?_⟩
    · change (↑(rest.map PriorityEntry.envelope) + ↑[shed.envelope] : Multiset (Envelope T)) =
        ↑(m.ordered.map PriorityEntry.envelope) + ↑[envelope]
      rw [← hheld, coe_of_perm hleft, Multiset.coe_singleton]
      abel
    · change (keepsakes [shed.envelope]).Sublist _
      rw [keepsakes_of_droppable hmay]
      exact nil_sublist _
    · rw [length_underBound_priority, length_underBound_priority]
      rw [hleft.countP_eq, countP_cons_of_pos hmay] at hcount
      change (rest.map PriorityEntry.envelope).countP _ ≤ _
      omega
  · next rest hnone =>
    obtain ⟨rfl, hzero⟩ := takeLast_none hnone
    refine Handed.plain rfl rfl rfl hheld fun capacity _ => ?_
    rw [length_underBound_priority, length_underBound_priority]
    have hzero : ((m.insert envelope).ordered.map PriorityEntry.envelope).countP droppable = 0 := by
      rw [countP_map]
      exact hzero
    exact hzero.le.trans (zero_le _)

lemma handed_enqueue_priority {m m' : PriorityMailbox T} {envelope : Envelope T}
    (h : m.enqueue envelope = (none, m')) :
    Handed [envelope] [envelope] 0 (priority m) (priority m') := by
  have hone := countP_droppable_singleton_le envelope
  unfold PriorityMailbox.enqueue at h
  split at h
  · next capacity hcapacity =>
    split at h
    · cases hoverflow : m.overflow with
      | dropLowestPriority =>
        rw [hoverflow] at h
        obtain rfl := congrArg Prod.snd h
        exact handed_shedLeastImportant m envelope
      | dropNew =>
        rw [hoverflow] at h
        obtain rfl := congrArg Prod.snd h
        exact ⟨rfl, ⟨[(.dropNew, envelope)], rfl, rfl, rfl, List.Sublist.refl _⟩,
          fun c _ => le_max_right _ _⟩
      | reject =>
        rw [hoverflow] at h
        cases h
    · next hroom =>
      obtain rfl := congrArg Prod.snd h
      obtain ⟨hsame, hdrops, -⟩ := handed_insert m envelope [envelope]
      refine ⟨hsame, hdrops, fun c hc => ?_⟩
      obtain rfl : c = capacity := some.inj (hc.symm.trans hcapacity)
      have hqueue : (m.ordered.map PriorityEntry.envelope).countP droppable ≤
          m.ordered.length := countP_le_length.trans (by rw [length_map])
      rw [length_underBound_priority, length_underBound_priority, countP_insert]
      omega
  · next hnone =>
    obtain rfl := congrArg Prod.snd h
    obtain ⟨hsame, hdrops, -⟩ := handed_insert m envelope [envelope]
    exact ⟨hsame, hdrops, fun c hc => (some_ne_none _ (hc.symm.trans hnone)).elim⟩

lemma handed_prependUser_priority {m m' : PriorityMailbox T}
    (h : m.prependUser envelopes = (none, m')) :
    Handed envelopes [] 0 (priority m) (priority m') := by
  induction envelopes generalizing m with
  | nil =>
    obtain rfl : m = m' := congrArg Prod.snd h
    exact Handed.plain rfl rfl rfl (by simp) fun c _ => le_max_right _ _
  | cons envelope envelopes ih =>
    unfold PriorityMailbox.prependUser at h
    split at h
    · next hundroppable =>
      have hzero : [envelope].countP droppable = 0 := by
        simp [droppable, hundroppable]
      have hsignal := handed_insert m envelope []
      rw [hzero] at hsignal
      exact hsignal.trans (ih h)
    · next hdroppable =>
      split at h
      · next m₁ henqueue =>
        obtain ⟨hcapacity, ⟨new, hreports, hcount, hheld, hshed⟩, hbound⟩ :=
          handed_enqueue_priority henqueue
        have hmay : envelope.droppable = true := by simpa [droppable] using hdroppable
        rw [keepsakes_of_droppable hmay] at hshed
        exact Handed.trans ⟨hcapacity, ⟨new, hreports, hcount, hheld, hshed⟩, hbound⟩ (ih h)
      · cases h

/-! ### Any mailbox -/

variable {m' : UserMailbox T}

lemma handed_enqueue {m : UserMailbox T} {envelope : Envelope T}
    (h : m.enqueue envelope = (none, m')) : Handed [envelope] [envelope] 0 m m' := by
  cases m with
  | base m =>
    obtain rfl := congrArg Prod.snd h
    exact Handed.plain rfl rfl rfl (by rw [Multiset.coe_add]; rfl) fun c hc => (by cases hc)
  | bounded m =>
    have hnone : (m.enqueue envelope).1 = none := Prod.ext_iff.1 h |>.1
    obtain rfl := congrArg Prod.snd h
    exact handed_enqueue_bounded (Prod.ext hnone rfl)
  | priority m =>
    have hnone : (m.enqueue envelope).1 = none := Prod.ext_iff.1 h |>.1
    obtain rfl := congrArg Prod.snd h
    exact handed_enqueue_priority (Prod.ext hnone rfl)
  | controlAware m =>
    have hnone : (m.enqueue envelope).1 = none := Prod.ext_iff.1 h |>.1
    obtain rfl := congrArg Prod.snd h
    exact handed_enqueue_controlAware (Prod.ext hnone rfl)

lemma handed_prependUser {m : UserMailbox T} (h : m.prependUser envelopes = (none, m')) :
    Handed envelopes [] 0 m m' := by
  cases m with
  | base m =>
    obtain rfl := congrArg Prod.snd h
    refine Handed.plain rfl rfl rfl ?_ fun c hc => (by cases hc)
    change (↑(envelopes ++ m.userQueue) : Multiset (Envelope T)) = _
    rw [← Multiset.coe_add, add_comm]
    rfl
  | bounded m =>
    have hnone : (m.prependUser envelopes).1 = none := Prod.ext_iff.1 h |>.1
    obtain rfl := congrArg Prod.snd h
    exact handed_prependUser_bounded (Prod.ext hnone rfl)
  | priority m =>
    have hnone : (m.prependUser envelopes).1 = none := Prod.ext_iff.1 h |>.1
    obtain rfl := congrArg Prod.snd h
    exact handed_prependUser_priority (Prod.ext hnone rfl)
  | controlAware m =>
    have hnone : (m.prependUser envelopes).1 = none := Prod.ext_iff.1 h |>.1
    obtain rfl := congrArg Prod.snd h
    exact handed_prependUser_controlAware (Prod.ext hnone rfl)

lemma handed_enqueueSignal (m : UserMailbox T) (envelope : Envelope T) :
    Handed [envelope] [] ([envelope].countP droppable) m (m.enqueueSignal envelope) := by
  cases m with
  | base m =>
    exact Handed.plain rfl rfl rfl (by rw [Multiset.coe_add]; rfl) fun c hc => (by cases hc)
  | bounded m =>
    refine Handed.plain rfl rfl rfl (by rw [Multiset.coe_add]; rfl) fun c _ => ?_
    rw [enqueueSignal, length_underBound_bounded, length_underBound_bounded,
      BoundedMailbox.enqueueSignal, countP_append]
    exact Nat.add_le_add_right (le_max_right _ _) _
  | priority m => exact handed_insert m envelope []
  | controlAware m => exact handed_enqueueSignal_controlAware m envelope

lemma released_dequeueUser (m : UserMailbox T) :
    Released m.dequeueUser.1.toList m m.dequeueUser.2 := by
  have hqueue : ∀ queue : List (Envelope T), queue = queue.head?.toList ++ queue.tail := by
    intro queue
    cases queue <;> rfl
  have htail : ∀ queue : List (Envelope T),
      (queue.tail.filter droppable).length ≤ (queue.filter droppable).length :=
    fun queue => ((tail_sublist queue).filter _).length_le
  cases m with
  | base m =>
    unfold dequeueUser BaseMailbox.dequeueUser
    dsimp only
    split
    · exact ⟨rfl, rfl, rfl, rfl, le_rfl⟩
    · exact ⟨rfl, rfl, rfl, hqueue m.userQueue, le_rfl⟩
  | bounded m =>
    unfold dequeueUser BaseMailbox.dequeueUser
    dsimp only
    split
    · exact ⟨rfl, rfl, rfl, rfl, le_rfl⟩
    · exact ⟨rfl, rfl, rfl, hqueue m.userQueue, htail m.userQueue⟩
  | priority m =>
    unfold dequeueUser PriorityMailbox.dequeueUser
    dsimp only
    split
    · exact ⟨rfl, rfl, rfl, rfl, le_rfl⟩
    · refine ⟨rfl, rfl, rfl, ?_, ?_⟩
      · change m.ordered.map PriorityEntry.envelope = _ ++ m.ordered.tail.map _
        rw [map_tail, ← head?_map]
        exact hqueue _
      · change (filter _ (m.ordered.tail.map _)).length ≤ _
        rw [map_tail]
        exact htail _
  | controlAware m =>
    unfold dequeueUser ControlAwareMailbox.dequeueUser
    dsimp only
    split
    · exact ⟨rfl, rfl, rfl, rfl, le_rfl⟩
    · split
      · next envelope controlQueue hcontrol =>
        refine ⟨rfl, rfl, rfl, ?_, le_rfl⟩
        change m.controlQueue ++ m.userQueue = [envelope] ++ (controlQueue ++ m.userQueue)
        rw [hcontrol]
        rfl
      · next hcontrol =>
        refine ⟨rfl, rfl, rfl, ?_, htail m.userQueue⟩
        change m.controlQueue ++ m.userQueue = _ ++ (m.controlQueue ++ m.userQueue.tail)
        rw [hcontrol]
        exact hqueue m.userQueue

lemma released_drainUser (m : UserMailbox T) :
    Released m.drainUser.1 m m.drainUser.2 ∧ m.drainUser.2.held = [] := by
  cases m with
  | base m => exact ⟨⟨rfl, rfl, rfl, (append_nil _).symm, le_rfl⟩, rfl⟩
  | bounded m => exact ⟨⟨rfl, rfl, rfl, (append_nil _).symm, zero_le _⟩, rfl⟩
  | priority m => exact ⟨⟨rfl, rfl, rfl, (append_nil _).symm, zero_le _⟩, rfl⟩
  | controlAware m => exact ⟨⟨rfl, rfl, rfl, (append_nil _).symm, zero_le _⟩, rfl⟩

lemma released_setSuspended (m : UserMailbox T) (suspended : Bool) :
    Released [] m (m.setSuspended suspended) := by
  cases m <;> exact ⟨rfl, rfl, rfl, rfl, le_rfl⟩

/-! ### Runs -/

/-- A call of a mailbox. -/
inductive Call (T : Type) where
  | enqueue (envelope : Envelope T)
  | enqueueSignal (envelope : Envelope T)
  | prependUser (envelopes : List (Envelope T))
  | dequeueUser
  | suspend
  | resume
  | drainUser

def call (m : UserMailbox T) : Call T → UserMailbox T
  | .enqueue envelope => (m.enqueue envelope).2
  | .enqueueSignal envelope => m.enqueueSignal envelope
  | .prependUser envelopes => (m.prependUser envelopes).2
  | .dequeueUser => m.dequeueUser.2
  | .suspend => m.setSuspended true
  | .resume => m.setSuspended false
  | .drainUser => m.drainUser.2

def thrown (m : UserMailbox T) : Call T → Option MailboxFullError
  | .enqueue envelope => (m.enqueue envelope).1
  | .prependUser envelopes => (m.prependUser envelopes).1
  | _ => none

/-- Where an envelope goes in, and where it goes out. -/
inductive Gate where
  | enqueue | enqueueSignal | prependUser | delivered | drained
  deriving DecidableEq

def Gate.isDoor : Gate → Bool
  | .enqueue | .enqueueSignal | .prependUser => true
  | .delivered | .drained => false

/-- The envelopes that pass a gate in a call. -/
def passages (m : UserMailbox T) : Call T → List (Gate × Envelope T)
  | .enqueue envelope => [(.enqueue, envelope)]
  | .enqueueSignal envelope => [(.enqueueSignal, envelope)]
  | .prependUser envelopes => envelopes.map (.prependUser, ·)
  | .dequeueUser => m.dequeueUser.1.toList.map (.delivered, ·)
  | .drainUser => m.drainUser.1.map (.drained, ·)
  | .suspend | .resume => []

/-- The envelopes that passed a gate of one kind. -/
def through (kind : Gate → Bool) (past : List (Gate × Envelope T)) : List (Envelope T) :=
  (past.filter fun passage => kind passage.1).map Prod.snd

lemma through_append (kind : Gate → Bool) (past new : List (Gate × Envelope T)) :
    through kind (past ++ new) = through kind past ++ through kind new := by
  rw [through, filter_append, map_append]
  rfl

lemma through_map (kind : Gate → Bool) (gate : Gate) (envelopes : List (Envelope T)) :
    through kind (envelopes.map (gate, ·)) = if kind gate then envelopes else [] := by
  unfold through
  rw [List.filter_map, List.map_map]
  split
  · next h => simp [Function.comp_def, h]
  · next h => simp [Function.comp_def, h]

/-- The accounts of a mailbox: what came in is out, queued or dropped, each drop is counted,
what may not be dropped came through the ordinary door where it was, and the bound is
exceeded by what came through the exempt one at most. -/
structure Accounted (limit : Option ℕ+) (past : List (Gate × Envelope T))
    (m : UserMailbox T) : Prop where
  capacity : m.capacity = limit
  accounts : (through Gate.isDoor past : Multiset (Envelope T)) =
    through (fun gate => !gate.isDoor) past + m.held + m.dropReports.map Prod.snd
  count : m.droppedCount = m.dropReports.length
  shed : (keepsakes (m.dropReports.map Prod.snd)).Sublist
    (keepsakes (through (· = .enqueue) past))
  bound : ∀ c, limit = some c → m.underBound.length ≤
    c + (through (· = .enqueueSignal) past).countP droppable

variable {limit : Option ℕ+} {past : List (Gate × Envelope T)}

lemma Accounted.handed {m : UserMailbox T} (h : Accounted limit past m) (gate : Gate)
    (hgate : gate.isDoor = true) {exempt : ℕ} (hhanded : Handed envelopes exposed exempt m m')
    (hexposed : exposed = if gate = .enqueue then envelopes else [])
    (hexempt : exempt = if gate = .enqueueSignal then envelopes.countP droppable else 0) :
    Accounted limit (past ++ envelopes.map (gate, ·)) m' := by
  obtain ⟨new, hreports, hcount, hheld, hshed⟩ := hhanded.drops
  refine ⟨hhanded.capacity.trans h.capacity, ?_, ?_, ?_, fun c hc => ?_⟩
  · rw [through_append, through_append, through_map, through_map, if_pos hgate,
      if_neg (by simp [hgate]), append_nil, hreports, map_append, ← Multiset.coe_add,
      ← Multiset.coe_add, h.accounts]
    calc _ = (↑(through (fun gate => !gate.isDoor) past) + ↑(m.dropReports.map Prod.snd) +
            (↑m.held + ↑envelopes) : Multiset (Envelope T)) := by abel
      _ = _ := by
            rw [← hheld]
            abel
  · rw [hcount, hreports, h.count, length_append]
  · rw [hreports, map_append, keepsakes, filter_append, through_append, keepsakes,
      filter_append, through_map]
    refine h.shed.append ?_
    rw [hexposed] at hshed
    simpa [keepsakes] using hshed
  · have hbefore := h.bound c hc
    have hafter := hhanded.bound c (h.capacity.trans hc)
    rw [through_append, countP_append, through_map]
    have hmore : exempt = countP droppable
        (if decide (gate = .enqueueSignal) = true then envelopes else []) := by
      rw [hexempt]
      by_cases hsignal : gate = .enqueueSignal <;> simp [hsignal]
    omega

lemma Accounted.released {m : UserMailbox T} (h : Accounted limit past m) (gate : Gate)
    (hgate : gate.isDoor = false) (hreleased : Released envelopes m m') :
    Accounted limit (past ++ envelopes.map (gate, ·)) m' := by
  have hdoor : ∀ door : Gate, door.isDoor = true → ¬ gate = door := by
    rintro door hd rfl
    rw [hgate] at hd
    cases hd
  refine ⟨hreleased.capacity.trans h.capacity, ?_, ?_, ?_, fun c hc => ?_⟩
  · rw [through_append, through_append, through_map, through_map, if_neg (by simp [hgate]),
      if_pos (by simp [hgate]), append_nil, hreleased.dropReports, h.accounts,
      hreleased.held, ← Multiset.coe_add, ← Multiset.coe_add]
    abel
  · rw [hreleased.droppedCount, hreleased.dropReports, h.count]
  · rw [hreleased.dropReports, through_append, through_map,
      if_neg (by simpa using hdoor .enqueue rfl), append_nil]
    exact h.shed
  · rw [through_append, through_map, if_neg (by simpa using hdoor .enqueueSignal rfl), append_nil]
    exact hreleased.bound.trans (h.bound c hc)

lemma Accounted.call {m : UserMailbox T} {call : Call T} (hthrown : m.thrown call = none)
    (h : Accounted limit past m) : Accounted limit (past ++ m.passages call) (m.call call) := by
  cases call with
  | enqueue envelope =>
    exact h.handed .enqueue rfl (handed_enqueue (Prod.ext hthrown rfl)) rfl rfl
  | enqueueSignal envelope =>
    exact h.handed .enqueueSignal rfl (handed_enqueueSignal m envelope) rfl rfl
  | prependUser envelopes =>
    exact h.handed .prependUser rfl (handed_prependUser (Prod.ext hthrown rfl)) rfl rfl
  | dequeueUser => exact h.released .delivered rfl (released_dequeueUser m)
  | suspend => exact h.released .delivered rfl (released_setSuspended m true)
  | resume => exact h.released .delivered rfl (released_setSuspended m false)
  | drainUser => exact h.released .drained rfl (released_drainUser m).1

lemma Accounted.init (options : MailboxOptions T) :
    Accounted options.mailbox.capacity [] options.mailbox := by
  cases options <;> exact ⟨rfl, rfl, rfl, List.Sublist.refl _, fun _ _ => zero_le _⟩

/-- In a run of calls that do not throw, every envelope that was handed in was delivered or drained,
or is queued or reported dropped, as often as it was handed in. One that may not be dropped and was
came through `enqueue`. The bound holds, but for what came through the exempt door and may be
dropped. -/
theorem every_envelope_accounted (options : MailboxOptions T) (calls : List (Call T))
    (hcalls : Machine.Along call (fun m call => m.thrown call = none) options.mailbox calls) :
    let m := run call options.mailbox calls
    let past := log call passages options.mailbox calls
    (through Gate.isDoor past).Perm
        (through (fun gate => !gate.isDoor) past ++ m.held ++ m.dropReports.map Prod.snd) ∧
      m.droppedCount = m.dropReports.length ∧
      (keepsakes (m.dropReports.map Prod.snd)).Sublist (keepsakes (through (· = .enqueue) past)) ∧
      ∀ capacity, options.mailbox.capacity = some capacity →
        m.underBound.length ≤ capacity + (through (· = .enqueueSignal) past).countP droppable := by
  intro m past
  have h : Accounted options.mailbox.capacity ([] ++ past) m :=
    invariant_log (fun _ _ _ hthrown h => h.call hthrown) hcalls (.init options)
  refine ⟨?_, h.count, h.shed, h.bound⟩
  have haccounts := h.accounts
  rwa [Multiset.coe_add, Multiset.coe_add, Multiset.coe_eq_coe] at haccounts

/-! ### Through the exempt door -/

/-- Two envelopes that may be dropped come through the exempt door of a mailbox with room for
one, and two through the ordinary door behind them. -/
def exemptAndOrdinary : List (Call Unit) :=
  [.enqueueSignal ⟨1, (), false⟩, .enqueueSignal ⟨2, (), false⟩, .enqueue ⟨3, (), false⟩,
    .enqueue ⟨4, (), false⟩]

theorem every_envelope_accounted_bounded :
    (run call (MailboxOptions.bounded 1 .dropHead).mailbox
      exemptAndOrdinary).underBound.length ≤ 3 := by
  refine (every_envelope_accounted (.bounded 1 .dropHead) exemptAndOrdinary ?_).2.2.2 1 rfl
  exact ⟨rfl, rfl, rfl, rfl, trivial⟩

/-- Each arrival at the ordinary door evicts one of those two, and the bound is exceeded. -/
theorem not_within_capacity :
    ¬ ∀ (options : MailboxOptions Unit) (calls : List (Call Unit)),
      Machine.Along call (fun m call => m.thrown call = none) options.mailbox calls →
      ∀ capacity, options.mailbox.capacity = some capacity →
        (run call options.mailbox calls).underBound.length ≤ capacity := by
  intro h
  have hle := h (.bounded 1 .dropHead) exemptAndOrdinary ⟨rfl, rfl, rfl, rfl, trivial⟩ 1 rfl
  exact absurd hle (by decide)

end UserMailbox

end ActorTs.Mailbox
