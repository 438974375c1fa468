import ActorTs.Mailbox.MailboxAccounts

/-!
# A mailbox call in parts

A mailbox that discards an envelope tells its observers of it while the call goes on, and an
observer may call the mailbox again. A call is taken apart here at the reports that it makes.
Without an observer the parts make up the call.

Envelopes are told apart by their identities, as the message in one may be exchanged.
-/

open Multiset Prod

namespace ActorTs.Mailbox

variable {T : Type}

/-- The identities of some envelopes, as often as they occur. -/
def tally (envelopes : List (Envelope T)) : Multiset ℕ := envelopes.map Envelope.identity

@[simp] lemma tally_nil : tally ([] : List (Envelope T)) = 0 := rfl

@[simp] lemma tally_cons (envelope : Envelope T) (envelopes : List (Envelope T)) :
    tally (envelope :: envelopes) = {envelope.identity} + tally envelopes := by
  rfl

@[simp] lemma tally_append (envelopes later : List (Envelope T)) :
    tally (envelopes ++ later) = tally envelopes + tally later := by
  rw [tally, List.map_append, ← coe_add]
  rfl

lemma tally_perm {envelopes later : List (Envelope T)} (h : envelopes.Perm later) :
    tally envelopes = tally later :=
  coe_eq_coe.2 (h.map _)

lemma tally_of_coe {envelopes later : List (Envelope T)}
    (h : (envelopes : Multiset (Envelope T)) = later) : tally envelopes = tally later :=
  tally_perm (coe_eq_coe.1 h)

/-- An arrival up to the report of the drop that it causes. -/
structure Arrival (T : Type) where
  refused : Option MailboxFullError := none
  mailbox : UserMailbox T
  drop : Option (DropReport T) := none
  /-- The envelope is pushed after the report. -/
  pushes : Bool := false

/-- What an arrival does to a queue with a bound before the report. -/
def arriveBounded (capacity : ℕ) (overflow : BoundedMailboxOverflow) (queue : List (Envelope T))
    (envelope : Envelope T) :
    Option MailboxFullError × List (Envelope T) × Option (DropReport T) × Bool :=
  if capacity ≤ queue.length then
    match overflow with
    | .dropHead =>
      (none, (removeOldest queue).2, (removeOldest queue).1.map (.dropHead, ·), true)
    | .dropNew => (none, queue, some (.dropNew, envelope), false)
    | .reject => (some ⟨capacity⟩, queue, none, false)
  else (none, queue, none, true)

lemma arriveBounded_refused {capacity : ℕ} {overflow : BoundedMailboxOverflow}
    {queue : List (Envelope T)} {envelope : Envelope T} {e : MailboxFullError}
    (h : (arriveBounded capacity overflow queue envelope).1 = some e) :
    arriveBounded capacity overflow queue envelope = (some e, queue, none, false) := by
  unfold arriveBounded at h ⊢
  split at h
  · next hfull =>
    rw [if_pos hfull]
    cases overflow with
    | reject => rw [← h]
    | dropHead => cases h
    | dropNew => cases h
  · cases h

lemma admitArrival_eq (capacity : ℕ) (overflow : BoundedMailboxOverflow)
    (queue : List (Envelope T)) (envelope : Envelope T) :
    admitArrival capacity overflow queue envelope =
      match arriveBounded capacity overflow queue envelope with
      | (some e, _) => .error e
      | (none, queue, drop, pushes) =>
        .ok { queue := if pushes then queue ++ [envelope] else queue, drops := drop.toList } := by
  unfold admitArrival arriveBounded
  split
  · cases overflow with
    | reject => rfl
    | dropNew => rfl
    | dropHead =>
      cases removeOldest queue with
      | mk dropped rest => cases dropped <;> rfl
  · rfl

namespace UserMailbox

/-- `enqueue`, as far as the report. -/
def arrive (envelope : Envelope T) : UserMailbox T → Arrival T
  | base m => { mailbox := base m, pushes := true }
  | bounded m =>
    let (refused, queue, drop, pushes) :=
      arriveBounded m.capacity m.overflow m.userQueue envelope
    { refused := refused
      mailbox := bounded { m with userQueue := queue }
      drop := drop
      pushes := pushes }
  | priority m =>
    match m.capacity with
    | some capacity =>
      if (capacity : ℕ) ≤ m.ordered.length then
        match m.overflow with
        | .dropLowestPriority =>
          let m := m.insert envelope
          { mailbox := priority { m with ordered := (removeLeastImportant m.ordered).2 }
            drop := (removeLeastImportant m.ordered).1.map fun shed =>
              (if shed.envelope.identity = envelope.identity then .dropNew else .dropHead,
                shed.envelope) }
        | .dropNew => { mailbox := priority m, drop := some (.dropNew, envelope) }
        | .reject => { refused := some ⟨capacity⟩, mailbox := priority m }
      else { mailbox := priority (m.insert envelope) }
    | none => { mailbox := priority (m.insert envelope) }
  | controlAware m =>
    match m.classesAsControl envelope.message with
    | (true, m) =>
      { mailbox := controlAware { m with controlQueue := m.controlQueue ++ [envelope] } }
    | (false, m) =>
      match m.capacity with
      | some capacity =>
        let (refused, queue, drop, pushes) :=
          arriveBounded capacity m.overflow m.userQueue envelope
        { refused := refused
          mailbox := controlAware { m with userQueue := queue }
          drop := drop
          pushes := pushes }
      | none => { mailbox := controlAware m, pushes := true }

/-- `reportDrop`, but for what the observers do. -/
def reportDrop (report : DropReport T) : UserMailbox T → UserMailbox T
  | base m => base m
  | bounded m => bounded { m with toDroppingMailbox := m.toDroppingMailbox.reportDrop report }
  | priority m => priority (m.reportDrop report)
  | controlAware m =>
    controlAware { m with toDroppingMailbox := m.toDroppingMailbox.reportDrop report }

/-- The push at the end of an arrival. -/
def push (envelope : Envelope T) : UserMailbox T → UserMailbox T
  | base m => base (m.enqueue envelope)
  | bounded m => bounded { m with userQueue := m.userQueue ++ [envelope] }
  | priority m => priority (m.insert envelope)
  | controlAware m => controlAware { m with userQueue := m.userQueue ++ [envelope] }

/-- The rest of an arrival, when no observer does anything. -/
def settleArrival (a : Arrival T) (envelope : Envelope T) : UserMailbox T :=
  let m := match a.drop with
    | some report => a.mailbox.reportDrop report
    | none => a.mailbox
  bif a.pushes then m.push envelope else m

variable (m : UserMailbox T) (envelope : Envelope T)

@[simp] lemma held_reportDrop (report : DropReport T) : (m.reportDrop report).held = m.held := by
  cases m <;> rfl

lemma tally_insert (m : PriorityMailbox T) (envelope : Envelope T) :
    tally (priority (m.insert envelope)).held = tally (priority m).held + {envelope.identity} := by
  have hheld := held_insert m envelope
  refine (tally_of_coe hheld).trans ?_
  rw [tally_append, tally_cons, tally_nil, add_zero]
  rfl

lemma tally_push : tally (m.push envelope).held = tally m.held + {envelope.identity} := by
  cases m with
  | base m => simp [push, held, BaseMailbox.enqueue]
  | bounded m => simp [push, held]
  | priority m => exact tally_insert m envelope
  | controlAware m => simp [push, held, add_assoc]

lemma tally_enqueueSignal :
    tally (m.enqueueSignal envelope).held = tally m.held + {envelope.identity} := by
  cases m with
  | base m => simp [enqueueSignal, held, BaseMailbox.enqueue]
  | bounded m => simp [enqueueSignal, held, BoundedMailbox.enqueueSignal]
  | priority m => exact tally_insert m envelope
  | controlAware m =>
    unfold enqueueSignal ControlAwareMailbox.enqueueSignal ControlAwareMailbox.classesAsControl
    dsimp only
    split
    · next m' hclass =>
      obtain rfl := (mk.inj hclass).2
      simp [held, add_comm]
    · next m' hclass =>
      obtain rfl := (mk.inj hclass).2
      simp [held, add_assoc]

/-- The envelopes that a report tells of. -/
def dropped (drop : Option (DropReport T)) : List (Envelope T) := (drop.map Prod.snd).toList

lemma tally_arriveBounded {capacity : ℕ} {overflow : BoundedMailboxOverflow}
    {queue : List (Envelope T)} {envelope : Envelope T}
    (h : (arriveBounded capacity overflow queue envelope).1 = none) :
    let a := arriveBounded capacity overflow queue envelope
    tally a.2.1 + tally (dropped a.2.2.1) + (if a.2.2.2 then {envelope.identity} else 0) =
      tally queue + {envelope.identity} := by
  unfold arriveBounded at h ⊢
  split
  · next hfull =>
    rw [if_pos hfull] at h
    cases overflow with
    | reject => cases h
    | dropNew => simp [dropped]
    | dropHead =>
      rcases hoverflow : removeOldest queue with ⟨_ | oldest, rest⟩
      · obtain ⟨rfl, -⟩ := takeFirst_none hoverflow
        simp [dropped]
      · obtain ⟨-, hperm⟩ := takeFirst_some hoverflow
        rw [tally_perm hperm]
        simp [dropped, add_comm]
  · simp [dropped]

lemma tally_arrive (h : (m.arrive envelope).refused = none) : let a := m.arrive envelope
    tally a.mailbox.held + tally (dropped a.drop) + (if a.pushes then {envelope.identity} else 0) =
      tally m.held + {envelope.identity} := by
  cases m with
  | base m => simp [arrive, dropped]
  | bounded m => exact tally_arriveBounded h
  | priority m =>
    unfold arrive at h ⊢
    dsimp only at h ⊢
    split
    · next capacity hcapacity =>
      rw [hcapacity] at h
      dsimp only at h
      split
      · next hfull =>
        rw [if_pos hfull] at h
        cases hoverflow : m.overflow with
        | reject =>
          rw [hoverflow] at h
          cases h
        | dropNew => simp [dropped]
        | dropLowestPriority =>
          have hinsert := tally_insert m envelope
          rw [← hinsert]
          dsimp only [held]
          rcases hshed : removeLeastImportant (m.insert envelope).ordered with
            ⟨_ | shed, rest⟩
          · rw [(takeLast_none hshed).1]
            simp [dropped]
          · obtain ⟨-, hperm⟩ := takeLast_some hshed
            rw [tally_perm (hperm.map _)]
            simp [dropped, add_comm]
      · simpa [dropped] using tally_insert m envelope
    · simpa [dropped] using tally_insert m envelope
  | controlAware m =>
    obtain ⟨dropping, isControl, limit, overflow, asked, controlQueue⟩ := m
    unfold arrive ControlAwareMailbox.classesAsControl at h ⊢
    dsimp only at h ⊢
    rcases hclass : decide (isControl asked envelope.message = .isTrue) with _ | _
    · rw [hclass] at h
      cases limit with
      | none => simp [held, dropped, add_assoc]
      | some capacity =>
        have hqueue := tally_arriveBounded h
        dsimp only [held] at hqueue ⊢
        rw [tally_append, tally_append, add_assoc (tally controlQueue) (tally dropping.userQueue),
          ← hqueue]
        simp only [add_assoc]
    · simp [held, dropped, add_comm]

lemma held_arrive_of_refused {e : MailboxFullError} (h : (m.arrive envelope).refused = some e) :
    (m.arrive envelope).mailbox.held = m.held := by
  cases m with
  | base m => rfl
  | bounded m =>
    have hsame := arriveBounded_refused h
    unfold arrive
    dsimp only [held]
    rw [hsame]
  | priority m =>
    obtain ⟨dropping, priorityFor, limit, overflow, sequence, ordered⟩ := m
    unfold arrive at h ⊢
    cases limit with
    | none => cases h
    | some capacity =>
      dsimp only at h ⊢
      split
      · next hfull =>
        rw [if_pos hfull] at h
        cases overflow with
        | reject => rfl
        | dropNew => cases h
        | dropLowestPriority => cases h
      · next hroom =>
        rw [if_neg hroom] at h
        cases h
  | controlAware m =>
    obtain ⟨dropping, isControl, limit, overflow, asked, controlQueue⟩ := m
    unfold arrive ControlAwareMailbox.classesAsControl at h ⊢
    dsimp only at h ⊢
    rcases hclass : decide (isControl asked envelope.message = .isTrue) with _ | _
    · rw [hclass] at h
      cases limit with
      | none => rfl
      | some capacity =>
        have hsame := arriveBounded_refused h
        dsimp only [held]
        rw [hsame]
    · rw [hclass] at h
      cases h

/-- What a bound is compared with. -/
def ordinarySize : UserMailbox T → ℕ
  | base m => m.userQueue.length
  | bounded m => m.userQueue.length
  | priority m => m.ordered.length
  | controlAware m => m.userQueue.length

/-- The newest envelope that may be dropped is taken out. -/
def removeNewest : UserMailbox T → Option (Envelope T) × UserMailbox T
  | base m =>
    ((Mailbox.removeNewest m.userQueue).1,
      base { m with userQueue := (Mailbox.removeNewest m.userQueue).2 })
  | bounded m =>
    ((Mailbox.removeNewest m.userQueue).1,
      bounded { m with userQueue := (Mailbox.removeNewest m.userQueue).2 })
  | priority m =>
    ((removeLeastImportant m.ordered).1.map PriorityEntry.envelope,
      priority { m with ordered := (removeLeastImportant m.ordered).2 })
  | controlAware m =>
    ((Mailbox.removeNewest m.userQueue).1,
      controlAware { m with userQueue := (Mailbox.removeNewest m.userQueue).2 })

/-- Envelopes go to the head of the queue. -/
def unshiftAll (envelopes : List (Envelope T)) : UserMailbox T → UserMailbox T
  | base m => base (m.prependUser envelopes)
  | bounded m => bounded { m with userQueue := envelopes ++ m.userQueue }
  | priority m => priority (envelopes.foldl PriorityMailbox.insert m)
  | controlAware m => controlAware { m with userQueue := envelopes ++ m.userQueue }

/-- The same for the queue of control messages. -/
def unshiftControl (envelopes : List (Envelope T)) : UserMailbox T → UserMailbox T
  | controlAware m => controlAware { m with controlQueue := envelopes ++ m.controlQueue }
  | m => m.unshiftAll envelopes

lemma tally_removeNewest :
    tally m.removeNewest.1.toList + tally m.removeNewest.2.held = tally m.held := by
  have hqueue : ∀ queue : List (Envelope T),
      tally (Mailbox.removeNewest queue).1.toList + tally (Mailbox.removeNewest queue).2 =
        tally queue := by
    intro queue
    rcases hnewest : Mailbox.removeNewest queue with ⟨_ | newest, rest⟩
    · rw [(takeLast_none hnewest).1]
      simp
    · obtain ⟨-, hperm⟩ := takeLast_some hnewest
      rw [tally_perm hperm]
      simp
  cases m with
  | base m => exact hqueue m.userQueue
  | bounded m => exact hqueue m.userQueue
  | priority m =>
    unfold removeNewest
    dsimp only [held]
    rcases hshed : removeLeastImportant m.ordered with ⟨_ | shed, rest⟩
    · rw [(takeLast_none hshed).1]
      simp
    · obtain ⟨-, hperm⟩ := takeLast_some hshed
      rw [tally_perm (hperm.map _)]
      simp
  | controlAware m =>
    dsimp only [removeNewest, held]
    rw [tally_append, tally_append, ← hqueue m.userQueue]
    exact add_left_comm _ _ _

lemma tally_unshiftAll (envelopes : List (Envelope T)) :
    tally (m.unshiftAll envelopes).held = tally envelopes + tally m.held := by
  cases m with
  | base m => simp [unshiftAll, held, BaseMailbox.prependUser]
  | bounded m => simp [unshiftAll, held]
  | priority m =>
    unfold unshiftAll
    dsimp only
    induction envelopes generalizing m with
    | nil => simp
    | cons envelope envelopes ih =>
      rw [List.foldl_cons, ih, tally_insert, tally_cons]
      ac_rfl
  | controlAware m =>
    simp only [unshiftAll, held, tally_append]
    ac_rfl

lemma tally_unshiftControl (envelopes : List (Envelope T)) :
    tally (m.unshiftControl envelopes).held = tally envelopes + tally m.held := by
  cases m with
  | controlAware m => simp [unshiftControl, held]
  | base m => exact tally_unshiftAll (base m) envelopes
  | bounded m => exact tally_unshiftAll (bounded m) envelopes
  | priority m => exact tally_unshiftAll (priority m) envelopes

end UserMailbox

end ActorTs.Mailbox
