import ActorTs.Actor.UserLane

/-!
# Every user message has one fate

The messages that were posted are, as often as they were posted, those that have a fate, the one
that the behaviour has, and those in the mailbox and in the stash. A callback that runs while a call
has envelopes in its hands leaves those alone.
-/

open List Option Bool

namespace ActorTs.Actor

open ActorTs.Mailbox UserMailbox Envelope

namespace UserLane

variable {T : Type} {config : LaneConfig T}

def accounted (s : UserLane T) : Multiset ℕ :=
  tally (s.fates.map Prod.snd) + tally s.currentEnvelope.toList + tally s.mailbox.held +
    tally s.stash

/-- What was posted is accounted for, but for the envelopes that a call has in its hands. -/
def Balanced (inHand : Multiset ℕ) (s : UserLane T) : Prop :=
  tally s.posted = s.accounted + inHand

/-- The fates of which a dead letter is made. -/
def makesLetter (config : LaneConfig T) : Fate → Bool
  | .deadLettered => true
  | .dropped => config.deadLetterDrops
  | _ => false

/-- The dead letters that are published are those that are made, in order, but for those that
are dead letters themselves. -/
def Publishes (config : LaneConfig T) (s : UserLane T) : Prop :=
  s.published = ((s.fates.filter fun fate => makesLetter config fate.1).map Prod.snd).filter
    fun envelope => !config.isDeadLetter envelope.message

/-- A part of a call, by what it has in its hands before and after. -/
structure Moves (config : LaneConfig T) (before after : Multiset ℕ) (s s' : UserLane T) :
    Prop where
  balance : ∀ extra, Balanced (extra + before) s → Balanced (extra + after) s'
  publishes : Publishes config s → Publishes config s'
  state : s'.state = s.state
  stash : s'.stash = s.stash
  current : s'.currentEnvelope = s.currentEnvelope

namespace Moves

variable {before after later : Multiset ℕ} {s s' s'' : UserLane T}

lemma refl (inHand : Multiset ℕ) (s : UserLane T) : Moves config inHand inHand s s :=
  ⟨fun _ h => h, fun h => h, rfl, rfl, rfl⟩

lemma trans (h : Moves config before after s s') (h' : Moves config after later s' s'') :
    Moves config before later s s'' :=
  ⟨fun extra hs => h'.balance extra (h.balance extra hs), fun hs => h'.publishes (h.publishes hs),
    h'.state.trans h.state, h'.stash.trans h.stash, h'.current.trans h.current⟩

lemma frame (h : Moves config before after s s') (rest : Multiset ℕ) :
    Moves config (rest + before) (rest + after) s s' := by
  refine ⟨fun extra hs => ?_, h.publishes, h.state, h.stash, h.current⟩
  rw [← add_assoc] at hs ⊢
  exact h.balance _ hs

lemma ofMailbox {m : UserMailbox T} (h : tally m.held + after = tally s.mailbox.held + before) :
    Moves config before after s { s with mailbox := m } := by
  refine ⟨fun extra hs => ?_, fun hs => hs, rfl, rfl, rfl⟩
  unfold Balanced accounted at *
  rw [hs]
  calc _ = tally (s.fates.map Prod.snd) + tally s.currentEnvelope.toList + tally s.stash + extra +
          (tally s.mailbox.held + before) := by ac_rfl
    _ = _ := by
        rw [← h]
        ac_rfl

lemma note {fate : Fate} (hfate : makesLetter config fate = false) (envelope : Envelope T) :
    Moves config {envelope.identity} 0 s (s.note fate envelope) := by
  refine ⟨fun extra hs => ?_, fun hs => ?_, rfl, rfl, rfl⟩
  · unfold Balanced accounted UserLane.note at *
    rw [hs]
    simp only [map_append, tally_append, map_cons, map_nil, tally_cons, tally_nil]
    ac_rfl
  · have hnone : [(fate, envelope)].filter (fun fate => makesLetter config fate.1) = [] := by
      simp [hfate]
    unfold Publishes UserLane.note
    rw [filter_append, hnone, append_nil]
    exact hs

end Moves

/-- What a callback may do: it accounts for what it posts, and puts nothing into the mailbox
of a cell that has ended. -/
structure Harmless (config : LaneConfig T) (f : UserLane T → UserLane T) : Prop where
  moves : ∀ s, Moves config 0 0 s (f s)
  ended : ∀ s, s.state = .terminated → (f s).mailbox = s.mailbox

lemma harmless_id : Harmless config id := ⟨fun s => .refl 0 s, fun _ _ => rfl⟩

lemma Harmless.comp {f g : UserLane T → UserLane T} (hf : Harmless config f)
    (hg : Harmless config g) : Harmless config fun s => g (f s) := by
  refine ⟨fun s => (hf.moves s).trans (hg.moves _), fun s h => ?_⟩
  rw [hg.ended _ ((hf.moves s).state.trans h), hf.ended s h]

variable {f : UserLane T → UserLane T} {s : UserLane T} {e : MailboxFullError}

/-! ### Dead letters and drops -/

lemma moves_publish (hf : Harmless config f) {fate : Fate}
    (hfate : makesLetter config fate = true) (envelope : Envelope T) :
    Moves config {envelope.identity} 0 s ((s.note fate envelope).publish config f envelope) := by
  have hone : [(fate, envelope)].filter (fun fate => makesLetter config fate.1) =
      [(fate, envelope)] := by
    simp [hfate]
  have hbalance : ∀ (extra : Multiset ℕ) (published : List (Envelope T)),
      Balanced (extra + {envelope.identity}) s →
      Balanced (extra + 0) { s.note fate envelope with published := published } := by
    intro extra published hs
    unfold Balanced accounted note at *
    rw [hs]
    simp only [map_append, tally_append, map_cons, map_nil, tally_cons, tally_nil]
    ac_rfl
  unfold publish
  split
  · next hletter =>
    have hnone :
        [envelope].filter (fun envelope => !config.isDeadLetter envelope.message) = [] := by
      simp [hletter]
    refine ⟨fun extra hs => hbalance extra s.published hs, fun hs => ?_, rfl, rfl, rfl⟩
    unfold Publishes note
    rw [filter_append, hone, map_append, filter_append]
    exact hs.trans ((append_nil _).symm.trans (congrArg _ hnone.symm))
  · next hletter =>
    refine Moves.trans ?_ (hf.moves { s.note fate envelope with
      published := (s.note fate envelope).published ++ [envelope] })
    refine ⟨fun extra hs => hbalance extra _ hs, fun hs => ?_, rfl, rfl, rfl⟩
    have hkept : [envelope].filter (fun envelope => !config.isDeadLetter envelope.message) =
        [envelope] := by
      simp [hletter]
    unfold Publishes note at *
    rw [filter_append, hone, map_append, filter_append, ← hs]
    exact congrArg _ hkept.symm

lemma moves_deadLetter (hf : Harmless config f) (envelope : Envelope T) :
    Moves config {envelope.identity} 0 s (s.deadLetter config f envelope) :=
  moves_publish hf rfl envelope

/-- A cell that has ended puts nothing into its mailbox when it makes a dead letter. -/
lemma mailbox_deadLetter (hs : s.state = .terminated) (hf : Harmless config f)
    (envelope : Envelope T) : (s.deadLetter config f envelope).mailbox = s.mailbox := by
  unfold deadLetter publish
  split
  · rfl
  · exact hf.ended _ hs

lemma moves_reportDrop (hf : Harmless config f) (report : DropReport T) :
    Moves config {report.2.identity} 0 s (s.reportDrop config f report) := by
  have hreported : Moves config {report.2.identity} {report.2.identity} s
      { s with mailbox := s.mailbox.reportDrop report } :=
    .ofMailbox (by rw [held_reportDrop])
  unfold reportDrop
  refine hreported.trans ?_
  split
  · next hletters =>
    have hfate : makesLetter config .dropped = true := hletters
    exact moves_publish hf hfate _
  · next hletters =>
    have hfate : makesLetter config .dropped = false := eq_false_iff.2 hletters
    exact (Moves.note hfate _).trans (hf.moves _)

/-! ### Arrivals -/

/-- An envelope that is not refused arrives, or is dropped, or something else is. -/
lemma moves_enqueue (hf : Harmless config f) {envelope : Envelope T}
    (hrefused : (s.mailbox.arrive envelope).refused = none) :
    Moves config {envelope.identity} 0 s (s.enqueue config f envelope).2 := by
  have htally := tally_arrive s.mailbox envelope hrefused
  unfold enqueue
  dsimp only at htally ⊢
  rw [hrefused]
  generalize s.mailbox.arrive envelope = a at htally
  obtain ⟨refused, m, drop, pushes⟩ := a
  -- After the report only the push is left to do.
  have hpush : ∀ s' : UserLane T, Moves config (if pushes then {envelope.identity} else 0) 0 s'
      (bif pushes then { s' with mailbox := s'.mailbox.push envelope } else s') := by
    intro s'
    cases pushes with
    | false => exact .refl 0 s'
    | true => exact .ofMailbox (by rw [tally_push, if_pos rfl, add_zero])
  cases drop with
  | none =>
    refine Moves.trans (.ofMailbox ?_) (hpush _)
    rwa [dropped, map_none, toList_none, tally_nil, add_zero] at htally
  | some report =>
    have hheld : Moves config {envelope.identity}
        ((if pushes then {envelope.identity} else 0) + {report.2.identity}) s
        { s with mailbox := m } := by
      refine .ofMailbox ?_
      rw [dropped, map_some, toList_some, tally_cons, tally_nil, add_zero] at htally
      rw [← htally]
      ac_rfl
    have hreport := (moves_reportDrop (s := { s with mailbox := m }) hf report).frame
      (if pushes then {envelope.identity} else 0)
    rw [add_zero] at hreport
    exact (hheld.trans hreport).trans (hpush _)

lemma moves_refused {envelope : Envelope T}
    (hrefused : (s.mailbox.arrive envelope).refused = some e) (inHand : Multiset ℕ) :
    Moves config inHand inHand s { s with mailbox := (s.mailbox.arrive envelope).mailbox } :=
  .ofMailbox (by rw [held_arrive_of_refused _ _ hrefused])

lemma moves_posted (config : LaneConfig T) (envelopes : List (Envelope T)) :
    Moves config 0 (tally envelopes) s { s with posted := s.posted ++ envelopes } := by
  refine ⟨fun extra hs => ?_, fun hs => hs, rfl, rfl, rfl⟩
  unfold Balanced accounted at *
  rw [tally_append, hs]
  ac_rfl

/-- What a callback posts is accounted for, whatever is told the cell meanwhile. -/
lemma harmless_post (hf : Harmless config f) (signal : Bool) (envelope : Envelope T) :
    Harmless config fun s => s.post config f signal envelope := by
  refine ⟨fun s => ?_, fun s hs => ?_⟩
  · have hposted := moves_posted (s := s) config [envelope]
    rw [tally_cons, tally_nil, add_zero] at hposted
    unfold post
    split
    · exact hposted.trans (moves_deadLetter hf envelope)
    · split
      · exact hposted.trans (.ofMailbox (by rw [tally_enqueueSignal, add_zero]))
      · split
        · next e he => exact moves_refused he 0
        · next hrefused => exact hposted.trans (moves_enqueue hf hrefused)
  · unfold post
    rw [if_pos hs]
    exact mailbox_deadLetter (s := { s with posted := s.posted ++ [envelope] }) hs hf envelope

lemma harmless_run (config : LaneConfig T) (tells : Tells T) :
    Harmless config (run config tells) := by
  induction tells with
  | nothing => exact harmless_id
  | tell signal envelope during next hduring hnext =>
    exact (harmless_post hduring signal envelope).comp hnext

/-! ### Putting back -/

lemma moves_admitReplayed (hf : Harmless config f) (capacity : ℕ)
    (overflow : BoundedMailboxOverflow) (p : UserLane T × List (Envelope T))
    (envelope : Envelope T) :
    let p' := admitReplayed config capacity overflow f p envelope
    Moves config (tally p.2 + {envelope.identity}) (tally p'.2) p.1 p'.1 := by
  have hadmitted : tally (p.2 ++ [envelope]) = tally p.2 + {envelope.identity} := by
    rw [tally_append, tally_cons, tally_nil, add_zero]
  have hdropped : Moves config (tally p.2 + {envelope.identity}) (tally p.2) p.1
      (p.1.reportDrop config f (.dropNew, envelope)) := by
    have hreport := (moves_reportDrop (s := p.1) hf (.dropNew, envelope)).frame (tally p.2)
    rwa [add_zero] at hreport
  unfold admitReplayed
  split
  · dsimp only
    rw [hadmitted]
    exact .refl _ _
  · split
    · next evicted m hevicted =>
      have htally := tally_removeNewest p.1.mailbox
      rw [hevicted] at htally
      have hremoved : Moves config (tally (p.2 ++ [envelope]))
          (tally (p.2 ++ [envelope]) + {evicted.identity}) p.1 { p.1 with mailbox := m } := by
        refine .ofMailbox ?_
        rw [← htally]
        simp only [toList_some, tally_cons, tally_nil]
        ac_rfl
      have hreport := (moves_reportDrop (s := { p.1 with mailbox := m }) hf
        (.dropHead, evicted)).frame (tally (p.2 ++ [envelope]))
      rw [add_zero] at hreport
      rw [← hadmitted]
      exact hremoved.trans hreport
    · exact hdropped

lemma moves_admitReplay (config : LaneConfig T) (capacity : ℕ) (overflow : BoundedMailboxOverflow)
    (envelopes : List (Envelope T)) (callbacks : ℕ → Tells T)
    (p : UserLane T × List (Envelope T)) :
    let p' := admitReplay config capacity overflow envelopes callbacks p
    Moves config (tally p.2 + tally envelopes) (tally p'.2) p.1 p'.1 := by
  induction envelopes generalizing callbacks p with
  | nil =>
    rw [tally_nil, add_zero]
    exact .refl _ _
  | cons envelope envelopes ih =>
    have hfirst := (moves_admitReplayed (harmless_run config (callbacks 0)) capacity
      overflow p envelope).frame (tally envelopes)
    rw [tally_cons, ← add_assoc, add_comm _ (tally envelopes)]
    refine hfirst.trans ?_
    rw [add_comm (tally envelopes)]
    exact ih _ _

lemma moves_unshift (control ordinary : List (Envelope T)) :
    Moves config (tally control + tally ordinary) 0 s
      { s with mailbox := (s.mailbox.unshiftControl control).unshiftAll ordinary } := by
  refine .ofMailbox ?_
  rw [tally_unshiftAll, tally_unshiftControl]
  ac_rfl

/-- What a call that is refused has in its hands still. -/
def handedBack (refused : Option MailboxFullError) (inHand : Multiset ℕ) : Multiset ℕ :=
  match refused with
  | some _ => inHand
  | none => 0

lemma moves_prependOrdinary (config : LaneConfig T) (capacity : ℕ)
    (overflow : BoundedMailboxOverflow) (callbacks : ℕ → Tells T)
    (control ordinary : List (Envelope T)) :
    let answer := s.prependOrdinary config capacity overflow callbacks control ordinary
    Moves config (tally control + tally ordinary)
      (handedBack answer.1 (tally control + tally ordinary)) s answer.2 := by
  unfold prependOrdinary
  split
  · split
    · exact .refl _ s
    · exact moves_unshift control ordinary
  · have hadmitted := (moves_admitReplay config capacity overflow ordinary callbacks
      (s, [])).frame (tally control)
    exact hadmitted.trans (moves_unshift control _)

lemma moves_prependEach (envelopes : List (Envelope T)) (callbacks : ℕ → Tells T) :
    let answer := prependEach config envelopes callbacks s
    answer.1 = none → Moves config (tally envelopes) 0 s answer.2 := by
  induction envelopes generalizing callbacks s with
  | nil => exact fun _ => .refl 0 s
  | cons envelope envelopes ih =>
    unfold prependEach
    dsimp only
    have hfirst : ∀ s' : UserLane T, Moves config {envelope.identity} 0 s s' →
        Moves config (tally (envelope :: envelopes)) (tally envelopes) s s' := by
      intro s' hs'
      have hframe := hs'.frame (tally envelopes)
      rwa [add_zero, add_comm, ← tally_cons] at hframe
    split
    · intro hnone
      refine (hfirst _ (.ofMailbox ?_)).trans (ih _ hnone)
      rw [tally_enqueueSignal, add_zero]
    · split
      · next s' hs' =>
        intro hnone
        refine (hfirst s' ?_).trans (ih _ hnone)
        have hrefused : (s.mailbox.arrive envelope).refused = none := by
          unfold enqueue at hs'
          dsimp only at hs'
          split at hs'
          · cases hs'
          · next hrefused => exact hrefused
        have hmoves := moves_enqueue (harmless_run config (callbacks 0)) hrefused
        rwa [hs'] at hmoves
      · exact fun h => nomatch h

lemma prependEach_refused {envelope : Envelope T} {envelopes : List (Envelope T)}
    (callbacks : ℕ → Tells T) (hdroppable : envelope.undroppable = false)
    (hrefused : (s.mailbox.arrive envelope).refused = some e) :
    prependEach config (envelope :: envelopes) callbacks s =
      (some e, { s with mailbox := (s.mailbox.arrive envelope).mailbox }) := by
  have henqueue : s.enqueue config (run config (callbacks 0)) envelope =
      (some e, { s with mailbox := (s.mailbox.arrive envelope).mailbox }) := by
    unfold enqueue
    dsimp only
    rw [hrefused]
  unfold prependEach
  rw [hdroppable, if_neg Bool.false_ne_true, henqueue]

/-- A priority mailbox takes a batch as a whole, or refuses its first envelope. -/
def TakenWhole (config : LaneConfig T) (s : UserLane T) (envelopes : List (Envelope T))
    (callbacks : ℕ → Tells T) : Prop :=
  ∀ m, s.mailbox = .priority m → (s.prependUser config envelopes callbacks).1 = none ∨
    ∃ envelope ∈ envelopes.head?, envelope.undroppable = false ∧
      (s.mailbox.arrive envelope).refused ≠ none

/-- Envelopes that are put back are taken, but for those of a batch that is refused. -/
lemma moves_prependUser (config : LaneConfig T) (envelopes : List (Envelope T))
    (callbacks : ℕ → Tells T)
    (hwhole : TakenWhole config s envelopes callbacks) :
    let answer := s.prependUser config envelopes callbacks
    Moves config (tally envelopes) (handedBack answer.1 (tally envelopes)) s answer.2 := by
  unfold TakenWhole at hwhole
  unfold prependUser at hwhole ⊢
  dsimp only
  split
  · next m hm =>
    refine .ofMailbox ?_
    rw [hm]
    exact (add_zero _).trans ((tally_append envelopes m.userQueue).trans (add_comm _ _))
  · next m hm =>
    have hmoves := moves_prependOrdinary (s := s) config m.capacity m.overflow
      callbacks [] envelopes
    simpa using hmoves
  · next m hm =>
    rcases hwhole m hm with hnone | ⟨envelope, hhead, hdroppable, hrefused⟩
    · rw [hm] at hnone
      rw [hnone]
      exact moves_prependEach envelopes callbacks hnone
    · obtain ⟨e, he⟩ := ne_none_iff_exists'.1 hrefused
      obtain ⟨later, rfl⟩ : ∃ later, envelopes = envelope :: later :=
        head?_eq_some_iff.1 hhead
      rw [prependEach_refused callbacks hdroppable he]
      exact moves_refused he _
  · next m hm =>
    obtain ⟨hboth, asked, hasked⟩ := classify_spec m envelopes
    generalize m.classify envelopes = batch at hboth hasked
    obtain ⟨control, ordinary, classified⟩ := batch
    subst hasked
    have hall : tally envelopes = tally control + tally ordinary := by
      rw [← tally_of_coe hboth, tally_append]
    have hclassified : Moves config (tally envelopes) (tally envelopes) s
        { s with mailbox := .controlAware { m with asked := asked } } :=
      .ofMailbox (by rw [hm]; rfl)
    rw [hall] at hclassified ⊢
    refine hclassified.trans ?_
    split
    · exact moves_prependOrdinary _ _ _ callbacks control ordinary
    · exact moves_unshift control ordinary

lemma takenWhole_one (envelope : Envelope T) (callbacks : ℕ → Tells T) :
    TakenWhole config s [envelope] callbacks := by
  intro m hm
  by_cases hrefused : envelope.undroppable = false ∧ (s.mailbox.arrive envelope).refused ≠ none
  · exact .inr ⟨envelope, rfl, hrefused⟩
  · refine .inl ?_
    unfold prependUser
    rw [hm]
    unfold prependEach
    cases hdroppable : envelope.undroppable with
    | true => rw [if_pos rfl]; rfl
    | false =>
      have hnone := not_not.1 fun h => hrefused ⟨hdroppable, h⟩
      unfold enqueue
      dsimp only
      rw [hnone]
      rfl

/-! ### Draining -/

lemma moves_deadLetterAll (config : LaneConfig T) (envelopes : List (Envelope T))
    (callbacks : ℕ → Tells T) :
    Moves config (tally envelopes) 0 s (deadLetterAll config envelopes callbacks s) := by
  induction envelopes generalizing callbacks s with
  | nil => exact .refl 0 s
  | cons envelope envelopes ih =>
    have hfirst := (moves_deadLetter (s := s) (harmless_run config (callbacks 0))
      envelope).frame (tally envelopes)
    rw [add_zero, add_comm, ← tally_cons] at hfirst
    exact hfirst.trans (ih _)

lemma mailbox_deadLetterAll (hs : s.state = .terminated) (envelopes : List (Envelope T))
    (callbacks : ℕ → Tells T) :
    (deadLetterAll config envelopes callbacks s).mailbox = s.mailbox := by
  induction envelopes generalizing callbacks s with
  | nil => rfl
  | cons envelope envelopes ih =>
    have hharmless := harmless_run config (callbacks 0)
    have hmoves := moves_deadLetter (s := s) hharmless envelope
    exact (ih (hmoves.state.trans hs) _).trans (mailbox_deadLetter hs hharmless envelope)

/-! ### Steps -/

/-- All that was posted is accounted for, and nothing is left of a cell that has ended. -/
structure Sound (config : LaneConfig T) (s : UserLane T) : Prop where
  balance : Balanced 0 s
  publishes : Publishes config s
  ended : s.state = .terminated → s.mailbox.held = [] ∧ s.stash = [] ∧ s.currentEnvelope = none

lemma Sound.moves {s' : UserLane T} (h : Sound config s) (hmoves : Moves config 0 0 s s')
    (hended : s.state = .terminated → s'.mailbox.held = []) : Sound config s' := by
  refine ⟨hmoves.balance 0 h.balance, hmoves.publishes h.publishes, fun hs => ?_⟩
  have hbefore : s.state = .terminated := hmoves.state.symm.trans hs
  obtain ⟨-, hstash, hcurrent⟩ := h.ended hbefore
  exact ⟨hended hbefore, hmoves.stash.trans hstash, hmoves.current.trans hcurrent⟩

lemma Sound.ofLive {s' : UserLane T} (hbalance : Balanced 0 s') (hpublishes : Publishes config s')
    (hlive : s'.state ≠ .terminated) : Sound config s' :=
  ⟨hbalance, hpublishes, fun hs => absurd hs hlive⟩

lemma Sound.post (h : Sound config s) (signal : Bool) (envelope : Envelope T)
    (during : Tells T) : Sound config (s.post config (run config during) signal envelope) := by
  have hharmless := harmless_post (harmless_run config during) signal envelope
  refine h.moves (hharmless.moves s) fun hs => ?_
  rw [hharmless.ended s hs]
  exact (h.ended hs).1

lemma Sound.takeTurn (h : Sound config s) (finding : Finding T) (callbacks : ℕ → Tells T) :
    Sound config (s.takeTurn config finding callbacks) := by
  unfold UserLane.takeTurn
  split
  · exact h
  · next hidle =>
    obtain ⟨hrunning, hcurrent⟩ := not_or.1 hidle
    have hlive : s.state ≠ .terminated := by simp [not_not.1 hrunning]
    have hnone : s.currentEnvelope = none := by simpa using hcurrent
    have hreleased := released_dequeueUser s.mailbox
    split
    · exact h
    · next envelope m hdequeued =>
      rw [hdequeued] at hreleased
      have htaken : Moves config 0 {envelope.identity} s { s with mailbox := m } := by
        refine .ofMailbox ?_
        rw [hreleased.held, toList_some, tally_append, tally_cons, tally_nil]
        ac_rfl
      have hdone : ∀ {s' : UserLane T},
          Moves config {envelope.identity} 0 { s with mailbox := m } s' → Sound config s' :=
        fun hs' => h.moves (htaken.trans hs') fun hs => absurd hs hlive
      dsimp only
      split
      · exact hdone (Moves.note rfl envelope)
      · have hback := moves_prependUser config [envelope] callbacks
          (takenWhole_one (s := { s with mailbox := m }) envelope callbacks)
        split
        · next s' hs' =>
          rw [hs'] at hback
          exact hdone hback
        · next e s' hs' =>
          rw [hs'] at hback
          exact hdone (hback.trans (Moves.note rfl envelope))
      · split
        · exact hdone (Moves.note rfl envelope)
        · split
          · exact hdone (moves_deadLetter (harmless_run _ _) envelope)
          · refine .ofLive ?_ (htaken.publishes h.publishes) hlive
            have hbalance := htaken.balance 0 h.balance
            unfold Balanced accounted at *
            rw [hbalance, hnone]
            simp only [toList_none, toList_some, tally_nil, tally_cons]
            ac_rfl

lemma Sound.finish (h : Sound config s) : Sound config s.finish := by
  unfold UserLane.finish
  split
  · next envelope hcurrent =>
    have hlive : s.state ≠ .terminated := fun hs =>
      nomatch hcurrent.symm.trans (h.ended hs).2.2
    refine .ofLive ?_ ?_ hlive
    · have hbalance := h.balance
      unfold Balanced accounted note at *
      rw [hbalance, hcurrent]
      simp only [toList_none, toList_some, tally_nil, tally_cons, map_append,
        map_cons, map_nil, tally_append]
      ac_rfl
    · exact (Moves.note (s := { s with currentEnvelope := none }) rfl envelope).publishes
        h.publishes
  · exact h

lemma Sound.stashCurrent (h : Sound config s) : Sound config (s.stashCurrent config) := by
  unfold UserLane.stashCurrent
  split
  · next envelope hcurrent =>
    split
    · exact h
    · have hlive : s.state ≠ .terminated := fun hs =>
        nomatch hcurrent.symm.trans (h.ended hs).2.2
      refine .ofLive ?_ h.publishes hlive
      have hbalance := h.balance
      unfold Balanced accounted at *
      rw [hbalance, hcurrent]
      simp only [toList_none, toList_some, tally_nil, tally_cons, tally_append]
      ac_rfl
  · exact h

lemma balanced_unstashed (h : Balanced 0 s) :
    Balanced (0 + tally s.stash) { s with stash := [] } := by
  unfold Balanced accounted at *
  rw [h, tally_nil]
  ac_rfl

lemma Sound.unstashAll (h : Sound config s) (callbacks : ℕ → Tells T)
    (hwhole : TakenWhole config { s with stash := [] } s.stash callbacks) :
    Sound config (s.unstashAll config callbacks) := by
  unfold UserLane.unstashAll
  split
  · exact h
  · next hstash =>
    have hlive : s.state ≠ .terminated := fun hs => hstash (h.ended hs).2.1
    have hmoves := moves_prependUser _ s.stash callbacks hwhole
    have hbalance := hmoves.balance 0 (balanced_unstashed h.balance)
    have hpublishes := hmoves.publishes h.publishes
    have hstate : _ ≠ CellState.terminated := fun hs => hlive (hmoves.state.symm.trans hs)
    have hempty := hmoves.stash
    split
    · next s' hs' =>
      rw [hs'] at hbalance hpublishes hstate
      exact .ofLive hbalance hpublishes hstate
    · next e s' hs' =>
      rw [hs'] at hbalance hpublishes hstate hempty
      refine .ofLive ?_ hpublishes hstate
      -- The stash is the actor's again.
      unfold Balanced accounted handedBack at *
      dsimp only at hbalance hempty ⊢
      rw [hbalance, hempty, tally_nil]
      ac_rfl

lemma Sound.prependUserMessages (h : Sound config s) (envelopes : List (Envelope T))
    (callbacks : ℕ → Tells T)
    (hwhole : s.state ≠ .terminated →
      TakenWhole config { s with posted := s.posted ++ envelopes } envelopes callbacks) :
    Sound config (s.prependUserMessages config envelopes callbacks) := by
  have hposted := moves_posted (s := s) config envelopes
  unfold UserLane.prependUserMessages
  dsimp only
  split
  · next hterminated =>
    refine h.moves (hposted.trans (moves_deadLetterAll _ envelopes callbacks)) fun hs => ?_
    rw [mailbox_deadLetterAll (s := { s with posted := s.posted ++ envelopes }) hterminated]
    exact (h.ended hs).1
  · next hlive =>
    have hmoves := hposted.trans (moves_prependUser _ envelopes callbacks (hwhole hlive))
    split
    · next s' hs' =>
      rw [hs'] at hmoves
      exact h.moves hmoves fun hs => absurd hs hlive
    · next e s' hs' =>
      rw [hs'] at hmoves
      exact h.moves (hmoves.trans (moves_deadLetterAll _ envelopes callbacks)) fun hs =>
        absurd hs hlive

lemma tally_enqueueSignals (envelopes : List (Envelope T)) (m : UserMailbox T) :
    tally (envelopes.foldl (fun m envelope => m.enqueueSignal envelope) m).held =
      tally m.held + tally envelopes := by
  induction envelopes generalizing m with
  | nil => simp
  | cons envelope envelopes ih =>
    rw [foldl_cons, ih, tally_enqueueSignal, tally_cons]
    ac_rfl

lemma Sound.adoptControlLane (h : Sound config s) (next : ControlAwareMailbox T) :
    Sound config (s.adoptControlLane next) := by
  have hheld := (released_drainUser s.mailbox).1.held
  rw [(released_drainUser s.mailbox).2, append_nil] at hheld
  unfold UserLane.adoptControlLane
  refine h.moves (.ofMailbox ?_) fun hs => ?_
  · rw [tally_enqueueSignals, ← hheld]
    exact congrArg (· + 0) (zero_add _)
  · rw [← hheld, (h.ended hs).1]
    rfl

lemma Sound.deadLetterStash (h : Sound config s) (callbacks : ℕ → Tells T) :
    Sound config (s.deadLetterStash config callbacks) := by
  have hmoves := moves_deadLetterAll (s := { s with stash := [] }) config s.stash callbacks
  unfold UserLane.deadLetterStash
  refine ⟨hmoves.balance 0 (balanced_unstashed h.balance), hmoves.publishes h.publishes,
    fun hs => ?_⟩
  have hbefore : s.state = .terminated := hmoves.state.symm.trans hs
  obtain ⟨hheld, -, hcurrent⟩ := h.ended hbefore
  refine ⟨?_, hmoves.stash, hmoves.current.trans hcurrent⟩
  rw [mailbox_deadLetterAll (s := { s with stash := [] }) hbefore]
  exact hheld

/-- The mailbox goes to the dead letters, and what is told meanwhile may be in it then. -/
lemma moves_deadLetterQueuedMessages (config : LaneConfig T) (s : UserLane T)
    (callbacks : ℕ → Tells T) :
    Moves config 0 0 s (s.deadLetterQueuedMessages config callbacks) := by
  have hheld := (released_drainUser s.mailbox).1.held
  refine .trans (.ofMailbox ?_) (moves_deadLetterAll _ s.mailbox.drainUser.1 callbacks)
  rw [hheld, tally_append, add_zero, add_comm]

lemma Sound.finalizeTermination (h : Sound config s) (hcurrent : s.currentEnvelope = none)
    (forStash forQueued forLate : ℕ → Tells T) :
    Sound config (s.finalizeTermination config forStash forQueued forLate) := by
  have hstash := moves_deadLetterAll (s := { s with stash := [] }) config s.stash forStash
  have hqueued := moves_deadLetterQueuedMessages config
    (s.deadLetterStash config forStash) forQueued
  unfold UserLane.finalizeTermination
  dsimp only
  generalize hs' : { (s.deadLetterStash config forStash).deadLetterQueuedMessages config
    forQueued with state := CellState.terminated } = s'
  have hlate := moves_deadLetterQueuedMessages config s' forLate
  have hterminated : s'.state = .terminated := by rw [← hs']
  refine ⟨hlate.balance 0 ?_, hlate.publishes ?_, fun _ => ⟨?_, ?_, ?_⟩⟩
  · rw [← hs']
    exact hqueued.balance 0 (h.deadLetterStash forStash).balance
  · rw [← hs']
    exact hqueued.publishes (h.deadLetterStash forStash).publishes
  · unfold UserLane.deadLetterQueuedMessages
    rw [mailbox_deadLetterAll (s := { s' with mailbox := s'.mailbox.drainUser.2 }) hterminated]
    exact (released_drainUser s'.mailbox).2
  · rw [hlate.stash, ← hs']
    exact hqueued.stash.trans hstash.stash
  · rw [hlate.current, ← hs']
    exact hqueued.current.trans (hstash.current.trans hcurrent)

lemma Sound.become (h : Sound config s) {state : CellState} (hlive : state ≠ .terminated) :
    Sound config { s with state := state } :=
  .ofLive h.balance h.publishes hlive

lemma Sound.setSuspended (h : Sound config s) (suspended : Bool) :
    Sound config { s with mailbox := s.mailbox.setSuspended suspended } := by
  have hheld := (released_setSuspended s.mailbox suspended).held
  rw [nil_append] at hheld
  refine h.moves (.ofMailbox (by rw [hheld])) fun hs => ?_
  rw [← hheld]
  exact (h.ended hs).1

/-- What is put back is taken as a whole, or refused as a whole. -/
def ReplaysWhole (config : LaneConfig T) (s : UserLane T) : Input T → Prop
  | .unstashAll callbacks => TakenWhole config { s with stash := [] } s.stash callbacks
  | .prependUserMessages envelopes callbacks =>
    s.state ≠ .terminated →
      TakenWhole config { s with posted := s.posted ++ envelopes } envelopes callbacks
  | _ => True

lemma Sound.step (h : Sound config s) (input : Input T) (hwhole : ReplaysWhole config s input) :
    Sound config (s.step config input) := by
  cases input with
  | post signal envelope during => exact h.post signal envelope during
  | takeTurn finding callbacks => exact h.takeTurn finding callbacks
  | stash => exact h.stashCurrent
  | unstashAll callbacks => exact h.unstashAll callbacks hwhole
  | prependUserMessages envelopes callbacks =>
    exact h.prependUserMessages envelopes callbacks hwhole
  | finish => exact h.finish
  | become state =>
    unfold UserLane.step
    dsimp only
    split
    · exact h
    · next hlive => exact h.become (not_or.1 hlive).2
  | setSuspended suspended => exact h.setSuspended suspended
  | adoptControlLane next => exact h.adoptControlLane next
  | recreate callbacks => exact h.deadLetterStash callbacks
  | finalizeTermination forStash forQueued forLate =>
    unfold UserLane.step
    dsimp only
    split
    · exact h
    · next hlive =>
      refine h.finalizeTermination ?_ forStash forQueued forLate
      simpa using (not_or.1 hlive).2

/-! ### Runs -/

/-- The messages with a fate. -/
def withFate (s : UserLane T) (fate : Fate) : List (Envelope T) :=
  (s.fates.filter fun known => known.1 = fate).map Prod.snd

lemma tally_fates (s : UserLane T) :
    tally (s.fates.map Prod.snd) =
      tally (s.withFate .handed) + tally (s.withFate .obeyed) + tally (s.withFate .dropped) +
        tally (s.withFate .throttled) + tally (s.withFate .refused) +
        tally (s.withFate .deadLettered) := by
  unfold withFate
  induction s.fates with
  | nil => rfl
  | cons known fates ih =>
    obtain ⟨fate, envelope⟩ := known
    rw [map_cons, tally_cons, ih]
    cases fate <;> simp only [filter_cons, decide_true, decide_false, reduceCtorEq,
      if_true, false_eq_true, if_false, map_cons, tally_cons] <;> ac_rfl

/-- Each message that was posted has one fate: handled, obeyed, waiting in the mailbox or in the
stash, dropped, refused behind the throttle, or a dead letter once. Nothing waits once the cell has
ended. -/
theorem one_fate (config : LaneConfig T) (mailbox : UserMailbox T) (hempty : mailbox.held = [])
    (inputs : List (Input T))
    (hwhole : Machine.Along (step config) (ReplaysWhole config) { mailbox := mailbox } inputs) :
    let s := Machine.run (step config) { mailbox := mailbox } inputs
    (s.posted.map identity).Perm
        ((s.withFate .handed ++ s.currentEnvelope.toList ++ s.withFate .obeyed ++ s.mailbox.held ++
          s.stash ++ s.withFate .dropped ++ s.withFate .throttled ++ s.withFate .refused ++
          s.withFate .deadLettered).map identity) ∧
      Publishes config s ∧
      (s.state = .terminated → s.mailbox.held = [] ∧ s.stash = []) ∧
      ∀ forStash forQueued forLate,
        (s.finalizeTermination config forStash forQueued forLate).state = .terminated := by
  intro s
  have hstart : Sound config { mailbox := mailbox } := by
    refine .ofLive ?_ rfl nofun
    unfold Balanced accounted
    rw [hempty]
    rfl
  have hsound : Sound config s :=
    Machine.invariant (I := Sound config) (fun _ input hinput h => Sound.step h input hinput)
      hwhole hstart
  refine ⟨Multiset.coe_eq_coe.1 ?_, hsound.publishes, fun hs => ?_, fun _ _ _ => ?_⟩
  · have hbalance := hsound.balance
    unfold Balanced accounted at hbalance
    rw [tally_fates] at hbalance
    refine hbalance.trans (Eq.trans ?_ (rfl : tally _ = _))
    simp only [tally_append]
    ac_rfl
  · exact ⟨(hsound.ended hs).1, (hsound.ended hs).2.1⟩
  · exact (moves_deadLetterQueuedMessages _ _ _).state

/-- A message that is told a cell while a dead letter of it is published. -/
def lateTell (late : Envelope ℕ) : ℕ → Tells ℕ := fun _ => .tell false late .nothing .nothing

/-- A cell ends with a message in its mailbox, and with one that comes in meanwhile. -/
def endings (first late : Envelope ℕ) : List (Input ℕ) :=
  [.post false first .nothing, .finalizeTermination (fun _ => .nothing) (lateTell late)
    (fun _ => .nothing)]

/-- Both messages of such a cell go to the dead letters. -/
theorem one_fate_endings :
    let first : Envelope ℕ := { identity := 0, message := 0 }
    let late : Envelope ℕ := { identity := 1, message := 1 }
    let s := Machine.run (step {}) { mailbox := .base {} } (endings first late)
    (s.posted.map identity).Perm
        ((s.withFate .handed ++ s.currentEnvelope.toList ++ s.withFate .obeyed ++ s.mailbox.held ++
          s.stash ++ s.withFate .dropped ++ s.withFate .throttled ++ s.withFate .refused ++
          s.withFate .deadLettered).map identity) ∧
      s.mailbox.held = [] ∧ s.withFate .deadLettered = [first, late] := by
  intro first late s
  have hfates := one_fate {} (.base {}) rfl (endings first late) ⟨trivial, trivial, trivial⟩
  exact ⟨hfates.1, (hfates.2.2.1 rfl).1, rfl⟩

/-- A message that comes in while a cell ends, and that is a dead letter itself, is not
published. -/
theorem not_one_fate :
    ¬∀ (config : LaneConfig ℕ) (mailbox : UserMailbox ℕ) (inputs : List (Input ℕ)),
      mailbox.held = [] → config.deadLetterDrops = false →
        let s := Machine.run (step config) { mailbox := mailbox } inputs
        (s.posted.map identity).Perm
          ((s.withFate .handed ++ s.currentEnvelope.toList ++ s.mailbox.held ++ s.stash ++
            s.withFate .dropped ++ s.withFate .throttled ++ s.published).map identity) := by
  intro h
  have hperm := h { isDeadLetter := fun message => message = 1 } (.base {})
    (endings { identity := 0, message := 0 } { identity := 1, message := 1 }) rfl rfl
  exact absurd hperm.length_eq (by decide +kernel)

end UserLane

end ActorTs.Actor
