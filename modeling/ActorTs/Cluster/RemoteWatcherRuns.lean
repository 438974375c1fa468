import ActorTs.Cluster.RemoteWatcherTables

/-!
# What a remote watcher is told

A watch is in the table of its node until its watcher withdraws it or an answer about its path ends
it. So a watcher is told at most once for a watch.

An answer says that at the moment at which it was given there was no running actor at the path
that a peer may watch. That moment may come before the watch which the answer ends, since the
answer does not say which watch it is for.
-/

open List Option OrderedMap Nat Function

namespace ActorTs.Cluster.RemoteWatcher

open Machine World

variable {ι π κ : Type*} [DecidableEq ι] [DecidableEq π]

namespace World

/-! ## Watches -/

/-- When the watch that a watcher has of a path was placed. -/
def current (w : World ι π κ) (watcher : ι) (subject : π) : Option ℕ :=
  (w.outbound.get? subject).bind fun entry => entry.watchers.get? watcher

/-- What the table of the watching node and the watches placed and ended say of each other. -/
structure Ledger (bound : ℕ) (w : World ι π κ) : Prop where
  live : ∀ x : Watch ι π,
    x ∈ w.placed ∧ x ∉ w.ended ↔ w.current x.watcher x.watchee = some x.placed
  known : ∀ x ∈ w.ended, x ∈ w.placed
  stamps : ∀ x ∈ w.placed, x.placed ≤ bound
  notified : ∀ n ∈ w.notifications, n.watch ∈ w.ended
  once : (w.notifications.map Notification.watch).Nodup
  watched : ∀ p entry, w.outbound.get? p = some entry → 0 < entry.watchers.size

variable {w w' : World ι π κ} {bound : ℕ} {subject : π}

lemma Ledger.mono {later : ℕ} (h : Ledger bound w) (hle : bound ≤ later) : Ledger later w :=
  { h with stamps := fun x hx => (h.stamps x hx).trans hle }

lemma Ledger.place (h : Ledger bound w) {x : Watch ι π} (hbound : bound < x.placed)
    (hnone : w.current x.watcher x.watchee = none)
    (hcurrent : ∀ watcher p, w'.current watcher p =
      if watcher = x.watcher ∧ p = x.watchee then some x.placed else w.current watcher p)
    (hplaced : w'.placed = w.placed ++ [x]) (hended : w'.ended = w.ended)
    (hnotifications : w'.notifications = w.notifications)
    (hwatched : ∀ p entry, w'.outbound.get? p = some entry → 0 < entry.watchers.size) :
    Ledger x.placed w' := by
  have hnew : x ∉ w.placed := fun hx => absurd (h.stamps x hx) (not_le.2 hbound)
  refine ⟨fun y => ?_, ?_, ?_, ?_, ?_, hwatched⟩
  · rw [hplaced, hended, hcurrent]
    rcases eq_or_ne y x with rfl | hne
    · rw [if_pos ⟨rfl, rfl⟩]
      exact iff_of_true ⟨mem_append_right _ mem_cons_self, fun hy => hnew (h.known y hy)⟩
        rfl
    · rw [mem_append, mem_singleton, or_iff_left hne, h.live y]
      split
      · next heq =>
        rw [heq.1, heq.2, hnone]
        refine iff_of_false (fun hy => nomatch hy) fun hy => hne ?_
        obtain ⟨watcher, watchee, placed⟩ := y
        obtain ⟨rfl, rfl⟩ := heq
        obtain rfl : x.placed = placed := some.inj hy
        rfl
      · exact Iff.rfl
  · rw [hended, hplaced]
    exact fun y hy => mem_append_left _ (h.known y hy)
  · rw [hplaced]
    intro y hy
    rcases mem_append.1 hy with hy | hy
    · exact (h.stamps y hy).trans hbound.le
    · rw [mem_singleton.1 hy]
  · rw [hnotifications, hended]
    exact h.notified
  · rw [hnotifications]
    exact h.once

lemma Ledger.finish (h : Ledger bound w) {gone : List (Watch ι π)}
    {told : List (Notification ι π)}
    (hgone : ∀ x ∈ gone, w.current x.watcher x.watchee = some x.placed)
    (hcurrent : ∀ x : Watch ι π, w'.current x.watcher x.watchee = some x.placed ↔
      w.current x.watcher x.watchee = some x.placed ∧ x ∉ gone)
    (hplaced : w'.placed = w.placed) (hended : w'.ended = w.ended ++ gone)
    (hnotifications : w'.notifications = w.notifications ++ told)
    (htold : ∀ n ∈ told, n.watch ∈ gone) (honce : (told.map Notification.watch).Nodup)
    (hwatched : ∀ p entry, w'.outbound.get? p = some entry → 0 < entry.watchers.size) :
    Ledger bound w' := by
  refine ⟨fun x => ?_, ?_, ?_, ?_, ?_, hwatched⟩
  · rw [hcurrent, ← h.live, hplaced, hended, mem_append, not_or, and_assoc]
  · rw [hplaced, hended]
    intro x hx
    exact (mem_append.1 hx).elim (h.known x) fun hx => ((h.live x).2 (hgone x hx)).1
  · rw [hplaced]
    exact h.stamps
  · rw [hnotifications, hended]
    intro n hn
    exact mem_append.2 ((mem_append.1 hn).imp (h.notified n) (htold n))
  · rw [hnotifications, map_append]
    refine h.once.append honce fun x hold hnew => ?_
    obtain ⟨n, hn, rfl⟩ := mem_map.1 hold
    obtain ⟨n', hn', heq⟩ := mem_map.1 hnew
    -- a watch of which one was told has ended, and one that ends now has not
    have hlive := (h.live n.watch).2 (hgone _ (heq ▸ htold n' hn'))
    exact hlive.2 (h.notified n hn)

omit [DecidableEq ι] [DecidableEq π] in
lemma mem_watchesOf {entry : OutboundWatch ι} {x : Watch ι π} :
    x ∈ watchesOf subject entry ↔
      x.watchee = subject ∧ (x.watcher, x.placed) ∈ entry.watchers.entries := by
  rw [watchesOf, List.mem_map]
  constructor
  · rintro ⟨p, hp, rfl⟩
    exact ⟨rfl, hp⟩
  · rintro ⟨rfl, hp⟩
    exact ⟨_, hp, rfl⟩

omit [DecidableEq ι] [DecidableEq π] in
lemma nodup_watchesOf (subject : π) (entry : OutboundWatch ι) :
    (watchesOf subject entry).Nodup := by
  refine List.Nodup.map_on (fun p _ p' _ heq => ?_) entry.watchers.nodup_keys.of_map
  obtain ⟨hwatcher, -, hplaced⟩ := Watch.mk.inj heq
  exact Prod.ext hwatcher hplaced

lemma current_set {entry : OutboundWatch ι}
    (houtbound : w'.outbound = w.outbound.set subject entry) (watcher : ι) (p : π) :
    w'.current watcher p =
      if p = subject then entry.watchers.get? watcher else w.current watcher p := by
  rw [current, houtbound, get?_set]
  rcases eq_or_ne p subject with rfl | hne
  · rw [if_pos rfl, if_pos rfl, bind_some]
  · rw [if_neg hne.symm, if_neg hne, current]

lemma current_delete (houtbound : w'.outbound = w.outbound.delete subject) (watcher : ι) (p : π) :
    w'.current watcher p = if p = subject then none else w.current watcher p := by
  rw [current, houtbound, get?_delete]
  rcases eq_or_ne p subject with rfl | hne
  · rw [if_pos rfl, if_pos rfl, bind_none]
  · rw [if_neg hne.symm, if_neg hne, current]

lemma Ledger.watch (h : Ledger w.moment w) (watcher : ι) (subject : π) :
    Ledger (w.moment + 1) (w.watch watcher subject) := by
  have hplace {w' : World ι π κ} {entry : OutboundWatch ι} (watchers : OrderedMap ι ℕ)
      (hnone : w.current watcher subject = none)
      (hwatchers : ∀ watcher, watchers.get? watcher = w.current watcher subject)
      (houtbound : w'.outbound = w.outbound.set subject entry)
      (hentry : entry.watchers = watchers.set watcher (w.moment + 1))
      (hplaced : w'.placed = w.placed ++ [⟨watcher, subject, w.moment + 1⟩])
      (hended : w'.ended = w.ended) (hnotifications : w'.notifications = w.notifications) :
      Ledger (w.moment + 1) w' := by
    refine h.place (lt_succ_self _) hnone (fun watcher' p => ?_) hplaced hended
      hnotifications fun p entry' hfound => ?_
    · rw [current_set houtbound, hentry, get?_set, hwatchers]
      simp only
      rcases eq_or_ne p subject with rfl | hne
      · rw [if_pos rfl]
        exact if_congr ⟨fun heq => ⟨heq.symm, rfl⟩, fun heq => heq.1.symm⟩ rfl rfl
      · rw [if_neg hne, if_neg fun heq => hne heq.2]
    · rw [houtbound] at hfound
      rcases get?_set_cases hfound with ⟨-, rfl⟩ | hfound
      · have hsize := watchers.size_set watcher (w.moment + 1)
        rw [hwatchers, hnone] at hsize
        rw [hentry]
        exact hsize.trans_gt (succ_pos _)
      · exact h.watched p entry' hfound
  rw [World.watch]
  split
  · next existing hexisting =>
    have hcurrent : ∀ watcher, existing.watchers.get? watcher = w.current watcher subject := by
      intro watcher
      rw [current, hexisting, bind_some]
    split
    · exact h.mono (le_succ _)
    · next hhas =>
      refine hplace existing.watchers ?_ hcurrent rfl rfl rfl rfl rfl
      rw [← hcurrent]
      simpa [has] using hhas
  · next hnone =>
    have hcurrent : ∀ watcher, w.current watcher subject = none := by
      intro watcher
      rw [current, hnone, bind_none]
    exact hplace .empty (hcurrent watcher) (fun watcher => (hcurrent watcher).symm)
      rfl rfl rfl rfl rfl

lemma current_unwatch (w : World ι π κ) (watcher watcher' : ι) (subject p : π) :
    (w.unwatch watcher subject).current watcher' p =
      if p = subject ∧ watcher = watcher' then none else w.current watcher' p := by
  rw [unwatch]
  split
  · next hnone =>
    split
    · next heq => rw [heq.1, current, hnone, bind_none]
    · rfl
  · next entry hentry =>
    have hdelete : (if p = subject then (entry.watchers.delete watcher).get? watcher'
        else w.current watcher' p)
        = if p = subject ∧ watcher = watcher' then none else w.current watcher' p := by
      rcases eq_or_ne p subject with rfl | hne
      · rw [if_pos rfl, get?_delete, current, hentry, bind_some]
        exact if_congr (and_iff_right rfl).symm rfl rfl
      · rw [if_neg hne, if_neg fun heq => hne heq.1]
    simp only
    split
    · exact (current_set rfl watcher' p).trans hdelete
    · next hsize =>
      rw [← hdelete, current_delete rfl]
      rw [OrderedMap.size, not_lt, le_zero, length_eq_zero_iff] at hsize
      rw [get?, hsize]
      rfl

lemma unwatch_fields (w : World ι π κ) (watcher : ι) (subject : π) :
    (w.unwatch watcher subject).answers = w.answers ∧
      (w.unwatch watcher subject).notifications = w.notifications ∧
      (w.unwatch watcher subject).placed = w.placed ∧
      (w.unwatch watcher subject).ended = w.ended ++
        (w.current watcher subject).toList.map fun placed => ⟨watcher, subject, placed⟩ := by
  rw [unwatch, current]
  split
  · next hnone =>
    rw [hnone]
    exact ⟨rfl, rfl, rfl, (append_nil _).symm⟩
  · next entry hentry =>
    rw [hentry]
    simp only
    split <;> exact ⟨rfl, rfl, rfl, rfl⟩

lemma unwatchAll_fields (w : World ι π κ) (watcher : ι) :
    (w.unwatchAll watcher).answers = w.answers ∧
      (w.unwatchAll watcher).notifications = w.notifications := by
  refine foldlRecOn (motive := fun w' : World ι π κ =>
    w'.answers = w.answers ∧ w'.notifications = w.notifications) _ _ ⟨rfl, rfl⟩
    fun w' hsame entry _ => ?_
  split
  · obtain ⟨hanswers, hnotifications, -⟩ := w'.unwatch_fields watcher entry.1
    exact ⟨hanswers.trans hsame.1, hnotifications.trans hsame.2⟩
  · exact hsame

lemma watched_unwatch (hwatched : ∀ p entry, w.outbound.get? p = some entry →
    0 < entry.watchers.size) (watcher : ι) (subject p : π) (entry : OutboundWatch ι)
    (hfound : (w.unwatch watcher subject).outbound.get? p = some entry) :
    0 < entry.watchers.size := by
  rw [unwatch] at hfound
  split at hfound
  · exact hwatched p entry hfound
  · simp only at hfound
    split at hfound
    · next hsize =>
      rcases get?_set_cases hfound with ⟨-, rfl⟩ | hfound
      · exact hsize
      · exact hwatched p entry hfound
    · exact hwatched p entry (get?_of_get?_delete hfound)

lemma Ledger.unwatch (h : Ledger bound w) (watcher : ι) (subject : π) :
    Ledger bound (w.unwatch watcher subject) := by
  obtain ⟨-, hnotifications, hplaced, hended⟩ := w.unwatch_fields watcher subject
  have hgone : ∀ x : Watch ι π,
      x ∈ (w.current watcher subject).toList.map (fun placed => ⟨watcher, subject, placed⟩) ↔
        (x.watchee = subject ∧ watcher = x.watcher) ∧
          w.current x.watcher x.watchee = some x.placed := by
    rintro ⟨watcher', p, placed⟩
    rw [List.mem_map]
    constructor
    · rintro ⟨placed', hplaced', heq⟩
      cases heq
      exact ⟨⟨rfl, rfl⟩, mem_toList.1 hplaced'⟩
    · rintro ⟨⟨rfl, rfl⟩, hcurrent⟩
      exact ⟨placed, mem_toList.2 hcurrent, rfl⟩
  refine h.finish (fun x hx => ((hgone x).1 hx).2) (fun x => ?_) hplaced hended
    (hnotifications.trans (append_nil _).symm) (fun _ hn => nomatch hn) nodup_nil
    fun p entry hfound => watched_unwatch h.watched watcher subject p entry hfound
  rw [current_unwatch, hgone]
  split
  · next heq => exact iff_of_false (Option.some_ne_none _).symm fun hx => hx.2 ⟨heq, hx.1⟩
  · next hne => exact (and_iff_left fun hx => hne hx.1).symm

lemma Ledger.unwatchAll (h : Ledger bound w) (watcher : ι) :
    Ledger bound (w.unwatchAll watcher) := by
  refine foldlRecOn _ _ h fun w' h' entry _ => ?_
  split
  · exact h'.unwatch watcher entry.1
  · exact h'

lemma Ledger.onWatchTerminated (h : Ledger bound w) (message : WatchTerminated ι π) :
    Ledger bound (w.onWatchTerminated message) := by
  rw [World.onWatchTerminated]
  split
  · exact h
  · next entry hentry =>
    have hgone : ∀ x, x ∈ watchesOf message.watchee entry ↔
        x.watchee = message.watchee ∧ w.current x.watcher x.watchee = some x.placed := by
      intro x
      rw [mem_watchesOf, ← get?_eq_some_iff]
      refine and_congr_right fun hp => ?_
      rw [hp, current, hentry, bind_some]
    have hwatch : ((watchesOf message.watchee entry).map fun watch =>
        (⟨watch, message.existenceConfirmed, message.sent⟩ : Notification ι π)).map
          Notification.watch = watchesOf message.watchee entry := by
      rw [List.map_map]
      exact map_id _
    refine h.finish (fun x hx => ((hgone x).1 hx).2) (fun x => ?_) rfl rfl rfl
      (fun n hn => ?_) ?_ fun p entry hfound => h.watched p entry (get?_of_get?_delete hfound)
    · rw [current_delete rfl, hgone]
      split
      · next heq => exact iff_of_false (Option.some_ne_none _).symm fun hx => hx.2 ⟨heq, hx.1⟩
      · next hne => exact (and_iff_left fun hx => hne hx.1).symm
    · obtain ⟨x, hx, rfl⟩ := mem_map.1 hn
      exact hx
    · rw [hwatch]
      exact nodup_watchesOf _ _

/-- The table and the watches of the watching node stay as they are. -/
structure Served (w w' : World ι π κ) : Prop where
  outbound : w'.outbound = w.outbound
  placed : w'.placed = w.placed
  ended : w'.ended = w.ended
  notifications : w'.notifications = w.notifications

lemma Ledger.served (h : Ledger bound w) (hserved : Served w w') : Ledger bound w' := by
  refine h.finish (forall_mem_nil _) (fun x => ?_) hserved.placed
    (hserved.ended.trans (append_nil _).symm)
    (hserved.notifications.trans (append_nil _).symm)
    (fun _ hn => nomatch hn) nodup_nil ?_
  · rw [current, current, hserved.outbound]
    exact (and_iff_left not_mem_nil).symm
  · rw [hserved.outbound]
    exact h.watched

lemma Ledger.deliverAnswer (h : Ledger bound w) : Ledger bound w.deliverAnswer := by
  rw [World.deliverAnswer]
  split
  · exact h
  · next message answers _ =>
    have hanswers : Ledger bound { w with answers := answers } := h.served ⟨rfl, rfl, rfl, rfl⟩
    exact hanswers.onWatchTerminated message

variable [DecidableEq κ] {tree : Tree π κ}

omit [DecidableEq ι] [DecidableEq π] in
lemma served_addWatcher (hserved : Served w w') (place : κ) (cell : Cell ι π)
    (proxy : RemoteWatcherRef ι π) : Served w (w'.addWatcher place cell proxy) := by
  rw [addWatcher]
  split <;> exact ⟨hserved.outbound, hserved.placed, hserved.ended, hserved.notifications⟩

lemma served_removeWatcher (hserved : Served w w') (tree : Tree π κ)
    (entry : InboundWatch ι π) : Served w (removeWatcher tree entry w') := by
  rcases removeWatcher_cases tree entry w' with hsame | ⟨_, _, -, hremoved⟩
  · rw [hsame]
    exact hserved
  · rw [hremoved]
    exact ⟨hserved.outbound, hserved.placed, hserved.ended, hserved.notifications⟩

lemma served_deliverRequest (tree : Tree π κ) (w : World ι π κ) :
    Served w (w.deliverRequest tree) := by
  rw [deliverRequest]
  split
  · exact ⟨rfl, rfl, rfl, rfl⟩
  · rw [onWatch]
    split
    · exact ⟨rfl, rfl, rfl, rfl⟩
    · refine served_addWatcher ?_ _ _ _
      exact ⟨rfl, rfl, rfl, rfl⟩
  · rw [onUnwatch]
    split
    · exact ⟨rfl, rfl, rfl, rfl⟩
    · split
      · exact ⟨rfl, rfl, rfl, rfl⟩
      · refine served_removeWatcher ?_ tree _
        exact ⟨rfl, rfl, rfl, rfl⟩

omit [DecidableEq ι] [DecidableEq π] in
lemma served_start (place : κ) (w : World ι π κ) : Served w (w.start place) := by
  rw [start]
  split <;> exact ⟨rfl, rfl, rfl, rfl⟩

omit [DecidableEq ι] [DecidableEq π] in
lemma served_terminate (place : κ) (w : World ι π κ) : Served w (w.terminate place) := by
  rw [terminate]
  split
  · exact ⟨rfl, rfl, rfl, rfl⟩
  · split <;> exact ⟨rfl, rfl, rfl, rfl⟩

omit [DecidableEq ι] [DecidableEq π] in
lemma served_forget (place : κ) (w : World ι π κ) : Served w (w.forget place) := by
  rw [forget]
  split
  · exact ⟨rfl, rfl, rfl, rfl⟩
  · split <;> exact ⟨rfl, rfl, rfl, rfl⟩

lemma Ledger.step (h : Ledger w.moment w) (tree : Tree π κ) (input : Input ι π κ) :
    Ledger (w.step tree input).moment (w.step tree input) := by
  have hlater := h.mono (le_succ w.moment)
  have hact : Ledger (w.moment + 1) (w.act tree input) := by
    cases input with
    | watch watcher subject => exact h.watch watcher subject
    | unwatch watcher subject => exact hlater.unwatch watcher subject
    | unwatchAll watcher => exact hlater.unwatchAll watcher
    | deliverRequest => exact hlater.served (served_deliverRequest tree w)
    | deliverAnswer => exact hlater.deliverAnswer
    | start place => exact hlater.served (served_start place w)
    | terminate place => exact hlater.served (served_terminate place w)
    | forget place => exact hlater.served (served_forget place w)
  exact hact.served ⟨rfl, rfl, rfl, rfl⟩

lemma ledger_run (tree : Tree π κ) (actors : List κ) (inputs : List (Input ι π κ)) :
    let w := run (step tree) (initial actors) inputs
    Ledger w.moment w := by
  refine invariant (I := fun w : World ι π κ => Ledger w.moment w)
    (fun w input _ h => h.step tree input) along_true ?_
  exact ⟨fun x => iff_of_false (fun hx => nomatch hx.1) fun hx => (nomatch hx),
    forall_mem_nil _, forall_mem_nil _, forall_mem_nil _, nodup_nil,
    fun _ _ hfound => nomatch hfound⟩

/-! ## Answers -/

omit [DecidableEq ι] [DecidableEq π] [DecidableEq κ] in
lemma watchable_eq_false_iff {p : π} : watchable tree p w = false ↔
    ∀ place cell, tree.place p = some place → tree.refused place = false →
      w.cells place = some cell → cell.terminated = true := by
  rw [watchable, Option.any_eq_false]
  constructor
  · intro h place cell hplace hrefused hcell
    simpa using h (place, cell) (resolve_eq_some_iff.2 ⟨hplace, hrefused, hcell⟩)
  · rintro h ⟨place, cell⟩ hresolve
    obtain ⟨hplace, hrefused, hcell⟩ := resolve_eq_some_iff.1 hresolve
    simpa using h place cell hplace hrefused hcell

/-- An answer that is given is given at a path where there is no actor to watch. -/
def Gives (tree : Tree π κ) (w w' : World ι π κ) : Prop :=
  ∀ message ∈ w'.answers, message ∈ w.answers ∨
    message.sent = w.moment + 1 ∧ watchable tree message.watchee w' = false

omit [DecidableEq ι] [DecidableEq π] [DecidableEq κ] in
lemma Gives.of_subset (h : ∀ message ∈ w'.answers, message ∈ w.answers) : Gives tree w w' :=
  fun message hmessage => .inl (h message hmessage)

omit [DecidableEq ι] [DecidableEq π] in
lemma gives_addWatcher {place : κ} {cell : Cell ι π} {proxy : RemoteWatcherRef ι π}
    (hplace : tree.place proxy.watchee = some place) (hcell : w'.cells place = some cell)
    (hanswers : w'.answers = w.answers) (hmoment : w'.moment = w.moment) :
    Gives tree w (w'.addWatcher place cell proxy) := by
  rw [addWatcher, hmoment]
  split
  · next hterminated =>
    intro message hmessage
    rw [answer, hanswers] at hmessage
    rcases mem_append.1 hmessage with hold | hnew
    · exact .inl hold
    · obtain rfl := mem_singleton.1 hnew
      refine .inr ⟨rfl, watchable_eq_false_iff.2 fun place' cell' hplace' _ hcell' => ?_⟩
      obtain rfl := some.inj (hplace.symm.trans hplace')
      obtain rfl := some.inj (hcell.symm.trans hcell')
      exact hterminated
  · refine Gives.of_subset ?_
    rw [← hanswers]
    exact fun _ hmessage => hmessage

lemma gives_onWatch (tree : Tree π κ) (watcher : ι) (watchee : π) (w : World ι π κ) :
    Gives tree w (w.onWatch tree watcher watchee) := by
  rw [onWatch]
  split
  · next hresolve =>
    intro message hmessage
    rcases mem_append.1 hmessage with hold | hnew
    · exact .inl hold
    · obtain rfl := mem_singleton.1 hnew
      refine .inr ⟨rfl, ?_⟩
      change (resolve tree watchee w).any _ = false
      rw [hresolve]
      rfl
  · next place target hresolve =>
    obtain ⟨hplace, -, -⟩ := resolve_eq_some_iff.1 hresolve
    exact gives_addWatcher hplace (update_self ..) rfl rfl

lemma gives_deliverRequest (tree : Tree π κ) (w : World ι π κ) :
    Gives tree w (w.deliverRequest tree) := by
  rw [deliverRequest]
  split
  · exact Gives.of_subset fun _ hmessage => hmessage
  · exact gives_onWatch tree _ _ _
  · rw [onUnwatch]
    refine Gives.of_subset ?_
    split
    · exact fun _ hmessage => hmessage
    · split
      · exact fun _ hmessage => hmessage
      · next entry _ =>
        rcases removeWatcher_cases tree entry _ with hsame | ⟨_, _, -, hremoved⟩
        · rw [hsame]
          exact fun _ hmessage => hmessage
        · rw [hremoved]
          exact fun _ hmessage => hmessage

lemma gives_terminate (h : Tables tree w) (place : κ) : Gives tree w (w.terminate place) := by
  rw [terminate]
  split
  · exact Gives.of_subset fun _ hmessage => hmessage
  · next cell hcell =>
    split
    · exact Gives.of_subset fun _ hmessage => hmessage
    · intro message hmessage
      rcases mem_append.1 hmessage with hold | hnew
      · exact .inl hold
      · obtain ⟨proxy, hproxy, rfl⟩ := mem_map.1 hnew
        refine .inr ⟨rfl, watchable_eq_false_iff.2 fun place' cell' hplace _ hcell' => ?_⟩
        have hhome := h.home place cell proxy hcell hproxy
        obtain rfl := some.inj (hhome.symm.trans hplace)
        simp only [update_self, some.injEq] at hcell'
        rw [← hcell']

lemma gives_step (h : Tables tree w) (input : Input ι π κ) :
    Gives tree w (w.step tree input) := by
  have hact : Gives tree w (w.act tree input) := by
    cases input with
    | watch watcher subject =>
      rw [act, watch]
      refine Gives.of_subset ?_
      split
      · split <;> exact fun _ hmessage => hmessage
      · exact fun _ hmessage => hmessage
    | unwatch watcher subject =>
      refine Gives.of_subset ?_
      rw [act, (w.unwatch_fields watcher subject).1]
      exact fun _ hmessage => hmessage
    | unwatchAll watcher =>
      refine Gives.of_subset ?_
      rw [act, (w.unwatchAll_fields watcher).1]
      exact fun _ hmessage => hmessage
    | deliverRequest => exact gives_deliverRequest tree w
    | deliverAnswer =>
      rw [act, deliverAnswer]
      refine Gives.of_subset ?_
      split
      · exact fun _ hmessage => hmessage
      · next hanswers =>
        rw [onWatchTerminated, hanswers]
        split <;> exact fun _ hmessage => mem_cons_of_mem _ hmessage
    | start place =>
      rw [act, start]
      refine Gives.of_subset ?_
      split <;> exact fun _ hmessage => hmessage
    | terminate place => exact gives_terminate h place
    | forget place =>
      rw [act, forget]
      refine Gives.of_subset ?_
      split
      · exact fun _ hmessage => hmessage
      · split <;> exact fun _ hmessage => hmessage
  exact hact

lemma told_step (w : World ι π κ) (input : Input ι π κ) (n : Notification ι π)
    (hn : n ∈ (w.step tree input).notifications) : n ∈ w.notifications ∨
      ∃ message ∈ w.answers, message.sent = n.sent ∧ message.watchee = n.watch.watchee := by
  change n ∈ (w.act tree input).notifications at hn
  cases input with
  | watch watcher subject =>
    rw [act, watch] at hn
    split at hn
    · split at hn <;> exact .inl hn
    · exact .inl hn
  | unwatch watcher subject =>
    rw [act, (w.unwatch_fields watcher subject).2.1] at hn
    exact .inl hn
  | unwatchAll watcher =>
    rw [act, (w.unwatchAll_fields watcher).2] at hn
    exact .inl hn
  | deliverRequest => exact .inl ((served_deliverRequest tree w).notifications ▸ hn)
  | deliverAnswer =>
    rw [act, deliverAnswer] at hn
    split at hn
    · exact .inl hn
    · next message answers hanswers =>
      rw [onWatchTerminated] at hn
      split at hn
      · exact .inl hn
      · refine (mem_append.1 hn).imp_right fun hnew => ?_
        obtain ⟨watch, hwatch, rfl⟩ := mem_map.1 hnew
        exact ⟨message, hanswers ▸ mem_cons_self, rfl, (mem_watchesOf.1 hwatch).1.symm⟩
  | start place => exact .inl ((served_start place w).notifications ▸ hn)
  | terminate place => exact .inl ((served_terminate place w).notifications ▸ hn)
  | forget place => exact .inl ((served_forget place w).notifications ▸ hn)

/-! ## Runs -/

lemma moment_run (tree : Tree π κ) (actors : List κ) (inputs : List (Input ι π κ)) :
    (run (step tree) (initial actors) inputs).moment = inputs.length := by
  induction inputs using reverseRecOn with
  | nil => rfl
  | append_singleton inputs input ih =>
    rw [run_append, length_append, ← ih]
    rfl

/-- After some of the inputs of a run there was no actor to watch at the path. -/
def WasGone (tree : Tree π κ) (actors : List κ) (inputs : List (Input ι π κ)) (p : π) (k : ℕ) :
    Prop :=
  k ≤ inputs.length ∧
    watchable tree p (Machine.run (World.step tree) (initial actors) (inputs.take k)) = false

lemma WasGone.append {actors : List κ} {inputs : List (Input ι π κ)} {p : π} {k : ℕ}
    (h : WasGone tree actors inputs p k) (later : List (Input ι π κ)) :
    WasGone tree actors (inputs ++ later) p k := by
  refine ⟨h.1.trans ?_, ?_⟩
  · rw [length_append]
    exact le_add_right _ _
  · rw [take_append_of_le_length h.1]
    exact h.2

/-- Answers were given when there was no actor to watch, also those that watchers were told. -/
lemma wasGone_run (tree : Tree π κ) (actors : List κ) (inputs : List (Input ι π κ)) :
    let w := run (step tree) (initial actors) inputs
    (∀ message ∈ w.answers, WasGone tree actors inputs message.watchee message.sent) ∧
      ∀ n ∈ w.notifications, WasGone tree actors inputs n.watch.watchee n.sent := by
  induction inputs using reverseRecOn with
  | nil => exact ⟨forall_mem_nil _, forall_mem_nil _⟩
  | append_singleton inputs input ih =>
    obtain ⟨hanswers, htold⟩ := ih
    have hrun : run (step tree) (initial actors) (inputs ++ [input]) =
        (run (step tree) (initial actors) inputs).step tree input :=
      run_append ..
    simp only
    rw [hrun]
    refine ⟨fun message hmessage => ?_, fun n hn => ?_⟩
    · rcases gives_step (tables_run tree actors inputs) input message hmessage with
        hold | ⟨hsent, hgone⟩
      · exact (hanswers message hold).append [input]
      · rw [moment_run] at hsent
        have hlength : message.sent = (inputs ++ [input]).length := by
          rw [hsent, length_append, length_singleton]
        refine ⟨hlength.le, ?_⟩
        rw [hlength, take_length, hrun]
        exact hgone
    · rcases told_step _ input n hn with hold | ⟨message, hmessage, hsent, hp⟩
      · exact (htold n hold).append [input]
      · rw [← hsent, ← hp]
        exact (hanswers message hmessage).append [input]

/-- In every run a watcher is told at most once for a watch, and where the answer was given after
the watch was placed, at some moment since then there was no actor to watch. A watch that has not
ended is asked for, planted or answered, and the tables are accounted for. -/
theorem told_once_run (tree : Tree π κ) (actors : List κ) (inputs : List (Input ι π κ)) :
    let world := run (World.step tree) (initial actors)
    let w := world inputs
    (w.notifications.map Notification.watch).Nodup ∧
      (∀ n ∈ w.notifications, n.watch ∈ w.placed ∧ (n.watch.placed ≤ n.sent →
        ∃ k, n.watch.placed ≤ k ∧ k ≤ inputs.length ∧
          watchable tree n.watch.watchee (world (inputs.take k)) = false)) ∧
      (∀ x ∈ w.placed, x ∉ w.ended →
        ∃ name, w.announced x.watchee = some name ∧ Covered tree w name x.watchee) ∧
      (∀ p entry, w.outbound.get? p = some entry → 0 < entry.watchers.size ∧
        ∀ watcher placed, entry.watchers.get? watcher = some placed →
          ⟨watcher, p, placed⟩ ∈ w.placed ∧ ⟨watcher, p, placed⟩ ∉ w.ended) ∧
      ∀ name p, w.HasRow name p → w.Accounted w.requests name p := by
  have hledger := ledger_run tree actors inputs
  have htables := tables_run tree actors inputs
  refine ⟨hledger.once, fun n hn => ?_, fun x hplaced hended => ?_, fun p entry hentry => ?_,
    htables.rows⟩
  · refine ⟨hledger.known _ (hledger.notified n hn), fun hle => ⟨n.sent, hle, ?_⟩⟩
    exact (wasGone_run tree actors inputs).2 n hn
  · have hcurrent := (hledger.live x).1 ⟨hplaced, hended⟩
    rw [current, bind_eq_some_iff] at hcurrent
    obtain ⟨entry, hentry, -⟩ := hcurrent
    refine ⟨entry.announcedWatcher, ?_, htables.covered x.watchee _ ?_⟩ <;>
      rw [announced, hentry, map_some]
  · refine ⟨hledger.watched p entry hentry, fun watcher placed hget => ?_⟩
    refine (hledger.live ⟨watcher, p, placed⟩).2 ?_
    rw [current, hentry]
    exact hget

/-- Three runs between two nodes, of which the second does not let a peer name its actor 1. A watch
of that actor is answered while it runs; an answer for a withdrawn watch ends one of the actor that
was started in the place; and a watched actor terminates, and its node keeps the row. -/
theorem not_told_truly :
    let tree : Tree ℕ ℕ := ⟨some, fun place => place == 1⟩
    let world := run (World.step tree) (initial [1, 2] : World ℕ ℕ ℕ)
    let refused : List (Input ℕ ℕ ℕ) := [.watch 7 1, .deliverRequest, .deliverAnswer]
    let stale : List (Input ℕ ℕ ℕ) := [.watch 7 2, .deliverRequest, .terminate 2, .unwatch 7 2,
      .forget 2, .start 2, .watch 7 2, .deliverAnswer]
    let died : List (Input ℕ ℕ ℕ) := [.watch 7 2, .deliverRequest, .terminate 2, .deliverAnswer]
    ((world refused).notifications.map Notification.watch = [⟨7, 1, 1⟩] ∧
      ∀ k ≤ refused.length, running tree 1 (world (refused.take k)) = true) ∧
      ((world stale).notifications.map Notification.watch = [⟨7, 2, 7⟩] ∧
        ∀ k ≤ stale.length, 7 ≤ k → running tree 2 (world (stale.take k)) = true) ∧
      ((world died).notifications.map Notification.watch = [⟨7, 2, 1⟩] ∧
        (world died).ended = [⟨7, 2, 1⟩] ∧ (world died).requests = [] ∧
          ((world died).inbound.get? 2).any (·.has 7) = true) := by
  decide

end World

end ActorTs.Cluster.RemoteWatcher
