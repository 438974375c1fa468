import ActorTs.Cluster.RemoteWatcher

/-!
# The tables and frames of a remote watch

What the watching node has an entry for is asked for, planted or answered: the request is on its way
and no withdrawal behind it, or there is a proxy in the running actor at the path and no withdrawal
on its way, or an answer about the path is. And what the watched node has a row for, or will have,
the watching node has an entry for in the same name, or a withdrawal is on its way, or an answer
ended the last watch in that name.

Requests are delivered in order, so both are said along the list of those in flight.
-/

open List Option OrderedMap Function

namespace ActorTs.Cluster.RemoteWatcher

open Machine OutboundWatch World

variable {ι π κ : Type*}

/-! ## Requests in flight -/

/-- A watch is in flight, and no withdrawal of it behind it. -/
def Asked (name : ι) (p : π) : List (Request ι π) → Prop
  | [] => False
  | request :: requests =>
    request = .watch name p ∧ .unwatch name p ∉ requests ∨ Asked name p requests

/-- A proxy for the path is in the running actor there, in a place that peers may name. -/
def Planted (tree : Tree π κ) (cells : κ → Option (Cell ι π)) (name : ι) (p : π) : Prop :=
  ∃ place cell proxy, tree.place p = some place ∧ tree.refused place = false ∧
    cells place = some cell ∧ cell.terminated = false ∧ proxy ∈ cell.watchers ∧
      proxy.watcher = name ∧ proxy.watchee = p

lemma asked_append {name : ι} {p : π} {requests : List (Request ι π)} {request : Request ι π}
    (hne : request ≠ .unwatch name p) (h : Asked name p requests) :
    Asked name p (requests ++ [request]) := by
  induction requests with
  | nil => exact h.elim
  | cons first requests ih =>
    rcases h with ⟨hfirst, hnone⟩ | h
    · refine .inl ⟨hfirst, fun hmem => ?_⟩
      rcases mem_append.1 hmem with hmem | hmem
      · exact hnone hmem
      · exact hne (mem_singleton.1 hmem).symm
    · exact .inr (ih h)

lemma asked_append_self (name : ι) (p : π) (requests : List (Request ι π)) :
    Asked name p (requests ++ [.watch name p]) := by
  induction requests with
  | nil => exact .inl ⟨rfl, not_mem_nil⟩
  | cons first requests ih => exact .inr ih

namespace World

variable {tree : Tree π κ} {w w' : World ι π κ} {name : ι} {p : π}

variable {place : κ}

lemma resolve_eq_some_iff {cell : Cell ι π} :
    resolve tree p w = some (place, cell) ↔
      tree.place p = some place ∧ tree.refused place = false ∧ w.cells place = some cell := by
  rw [resolve]
  cases tree.place p with
  | none => simp
  | some found =>
    simp only [some.injEq]
    split
    · next hrefused =>
      constructor
      · rintro ⟨⟩
      · rintro ⟨rfl, hnot, -⟩
        exact absurd hrefused (by simp [hnot])
    · next hrefused =>
      rw [map_eq_some_iff]
      constructor
      · rintro ⟨cell', hcell, heq⟩
        cases heq
        exact ⟨rfl, by simpa using hrefused, hcell⟩
      · rintro ⟨rfl, -, hcell⟩
        exact ⟨cell, hcell, rfl⟩

variable [DecidableEq ι] [DecidableEq π]

/-- The name in which a path is watched. -/
def announced (w : World ι π κ) (p : π) : Option ι :=
  (w.outbound.get? p).map OutboundWatch.announcedWatcher

/-- The watched node has a row for a name and a path. -/
def HasRow (w : World ι π κ) (name : ι) (p : π) : Prop :=
  ∃ byWatcher entry, w.inbound.get? p = some byWatcher ∧ byWatcher.get? name = some entry

def Covered (tree : Tree π κ) (w : World ι π κ) (name : ι) (p : π) : Prop :=
  Asked name p w.requests ∨
    (.unwatch name p ∉ w.requests ∧ Planted tree w.cells name p) ∨
      ∃ message ∈ w.answers, message.watchee = p

/-- What there is to say for a row, with the requests that come after it was asked for. -/
def Accounted (w : World ι π κ) (requests : List (Request ι π)) (name : ι) (p : π) : Prop :=
  w.announced p = some name ∨ .unwatch name p ∈ requests ∨ (name, p) ∈ w.answered

/-- There is something to say for every row that a request in flight will make. -/
def Pending (w : World ι π κ) : List (Request ι π) → Prop
  | [] => True
  | .watch name p :: requests => w.Accounted requests name p ∧ w.Pending requests
  | .unwatch _ _ :: requests => w.Pending requests

structure Tables (tree : Tree π κ) (w : World ι π κ) : Prop where
  shape : ∀ p byWatcher name entry, w.inbound.get? p = some byWatcher →
    byWatcher.get? name = some entry → entry.proxy.watcher = name ∧ entry.proxy.watchee = p
  home : ∀ place cell proxy, w.cells place = some cell → proxy ∈ cell.watchers →
    tree.place proxy.watchee = some place
  covered : ∀ p name, w.announced p = some name → Covered tree w name p
  rows : ∀ name p, w.HasRow name p → w.Accounted w.requests name p
  pending : w.Pending w.requests

variable {requests : List (Request ι π)}

omit [DecidableEq ι] in
/-- What is said for rows is still said in another world, perhaps with one request more. -/
lemma Pending.append {extra : List (Request ι π)} (h : w.Pending requests)
    (hsame : ∀ name p requests, w.Accounted requests name p →
      w'.Accounted (requests ++ extra) name p) (hextra : w'.Pending extra) :
    w'.Pending (requests ++ extra) := by
  induction requests with
  | nil => exact hextra
  | cons request requests ih =>
    cases request with
    | watch name p => exact ⟨hsame name p requests h.1, ih h.2⟩
    | unwatch name p => exact ih h

omit [DecidableEq ι] in
lemma Pending.mono (h : w.Pending requests)
    (hsame : ∀ name p requests, w.Accounted requests name p → w'.Accounted requests name p) :
    w'.Pending requests := by
  rw [← append_nil requests]
  refine h.append (fun name p requests haccounted => ?_) trivial
  rw [append_nil]
  exact hsame name p requests haccounted

variable {extra : List (Request ι π)}

section

variable (h : Tables tree w)
include h

/-- The rows stay as they are, and something is still said for each. -/
lemma Tables.carry (hrequests : w'.requests = w.requests ++ extra)
    (hinbound : w'.inbound = w.inbound)
    (hhome : ∀ place cell proxy, w'.cells place = some cell → proxy ∈ cell.watchers →
      tree.place proxy.watchee = some place)
    (hcovered : ∀ p name, w'.announced p = some name → Covered tree w' name p)
    (hsame : ∀ name p requests, w.Accounted requests name p →
      w'.Accounted (requests ++ extra) name p) (hextra : w'.Pending extra) : Tables tree w' where
  shape := hinbound ▸ h.shape
  home := hhome
  covered := hcovered
  rows name p hrow := by
    rw [HasRow, hinbound] at hrow
    exact hrequests ▸ hsame name p _ (h.rows name p hrow)
  pending := hrequests ▸ h.pending.append hsame hextra

/-! ## Changes of the watching node -/

variable {watcher : ι} {subject : π}

lemma Tables.ask (hnone : w.announced subject = none)
    (hannounced : ∀ p, w'.announced p = if p = subject then some watcher else w.announced p)
    (hrequests : w'.requests = w.requests ++ [.watch watcher subject])
    (hanswered : w'.answered = w.answered.filter (· ≠ (watcher, subject)))
    (hinbound : w'.inbound = w.inbound) (hcells : w'.cells = w.cells)
    (hanswers : w'.answers = w.answers) : Tables tree w' := by
  have haccounted : ∀ name p requests, w.Accounted requests name p →
      w'.Accounted (requests ++ [.watch watcher subject]) name p := by
    rintro name p requests (hname | hmem | hmem)
    · refine .inl ((hannounced p).trans ?_)
      rw [if_neg]
      · exact hname
      · rintro rfl
        exact nomatch hnone.symm.trans hname
    · exact .inr (.inl (mem_append_left _ hmem))
    · rcases eq_or_ne (name, p) (watcher, subject) with heq | hne
      · obtain ⟨rfl, rfl⟩ := Prod.mk.injEq .. ▸ heq
        exact .inl ((hannounced p).trans (if_pos rfl))
      · refine .inr (.inr ?_)
        rw [hanswered]
        exact mem_filter.2 ⟨hmem, decide_eq_true hne⟩
  refine h.carry hrequests hinbound (hcells ▸ h.home) (fun p name hname => ?_) haccounted
    ⟨.inl ((hannounced subject).trans (if_pos rfl)), trivial⟩
  rw [hannounced] at hname
  rw [Covered, hrequests, hcells, hanswers]
  split at hname
  · next heq =>
    obtain rfl := some.inj hname
    subst heq
    exact .inl (asked_append_self watcher p w.requests)
  · rcases h.covered p name hname with hasked | ⟨hnone, hplanted⟩ | hanswer
    · exact .inl (asked_append (by simp) hasked)
    · exact .inr (.inl ⟨by simp [hnone], hplanted⟩)
    · exact .inr (.inr hanswer)

lemma Tables.withdraw (hname : w.announced subject = some name)
    (hannounced : ∀ p, w'.announced p = if p = subject then none else w.announced p)
    (hrequests : w'.requests = w.requests ++ [.unwatch name subject])
    (hanswered : w'.answered = w.answered) (hinbound : w'.inbound = w.inbound)
    (hcells : w'.cells = w.cells) (hanswers : w'.answers = w.answers) : Tables tree w' := by
  have haccounted : ∀ name' p requests, w.Accounted requests name' p →
      w'.Accounted (requests ++ [.unwatch name subject]) name' p := by
    rintro name' p requests (hname' | hmem | hmem)
    · rcases eq_or_ne p subject with rfl | hne
      · obtain rfl := some.inj (hname'.symm.trans hname)
        exact .inr (.inl (mem_append_right _ mem_cons_self))
      · exact .inl ((hannounced p).trans ((if_neg hne).trans hname'))
    · exact .inr (.inl (mem_append_left _ hmem))
    · exact .inr (.inr (hanswered ▸ hmem))
  refine h.carry hrequests hinbound (hcells ▸ h.home) (fun p name' hname' => ?_) haccounted trivial
  rw [hannounced] at hname'
  rw [Covered, hrequests, hcells, hanswers]
  split at hname'
  · cases hname'
  · next hne =>
    have hother : Request.unwatch name' p ≠ .unwatch name subject := by
      rintro ⟨⟩
      exact hne rfl
    rcases h.covered p name' hname' with hasked | ⟨hnone, hplanted⟩ | hanswer
    · exact .inl (asked_append hother.symm hasked)
    · exact .inr (.inl ⟨by simp [hnone, hother], hplanted⟩)
    · exact .inr (.inr hanswer)

lemma Tables.answer {message : WatchTerminated ι π} (hanswers : w.answers = message :: w'.answers)
    (hannounced : ∀ p, w'.announced p = if p = message.watchee then none else w.announced p)
    (hanswered : ∀ name p, w.announced p = some name ∧ p = message.watchee ∨
      (name, p) ∈ w.answered → (name, p) ∈ w'.answered)
    (hrequests : w'.requests = w.requests) (hinbound : w'.inbound = w.inbound)
    (hcells : w'.cells = w.cells) : Tables tree w' := by
  have haccounted : ∀ name p requests, w.Accounted requests name p →
      w'.Accounted (requests ++ []) name p := by
    rintro name p requests (hname | hmem | hmem) <;> rw [append_nil]
    · rcases eq_or_ne p message.watchee with heq | hne
      · exact .inr (.inr (hanswered name p (.inl ⟨hname, heq⟩)))
      · exact .inl ((hannounced p).trans ((if_neg hne).trans hname))
    · exact .inr (.inl hmem)
    · exact .inr (.inr (hanswered name p (.inr hmem)))
  refine h.carry (hrequests.trans (append_nil _).symm) hinbound (hcells ▸ h.home)
    (fun p name hname => ?_) haccounted trivial
  rw [hannounced] at hname
  rw [Covered, hrequests, hcells]
  split at hname
  · cases hname
  · next hne =>
    rcases h.covered p name hname with hasked | hplanted | ⟨other, hother, hp⟩
    · exact .inl hasked
    · exact .inr (.inl hplanted)
    · rw [hanswers] at hother
      rcases mem_cons.1 hother with rfl | hother
      · exact absurd hp.symm hne
      · exact .inr (.inr ⟨other, hother, hp⟩)

/-! ## Changes of the watched node -/

lemma Tables.serve {request : Request ι π}
    (hrequests : w.requests = request :: w'.requests) (houtbound : w'.outbound = w.outbound)
    (hanswered : w'.answered = w.answered)
    (hshape : ∀ p byWatcher name entry, w'.inbound.get? p = some byWatcher →
      byWatcher.get? name = some entry → entry.proxy.watcher = name ∧ entry.proxy.watchee = p)
    (hhome : ∀ place cell proxy, w'.cells place = some cell → proxy ∈ cell.watchers →
      tree.place proxy.watchee = some place)
    (hanswers : ∀ message ∈ w.answers, message ∈ w'.answers)
    (hwatch : ∀ name p, request = .watch name p →
      Planted tree w'.cells name p ∨ ∃ message ∈ w'.answers, message.watchee = p)
    (hkept : ∀ name p, request ≠ .unwatch name p → Planted tree w.cells name p →
      Planted tree w'.cells name p)
    (hrows : ∀ name p, w'.HasRow name p →
      request = .watch name p ∨ request ≠ .unwatch name p ∧ w.HasRow name p) :
    Tables tree w' := by
  have hannounced : ∀ p, w'.announced p = w.announced p := by
    intro p
    rw [announced, announced, houtbound]
  have haccounted : ∀ name p requests, w.Accounted requests name p →
      w'.Accounted requests name p := by
    intro name p requests haccounted
    rwa [Accounted, hannounced, hanswered]
  have hpending := h.pending
  rw [hrequests] at hpending
  refine ⟨hshape, hhome, ?_, ?_, ?_⟩
  · intro p name hname
    rw [hannounced] at hname
    have hcovered := h.covered p name hname
    rw [Covered, hrequests] at hcovered
    rcases hcovered with (⟨hfirst, hnone⟩ | hasked) | ⟨hnone, hplanted⟩ | ⟨message, hmem, hp⟩
    · exact .inr ((hwatch name p hfirst).imp (fun hplanted => ⟨hnone, hplanted⟩)
        fun hanswer => hanswer)
    · exact .inl hasked
    · rw [List.mem_cons, not_or] at hnone
      exact .inr (.inl ⟨hnone.2, hkept name p (Ne.symm hnone.1) hplanted⟩)
    · exact .inr (.inr ⟨message, hanswers message hmem, hp⟩)
  · intro name p hrow
    rcases hrows name p hrow with rfl | ⟨hne, hrow⟩
    · exact haccounted name p _ hpending.1
    · refine haccounted name p _ ?_
      have hold := h.rows name p hrow
      rw [hrequests] at hold
      refine hold.imp (fun hname => hname) (Or.imp (fun hmem => ?_) fun hmem => hmem)
      exact (List.mem_cons.1 hmem).resolve_left (Ne.symm hne)
  · cases request with
    | watch name p => exact hpending.2.mono haccounted
    | unwatch name p => exact Pending.mono hpending haccounted

lemma Tables.actors (hannounced : ∀ p, w'.announced p = w.announced p)
    (hrequests : w'.requests = w.requests) (hanswered : w'.answered = w.answered)
    (hinbound : w'.inbound = w.inbound)
    (hhome : ∀ place cell proxy, w'.cells place = some cell → proxy ∈ cell.watchers →
      tree.place proxy.watchee = some place)
    (hanswers : ∀ message ∈ w.answers, message ∈ w'.answers)
    (hkept : ∀ name p, Planted tree w.cells name p →
      Planted tree w'.cells name p ∨ ∃ message ∈ w'.answers, message.watchee = p) :
    Tables tree w' := by
  refine h.carry (hrequests.trans (append_nil _).symm) hinbound hhome
    (fun p name hname => ?_) (fun name p requests haccounted => ?_) trivial
  · rw [hannounced] at hname
    rw [Covered, hrequests]
    rcases h.covered p name hname with hasked | ⟨hnone, hplanted⟩ | ⟨message, hmem, hp⟩
    · exact .inl hasked
    · exact .inr ((hkept name p hplanted).imp (fun hplanted => ⟨hnone, hplanted⟩)
        fun hanswer => hanswer)
    · exact .inr (.inr ⟨message, hanswers message hmem, hp⟩)
  · rwa [Accounted, hannounced, hanswered, append_nil]

end

omit [DecidableEq ι] in
lemma announced_set (outbound : OrderedMap π (OutboundWatch ι)) (subject : π)
    (entry : OutboundWatch ι) (p : π) :
    ((outbound.set subject entry).get? p).map announcedWatcher
      = if p = subject then some entry.announcedWatcher
        else (outbound.get? p).map announcedWatcher := by
  rw [get?_set]
  rcases eq_or_ne subject p with rfl | hne
  · rw [if_pos rfl, if_pos rfl, map_some]
  · rw [if_neg hne, if_neg hne.symm]

omit [DecidableEq ι] in
lemma announced_delete (outbound : OrderedMap π (OutboundWatch ι)) (subject p : π) :
    ((outbound.delete subject).get? p).map announcedWatcher
      = if p = subject then none else (outbound.get? p).map announcedWatcher := by
  rw [get?_delete]
  rcases eq_or_ne subject p with rfl | hne
  · rw [if_pos rfl, if_pos rfl, map_none]
  · rw [if_neg hne, if_neg hne.symm]

lemma Tables.watch (h : Tables tree w) (watcher : ι) (subject : π) :
    Tables tree (w.watch watcher subject) := by
  rw [World.watch]
  split
  · next existing hexisting =>
    split
    · exact h
    · refine h.actors (fun p => ?_) rfl rfl rfl h.home (fun _ hmem => hmem)
        fun _ _ hplanted => .inl hplanted
      refine (announced_set ..).trans ?_
      rcases eq_or_ne p subject with rfl | hne
      · rw [if_pos rfl, announced, hexisting, map_some]
      · rw [if_neg hne, announced]
  · next hnone =>
    refine h.ask ?_ (announced_set _ _ _) rfl rfl rfl rfl rfl
    rw [announced, hnone, map_none]

lemma Tables.unwatch (h : Tables tree w) (watcher : ι) (subject : π) :
    Tables tree (w.unwatch watcher subject) := by
  rw [World.unwatch]
  split
  · exact h
  · next entry hentry =>
    have hname : w.announced subject = some entry.announcedWatcher := by
      rw [announced, hentry, map_some]
    simp only
    split
    · refine h.actors (fun p => ?_) rfl rfl rfl h.home (fun _ hmem => hmem)
        fun _ _ hplanted => .inl hplanted
      refine (announced_set ..).trans ?_
      rcases eq_or_ne p subject with rfl | hne
      · rw [if_pos rfl, hname]
      · rw [if_neg hne, announced]
    · exact h.withdraw hname (announced_delete _ _) rfl rfl rfl rfl rfl

lemma Tables.unwatchAll (h : Tables tree w) (watcher : ι) :
    Tables tree (w.unwatchAll watcher) := by
  refine foldlRecOn _ _ h fun w' h' entry _ => ?_
  split
  · exact h'.unwatch watcher entry.1
  · exact h'

lemma Tables.deliverAnswer (h : Tables tree w) : Tables tree w.deliverAnswer := by
  rw [World.deliverAnswer]
  split
  · exact h
  · next message answers hanswers =>
    rw [onWatchTerminated]
    split
    · next hnone =>
      have hunwatched : w.announced message.watchee = none := by
        rw [announced, hnone, map_none]
      refine h.answer hanswers (fun p => ?_) ?_ rfl rfl rfl
      · rcases eq_or_ne p message.watchee with rfl | hne
        · rw [if_pos rfl, announced, hnone, map_none]
        · rw [if_neg hne, announced, announced]
      · rintro name p (⟨hname, rfl⟩ | hmem)
        · exact nomatch hunwatched.symm.trans hname
        · exact hmem
    · next entry hentry =>
      refine h.answer hanswers (announced_delete _ _) ?_ rfl rfl rfl
      rintro name p (⟨hname, rfl⟩ | hmem)
      · rw [announced, hentry, map_some, some.injEq] at hname
        exact mem_append_right _ (mem_singleton.2 (by rw [hname]))
      · exact mem_append_left _ hmem

variable [DecidableEq κ]

lemma tables_initial (actors : List κ) : Tables tree (initial actors : World ι π κ) where
  shape _ _ _ _ h := nomatch h
  home place cell proxy hcell hproxy := by
    rw [initial] at hcell
    simp only at hcell
    split at hcell
    · cases hcell
      cases hproxy
    · cases hcell
  covered _ _ h := nomatch h
  rows _ _ h := by
    obtain ⟨_, _, h, -⟩ := h
    cases h
  pending := trivial

omit [DecidableEq ι] [DecidableEq π] in
/-- In a cell that is changed in place what is planted stays, unless its proxy is taken out. -/
lemma planted_update {cells : κ → Option (Cell ι π)} {cell cell' : Cell ι π}
    (hcell : cells place = some cell) (hterminated : cell'.terminated = cell.terminated)
    (hkept : cell.terminated = false → ∀ proxy ∈ cell.watchers, proxy.watcher = name →
      proxy.watchee = p → ∃ proxy' ∈ cell'.watchers, proxy'.watcher = name ∧ proxy'.watchee = p)
    (h : Planted tree cells name p) :
    Planted tree (update cells place (some cell')) name p := by
  obtain ⟨place', cell₁, proxy, hplace, hrefused, hcell₁, hrunning, hproxy, hname, hp⟩ := h
  rcases eq_or_ne place' place with rfl | hne
  · obtain rfl := some.inj (hcell.symm.trans hcell₁)
    obtain ⟨proxy', hproxy', hname', hp'⟩ := hkept hrunning proxy hproxy hname hp
    exact ⟨place', cell', proxy', hplace, hrefused, update_self .., hterminated ▸ hrunning,
      hproxy', hname', hp'⟩
  · exact ⟨place', cell₁, proxy, hplace, hrefused, (update_of_ne hne ..).trans hcell₁,
      hrunning, hproxy, hname, hp⟩

omit [DecidableEq ι] [DecidableEq π] in
lemma home_update {cells : κ → Option (Cell ι π)} {cell' : Option (Cell ι π)}
    (hhome : ∀ place cell proxy, cells place = some cell → proxy ∈ cell.watchers →
      tree.place proxy.watchee = some place)
    (hcell : ∀ cell proxy, cell' = some cell → proxy ∈ cell.watchers →
      tree.place proxy.watchee = some place) (place' : κ) (cell : Cell ι π)
    (proxy : RemoteWatcherRef ι π) (hfound : update cells place cell' place' = some cell)
    (hproxy : proxy ∈ cell.watchers) : tree.place proxy.watchee = some place' := by
  rcases eq_or_ne place' place with rfl | hne
  · rw [update_self] at hfound
    exact hcell cell proxy hfound hproxy
  · rw [update_of_ne hne] at hfound
    exact hhome place' cell proxy hfound hproxy

variable {watchee : π}

lemma row_of_set {inbound : OrderedMap π (OrderedMap ι (InboundWatch ι π))}
    {made entry : InboundWatch ι π} {byWatcher : OrderedMap ι (InboundWatch ι π)}
    (hp : (inbound.set watchee (((inbound.get? watchee).getD .empty).set watcher made)).get? p
      = some byWatcher) (hname : byWatcher.get? name = some entry) :
    name = watcher ∧ p = watchee ∧ entry = made ∨
      ∃ before, inbound.get? p = some before ∧ before.get? name = some entry := by
  rw [get?_set] at hp
  split at hp
  · next heq =>
    obtain rfl := heq
    obtain rfl := some.inj hp
    rw [get?_set] at hname
    split at hname
    · next heq => exact .inl ⟨heq.symm, rfl, (some.inj hname).symm⟩
    · cases hbefore : inbound.get? watchee with
      | none =>
        rw [hbefore] at hname
        cases hname
      | some before =>
        rw [hbefore] at hname
        exact .inr ⟨before, rfl, hname⟩
  · exact .inr ⟨byWatcher, hp, hname⟩

/-- A row that is read after one was taken out was there before, and is another one. -/
lemma row_of_delete {inbound : OrderedMap π (OrderedMap ι (InboundWatch ι π))}
    {entry : InboundWatch ι π} {before byWatcher : OrderedMap ι (InboundWatch ι π)}
    (hbefore : inbound.get? watchee = some before)
    (hp : (if (before.delete watcher).size = 0 then inbound.delete watchee
      else inbound.set watchee (before.delete watcher)).get? p = some byWatcher)
    (hname : byWatcher.get? name = some entry) :
    (name, p) ≠ (watcher, watchee) ∧
      ∃ before, inbound.get? p = some before ∧ before.get? name = some entry := by
  have hcase : p = watchee ∧ byWatcher = before.delete watcher ∨
      p ≠ watchee ∧ inbound.get? p = some byWatcher := by
    split at hp
    · rw [get?_delete] at hp
      split at hp
      · cases hp
      · next hne => exact .inr ⟨Ne.symm hne, hp⟩
    · rw [get?_set] at hp
      split at hp
      · next heq => exact .inl ⟨heq.symm, (some.inj hp).symm⟩
      · next hne => exact .inr ⟨Ne.symm hne, hp⟩
  rcases hcase with ⟨rfl, rfl⟩ | ⟨hne, hp⟩
  · rw [get?_delete] at hname
    split at hname
    · cases hname
    · next hne =>
      exact ⟨fun heq => hne (congrArg Prod.fst heq).symm, before, hbefore, hname⟩
  · exact ⟨fun heq => hne (congrArg Prod.snd heq), byWatcher, hp, hname⟩

/-- The watched node makes a row, and plants a proxy in place of those of the same name and
path that it does not keep. -/
lemma Tables.plant (h : Tables tree w) {target : Cell ι π} {kept : List (RemoteWatcherRef ι π)}
    (hrequests : w.requests = .watch watcher watchee :: requests)
    (hplace : tree.place watchee = some place) (hrefused : tree.refused place = false)
    (hcell : w.cells place = some target) (hsub : ∀ proxy ∈ kept, proxy ∈ target.watchers)
    (hkept : ∀ proxy ∈ target.watchers,
      proxy ∈ kept ∨ proxy.watcher = watcher ∧ proxy.watchee = watchee) :
    Tables tree (addWatcher place { target with watchers := kept } ⟨watcher, watchee, w.serial⟩
      { w with
        requests := requests
        inbound := w.inbound.set watchee (((w.inbound.get? watchee).getD .empty).set watcher
          ⟨target.id, ⟨watcher, watchee, w.serial⟩⟩)
        cells := update w.cells place (some { target with watchers := kept })
        serial := w.serial + 1 }) := by
  generalize hmade : (⟨target.id, ⟨watcher, watchee, w.serial⟩⟩ : InboundWatch ι π) = made
  have hshape : ∀ p byWatcher name entry,
      (w.inbound.set watchee (((w.inbound.get? watchee).getD .empty).set watcher made)).get? p
        = some byWatcher → byWatcher.get? name = some entry →
      entry.proxy.watcher = name ∧ entry.proxy.watchee = p := by
    intro p byWatcher name entry hp hname
    rcases row_of_set hp hname with ⟨rfl, rfl, rfl⟩ | ⟨before, hp, hname⟩
    · rw [← hmade]
      exact ⟨rfl, rfl⟩
    · exact h.shape p before name entry hp hname
  have hrows : ∀ name p, (∃ byWatcher entry,
      (w.inbound.set watchee (((w.inbound.get? watchee).getD .empty).set watcher made)).get? p
        = some byWatcher ∧ byWatcher.get? name = some entry) →
      Request.watch watcher watchee = .watch name p ∨
        Request.watch watcher watchee ≠ .unwatch name p ∧ w.HasRow name p := by
    rintro name p ⟨byWatcher, entry, hp, hname⟩
    rcases row_of_set hp hname with ⟨rfl, rfl, -⟩ | ⟨before, hp, hname⟩
    · exact .inl rfl
    · exact .inr ⟨by simp, before, entry, hp, hname⟩
  rw [addWatcher]
  split
  · next hterminated =>
    refine h.serve hrequests rfl rfl hshape ?_
      (fun message hmem => mem_append_left _ hmem) (fun name p heq => ?_) ?_ hrows
    · refine home_update h.home fun cell proxy hfound hproxy => ?_
      cases hfound
      exact h.home place target proxy hcell (hsub proxy hproxy)
    · cases heq
      exact .inr ⟨_, mem_append_right _ mem_cons_self, rfl⟩
    · intro name p _ hplanted
      refine planted_update hcell rfl (fun hrunning => ?_) hplanted
      exact absurd (hrunning.symm.trans hterminated) Bool.false_ne_true
  · next hrunning =>
    have hnew : (⟨watcher, watchee, w.serial⟩ : RemoteWatcherRef ι π) ∈
        kept ++ [⟨watcher, watchee, w.serial⟩] :=
      mem_append_right _ mem_cons_self
    simp only [update_idem]
    refine h.serve hrequests rfl rfl hshape ?_ (fun message hmem => hmem)
      (fun name p heq => ?_) ?_ hrows
    · refine home_update h.home fun cell proxy hfound hproxy => ?_
      cases hfound
      rcases mem_append.1 hproxy with hproxy | hproxy
      · exact h.home place target proxy hcell (hsub proxy hproxy)
      · obtain rfl := mem_singleton.1 hproxy
        exact hplace
    · cases heq
      exact .inl ⟨place, _, _, hplace, hrefused, update_self ..,
        Bool.eq_false_iff.2 hrunning, hnew, rfl, rfl⟩
    · intro name p _ hplanted
      refine planted_update hcell rfl (fun _ proxy hproxy hname hp => ?_) hplanted
      rcases hkept proxy hproxy with hproxy | ⟨hwatcher, hwatchee⟩
      · exact ⟨proxy, mem_append_left _ hproxy, hname, hp⟩
      · exact ⟨_, hnew, hwatcher.symm.trans hname, hwatchee.symm.trans hp⟩

lemma Tables.onWatch (h : Tables tree w)
    (hrequests : w.requests = .watch watcher watchee :: requests) :
    Tables tree (onWatch tree watcher watchee { w with requests := requests }) := by
  rw [World.onWatch]
  split
  · next hresolve =>
    refine h.serve hrequests rfl rfl h.shape h.home
      (fun message hmem => mem_append_left _ hmem) (fun name p heq => ?_)
      (fun name p _ hplanted => hplanted) (fun name p hrow => .inr ⟨by simp, hrow⟩)
    cases heq
    exact .inr ⟨_, mem_append_right _ mem_cons_self, rfl⟩
  · next place target hresolve =>
    obtain ⟨hplace, hrefused, hcell⟩ := resolve_eq_some_iff.1 hresolve
    refine h.plant hrequests hplace hrefused hcell (fun proxy hproxy => ?_) fun proxy hproxy => ?_
    · split at hproxy
      · exact hproxy
      · exact (mem_filter.1 hproxy).1
    · split
      · exact .inl hproxy
      · next previous hprevious =>
        rcases eq_or_ne proxy previous.proxy with rfl | hne
        · cases hbefore : w.inbound.get? watchee with
          | none =>
            rw [hbefore] at hprevious
            cases hprevious
          | some before =>
            rw [hbefore] at hprevious
            exact .inr (h.shape watchee before watcher previous hbefore hprevious)
        · exact .inl (mem_filter.2 ⟨hproxy, decide_eq_true hne⟩)

lemma removeWatcher_cases (tree : Tree π κ) (entry : InboundWatch ι π) (w : World ι π κ) :
    removeWatcher tree entry w = w ∨ ∃ place cell, w.cells place = some cell ∧
      removeWatcher tree entry w = { w with
        cells := update w.cells place
          (some { cell with watchers := cell.watchers.filter (· ≠ entry.proxy) }) } := by
  rw [removeWatcher]
  split
  · exact .inl rfl
  · next place hplace =>
    split
    · exact .inl rfl
    · next cell hcell =>
      split
      · exact .inr ⟨place, cell, hcell, rfl⟩
      · exact .inl rfl

section

variable (h : Tables tree w)
include h

/-- The watched node answers a request to withdraw: the row is gone, and if there was one, its
proxy. -/
lemma Tables.onUnwatch (hrequests : w.requests = .unwatch watcher watchee :: requests) :
    Tables tree (onUnwatch tree watcher watchee { w with requests := requests }) := by
  have hnothing (hrow : ¬ w.HasRow watcher watchee) :
      Tables tree { w with requests := requests } := by
    refine h.serve hrequests rfl rfl h.shape h.home (fun _ hmem => hmem)
      (fun _ _ heq => nomatch heq) (fun _ _ _ hplanted => hplanted) fun name p hfound => ?_
    refine .inr ⟨fun heq => hrow ?_, hfound⟩
    cases heq
    exact hfound
  rw [World.onUnwatch]
  split
  · next hnone =>
    refine hnothing ?_
    rintro ⟨byWatcher, entry, hfound, -⟩
    exact nomatch hnone.symm.trans hfound
  · next byWatcher hbyWatcher =>
    split
    · next hnone =>
      refine hnothing ?_
      rintro ⟨before, entry, hfound, hentry⟩
      obtain rfl := some.inj (hbyWatcher.symm.trans hfound)
      exact nomatch hnone.symm.trans hentry
    · next entry hentry =>
      obtain ⟨hwatcher, hwatchee⟩ := h.shape watchee byWatcher watcher entry hbyWatcher hentry
      simp only at hbyWatcher ⊢
      generalize hinbound : (if (byWatcher.delete watcher).size = 0
        then w.inbound.delete watchee
        else w.inbound.set watchee (byWatcher.delete watcher)) = inbound
      have hbefore : ∀ p after name entry, inbound.get? p = some after →
          after.get? name = some entry → (name, p) ≠ (watcher, watchee) ∧
            ∃ before, w.inbound.get? p = some before ∧ before.get? name = some entry := by
        rw [← hinbound]
        intro p after name entry hp hname
        exact row_of_delete hbyWatcher hp hname
      have hshape : ∀ p after name entry, inbound.get? p = some after →
          after.get? name = some entry →
          entry.proxy.watcher = name ∧ entry.proxy.watchee = p := by
        intro p after name entry hp hname
        obtain ⟨-, before, hp, hname⟩ := hbefore p after name entry hp hname
        exact h.shape p before name entry hp hname
      have hrows : ∀ name p, (∃ after entry, inbound.get? p = some after ∧
          after.get? name = some entry) → Request.unwatch watcher watchee = .watch name p ∨
            Request.unwatch watcher watchee ≠ .unwatch name p ∧ w.HasRow name p := by
        rintro name p ⟨after, entry, hp, hname⟩
        obtain ⟨hne, before, hp, hname⟩ := hbefore p after name entry hp hname
        refine .inr ⟨fun heq => hne ?_, before, entry, hp, hname⟩
        cases heq
        rfl
      rcases removeWatcher_cases tree entry
          { w with requests := requests, inbound := inbound } with
        hsame | ⟨place, cell, hcell, hremoved⟩
      · rw [hsame]
        exact h.serve hrequests rfl rfl hshape h.home (fun _ hmem => hmem)
          (fun _ _ heq => nomatch heq) (fun _ _ _ hplanted => hplanted) hrows
      · rw [hremoved]
        refine h.serve hrequests rfl rfl hshape ?_ (fun _ hmem => hmem)
          (fun _ _ heq => nomatch heq) ?_ hrows
        · refine home_update h.home fun cell' proxy hfound hproxy => ?_
          cases hfound
          exact h.home place cell proxy hcell (mem_filter.1 hproxy).1
        · intro name p hother hplanted
          refine planted_update hcell rfl (fun _ proxy hproxy hname hp => ?_) hplanted
          refine ⟨proxy, mem_filter.2 ⟨hproxy, decide_eq_true ?_⟩, hname, hp⟩
          rintro rfl
          exact hother (by rw [← hwatcher, ← hwatchee, hname, hp])

lemma Tables.deliverRequest : Tables tree (w.deliverRequest tree) := by
  rw [World.deliverRequest]
  split
  · exact h
  · next hrequests => exact h.onWatch hrequests
  · next hrequests => exact h.onUnwatch hrequests

lemma Tables.start (place : κ) : Tables tree (w.start place) := by
  rw [World.start]
  split
  · exact h
  · next hnone =>
    refine h.actors (fun _ => rfl) rfl rfl rfl ?_ (fun _ hmem => hmem)
      fun name p hplanted => .inl ?_
    · refine home_update h.home fun cell proxy hfound hproxy => ?_
      cases hfound
      cases hproxy
    · obtain ⟨place', cell, proxy, hplace, hrefused, hcell, hrest⟩ := hplanted
      refine ⟨place', cell, proxy, hplace, hrefused, (update_of_ne ?_ ..).trans hcell, hrest⟩
      rintro rfl
      exact nomatch hnone.symm.trans hcell

lemma Tables.terminate (place : κ) : Tables tree (w.terminate place) := by
  rw [World.terminate]
  split
  · exact h
  · next cell hcell =>
    split
    · exact h
    · refine h.actors (fun _ => rfl) rfl rfl rfl ?_ (fun _ hmem => mem_append_left _ hmem) ?_
      · refine home_update h.home fun cell' proxy hfound hproxy => ?_
        cases hfound
        cases hproxy
      · rintro name p ⟨place', cell', proxy, hplace, hrefused, hcell', hrunning, hproxy, hrest⟩
        rcases eq_or_ne place' place with rfl | hne
        · obtain rfl := some.inj (hcell.symm.trans hcell')
          exact .inr ⟨_, mem_append_right _ (mem_map.2 ⟨proxy, hproxy, rfl⟩), hrest.2⟩
        · exact .inl ⟨place', cell', proxy, hplace, hrefused,
            (update_of_ne hne ..).trans hcell', hrunning, hproxy, hrest⟩

lemma Tables.forget (place : κ) : Tables tree (w.forget place) := by
  rw [World.forget]
  split
  · exact h
  · next cell hcell =>
    split
    · next hterminated =>
      refine h.actors (fun _ => rfl) rfl rfl rfl ?_ (fun _ hmem => hmem)
        fun name p hplanted => .inl ?_
      · exact home_update h.home fun _ _ hfound => nomatch hfound
      · obtain ⟨place', cell', proxy, hplace, hrefused, hcell', hrunning, hrest⟩ := hplanted
        refine ⟨place', cell', proxy, hplace, hrefused,
          (update_of_ne ?_ ..).trans hcell', hrunning, hrest⟩
        rintro rfl
        obtain rfl := some.inj (hcell.symm.trans hcell')
        exact absurd (hrunning.symm.trans hterminated) Bool.false_ne_true
    · exact h

/-! ## Runs -/

lemma Tables.step (input : Input ι π κ) : Tables tree (w.step tree input) := by
  have hact : Tables tree (w.act tree input) := by
    cases input with
    | watch watcher subject => exact h.watch watcher subject
    | unwatch watcher subject => exact h.unwatch watcher subject
    | unwatchAll watcher => exact h.unwatchAll watcher
    | deliverRequest => exact h.deliverRequest
    | deliverAnswer => exact h.deliverAnswer
    | start place => exact h.start place
    | terminate place => exact h.terminate place
    | forget place => exact h.forget place
  exact hact.actors (fun _ => rfl) rfl rfl rfl hact.home (fun _ hmem => hmem)
    fun _ _ hplanted => .inl hplanted

end

lemma tables_run (tree : Tree π κ) (actors : List κ) (inputs : List (Input ι π κ)) :
    Tables tree (run (step tree) (initial actors) inputs) :=
  invariant (fun _ input _ h => h.step input) along_true (tables_initial actors)

end World

end ActorTs.Cluster.RemoteWatcher
