import ActorTs.Library.Machine
import ActorTs.Library.PushQueue
import ActorTs.Persistence.JournalTypes

/-!
# The live stream of one persistence id

A stream subscribes to the bus of the journal and then reads what the journal holds. Both feed one
queue behind one number, that of the last event queued, and an event at or below it is dropped as
one of both that came twice. An event that is published while the read is under way carries the
number over the history.
-/

open List Option Nat

namespace ActorTs.Persistence

open Machine

variable {W : Type}

def PersistentEvent.number (e : PersistentEvent W) : ℕ := e.sequenceNr.value

structure PersistenceIdStream (W : Type) where
  buffer : PushQueue (PersistentEvent W)
  lastEmittedSeq : ℤ

namespace PersistenceIdStream

variable (persistenceId : JsString) (fromSeq : ℤ)

def start : PersistenceIdStream W := ⟨.empty, fromSeq - 1⟩

def emit (stream : PersistenceIdStream W) (ev : PersistentEvent W) : PersistenceIdStream W :=
  if stream.buffer.cancelled then stream
  else if (ev.number : ℤ) ≤ stream.lastEmittedSeq then stream
  else ⟨stream.buffer.push ev, ev.number⟩

def onPublish (stream : PersistenceIdStream W) (ev : PersistentEvent W) : PersistenceIdStream W :=
  if ev.persistenceId ≠ persistenceId then stream
  else if (ev.number : ℤ) < fromSeq then stream
  else stream.emit ev

def onCatchUp (stream : PersistenceIdStream W) (events : List (PersistentEvent W)) :
    PersistenceIdStream W := events.foldl emit stream

end PersistenceIdStream

/-! ## The stream over its journal -/

/-- The read behind the subscription: under way, executed, or answered. -/
inductive CatchUp (α : Type) where
  | reading
  | answering (events : List α)
  | done

inductive StreamMove (W : Type) where
  | append (ev : PersistentEvent W)
  | publish
  | publishOther (ev : PersistentEvent W)
  | read
  | answer
  | next
  | cancel

/-- The events of one id in the journal: published before the subscription, published since,
and readable but not yet published. -/
structure StreamWorld (W : Type) where
  history : List (PersistentEvent W)
  live : List (PersistentEvent W)
  waiting : List (PersistentEvent W)
  catchUp : CatchUp (PersistentEvent W)
  stream : PersistenceIdStream W

namespace StreamWorld

variable (persistenceId : JsString) (fromSeq : ℤ)

def journal (w : StreamWorld W) : List (PersistentEvent W) := w.history ++ w.live ++ w.waiting

/-- The events a consumer that starts at a number is owed. -/
def wanted (events : List (PersistentEvent W)) : List (PersistentEvent W) :=
  events.filter fun e => fromSeq ≤ (e.number : ℤ)

/-- What may follow the events of the journal. -/
def Follows (events : List (PersistentEvent W)) (ev : PersistentEvent W) : Prop :=
  ev.persistenceId = persistenceId ∧ ∀ e ∈ events, e.number < ev.number

instance (events : List (PersistentEvent W)) (ev : PersistentEvent W) :
    Decidable (Follows persistenceId events ev) := inferInstanceAs (Decidable (_ ∧ _))

def step (w : StreamWorld W) : StreamMove W → StreamWorld W
  | .append ev =>
    if Follows persistenceId w.journal ev then { w with waiting := w.waiting ++ [ev] } else w
  | .publish =>
    match w.waiting with
    | [] => w
    | ev :: waiting =>
      { w with
        live := w.live ++ [ev]
        waiting
        stream := w.stream.onPublish persistenceId fromSeq ev }
  | .publishOther ev =>
    if ev.persistenceId = persistenceId then w
    else { w with stream := w.stream.onPublish persistenceId fromSeq ev }
  | .read =>
    match w.catchUp with
    | .reading => { w with catchUp := .answering (wanted fromSeq w.journal) }
    | _ => w
  | .answer =>
    match w.catchUp with
    | .answering events => { w with catchUp := .done, stream := w.stream.onCatchUp events }
    | _ => w
  | .next => { w with stream.buffer := w.stream.buffer.next }
  | .cancel => { w with stream.buffer := w.stream.buffer.cancel }

/-- A stream that has just subscribed. -/
def subscribed (history waiting : List (PersistentEvent W)) : StreamWorld W where
  history
  live := []
  waiting
  catchUp := .reading
  stream := .start fromSeq

/-- While the read is not answered nothing is published, or there is no history to lose. -/
def Undisturbed (w : StreamWorld W) : StreamMove W → Prop
  | .publish => w.catchUp ≠ .done → w.waiting ≠ [] → wanted fromSeq w.history = []
  | _ => True

end StreamWorld

/-! ## What a stream has queued -/

open StreamWorld

/-- The stream has queued the wanted ones of the first events of the journal. -/
structure Emitted (fromSeq : ℤ) (journal : List (PersistentEvent W)) (k : ℕ)
    (stream : PersistenceIdStream W) : Prop where
  delivered : stream.buffer.delivered = wanted fromSeq (journal.take k)
  last : stream.lastEmittedSeq =
    (wanted fromSeq (journal.take k)).getLast?.elim (fromSeq - 1) fun e => (e.number : ℤ)

section Emitted

variable {persistenceId : JsString} {fromSeq : ℤ} {journal : List (PersistentEvent W)} {k : ℕ}
  {stream : PersistenceIdStream W} {ev : PersistentEvent W}

lemma wanted_append (events later : List (PersistentEvent W)) :
    wanted fromSeq (events ++ later) = wanted fromSeq events ++ wanted fromSeq later :=
  filter_append ..

lemma wanted_singleton (h : fromSeq ≤ (ev.number : ℤ)) : wanted fromSeq [ev] = [ev] :=
  filter_cons_of_pos (by simpa using h)

lemma wanted_singleton_of_lt (h : (ev.number : ℤ) < fromSeq) : wanted fromSeq [ev] = [] :=
  filter_cons_of_neg (by simpa using h)

section

variable (h : Emitted fromSeq journal k stream)
include h

lemma Emitted.le_last (hsorted : journal.Pairwise fun e e' => e.number < e'.number)
    (hev : ev ∈ wanted fromSeq (journal.take k)) : (ev.number : ℤ) ≤ stream.lastEmittedSeq := by
  have hpairwise : (wanted fromSeq (journal.take k)).Pairwise fun e e' => e.number < e'.number :=
    (hsorted.sublist (take_sublist k journal)).sublist filter_sublist
  rw [h.last]
  obtain ⟨before, last, hlast⟩ : ∃ before last, wanted fromSeq (journal.take k) = before ++ [last] :=
    ⟨_, _, (dropLast_concat_getLast (ne_nil_of_mem hev)).symm⟩
  rw [hlast, getLast?_concat, elim_some]
  rw [hlast] at hev hpairwise
  rcases mem_append.1 hev with hev | hev
  · exact_mod_cast ((pairwise_append.1 hpairwise).2.2 ev hev last (mem_singleton.2 rfl)).le
  · obtain rfl := mem_singleton.1 hev
    exact Int.le_refl _

lemma Emitted.last_lt (hev : fromSeq ≤ (ev.number : ℤ))
    (hbehind : ∀ e ∈ journal.take k, e.number < ev.number) :
    stream.lastEmittedSeq < (ev.number : ℤ) := by
  rw [h.last]
  cases hlast : (wanted fromSeq (journal.take k)).getLast? with
  | none =>
    rw [elim_none]
    omega
  | some e =>
    have hmem := mem_of_getLast? hlast
    rw [elim_some]
    exact_mod_cast hbehind e (mem_of_mem_filter hmem)

lemma Emitted.emit_seen (hsorted : journal.Pairwise fun e e' => e.number < e'.number)
    (hev : ev ∈ wanted fromSeq (journal.take k)) : stream.emit ev = stream := by
  rw [PersistenceIdStream.emit, if_pos (h.le_last hsorted hev), ite_self]

lemma Emitted.emit_next (hsorted : journal.Pairwise fun e e' => e.number < e'.number)
    (hev : journal[k]? = some ev) (hopen : stream.buffer.cancelled = false)
    (hfrom : fromSeq ≤ (ev.number : ℤ)) : Emitted fromSeq journal (k + 1) (stream.emit ev) := by
  have htake : journal.take (k + 1) = journal.take k ++ [ev] := by
    rw [take_add_one, hev, toList_some]
  have hbehind : ∀ e ∈ journal.take k, e.number < ev.number := by
    have hpairwise := hsorted.sublist (take_sublist (k + 1) journal)
    rw [htake] at hpairwise
    exact fun e he => (pairwise_append.1 hpairwise).2.2 e he ev (mem_singleton.2 rfl)
  have hlt := h.last_lt hfrom hbehind
  rw [PersistenceIdStream.emit, hopen, if_neg (by decide), if_neg (Int.not_le.2 hlt)]
  refine ⟨?_, ?_⟩
  · rw [htake, wanted_append, wanted_singleton hfrom, PushQueue.delivered_push, h.delivered]
  · rw [htake, wanted_append, wanted_singleton hfrom, getLast?_concat, elim_some]

lemma Emitted.skip_next (hev : journal[k]? = some ev)
    (hfrom : (ev.number : ℤ) < fromSeq) : Emitted fromSeq journal (k + 1) stream := by
  have htake : wanted fromSeq (journal.take (k + 1)) = wanted fromSeq (journal.take k) := by
    rw [take_add_one, hev, toList_some, wanted_append, wanted_singleton_of_lt hfrom, append_nil]
  exact ⟨htake ▸ h.delivered, htake ▸ h.last⟩

end

lemma cancelled_emit (stream : PersistenceIdStream W) (ev : PersistentEvent W) :
    (stream.emit ev).buffer.cancelled = stream.buffer.cancelled := by
  rw [PersistenceIdStream.emit]
  split_ifs
  · rfl
  · rfl
  · exact PushQueue.cancelled_push _ _

lemma cancelled_onCatchUp (stream : PersistenceIdStream W) (events : List (PersistentEvent W)) :
    (stream.onCatchUp events).buffer.cancelled = stream.buffer.cancelled := by
  induction events generalizing stream with
  | nil => rfl
  | cons ev events ih => exact (ih _).trans (cancelled_emit stream ev)

/-- A read of the first events of the journal brings the stream to where it read to, or leaves
it where it is farther. -/
lemma Emitted.onCatchUp (h : Emitted fromSeq journal k stream)
    (hsorted : journal.Pairwise fun e e' => e.number < e'.number)
    (hopen : stream.buffer.cancelled = false) {m : ℕ} (hm : m ≤ journal.length) :
    Emitted fromSeq journal (max k m) (stream.onCatchUp (wanted fromSeq (journal.take m))) := by
  induction m with
  | zero =>
    rw [max_eq_left (zero_le k)]
    exact h
  | succ m ih =>
    specialize ih (by omega)
    have hev : journal[m]? = some journal[m] := getElem?_eq_getElem _
    rw [take_add_one, hev, toList_some, wanted_append, PersistenceIdStream.onCatchUp, foldl_append]
    by_cases hfrom : fromSeq ≤ (journal[m].number : ℤ)
    · rw [wanted_singleton hfrom, foldl_cons, foldl_nil]
      by_cases hkm : m < k
      · rw [max_eq_left hkm.le] at ih
        have hmem : journal[m] ∈ wanted fromSeq (journal.take k) := by
          refine mem_filter.2 ⟨mem_iff_getElem?.2 ⟨m, ?_⟩, by simpa using hfrom⟩
          rw [getElem?_take_of_lt hkm, hev]
        rw [max_eq_left (by omega)]
        exact (ih.emit_seen hsorted hmem).symm ▸ ih
      · rw [max_eq_right (by omega)] at ih ⊢
        exact ih.emit_next hsorted hev ((cancelled_onCatchUp _ _).trans hopen) hfrom
    · rw [wanted_singleton_of_lt (Int.not_le.1 hfrom), foldl_nil]
      by_cases hkm : m < k
      · rw [max_eq_left hkm.le] at ih
        rw [max_eq_left (by omega)]
        exact ih
      · rw [max_eq_right (by omega)] at ih ⊢
        exact ih.skip_next hev (Int.not_le.1 hfrom)

lemma Emitted.append (h : Emitted fromSeq journal k stream) (hk : k ≤ journal.length)
    (later : List (PersistentEvent W)) : Emitted fromSeq (journal ++ later) k stream := by
  have htake : (journal ++ later).take k = journal.take k := take_append_of_le_length hk
  exact ⟨htake ▸ h.delivered, htake ▸ h.last⟩

/-- An event of the journal that is published, at a place the stream has come to at least. -/
lemma Emitted.onPublish (h : Emitted fromSeq journal k stream)
    (hsorted : journal.Pairwise fun e e' => e.number < e'.number)
    (hopen : stream.buffer.cancelled = false) {j : ℕ} (hj : j ≤ k) (hev : journal[j]? = some ev)
    (hid : ev.persistenceId = persistenceId) :
    Emitted fromSeq journal (max k (j + 1)) (stream.onPublish persistenceId fromSeq ev) := by
  rw [PersistenceIdStream.onPublish, if_neg (not_not.2 hid)]
  by_cases hjk : j < k
  · rw [max_eq_left hjk]
    split_ifs with hfrom
    · exact h
    · have hmem : ev ∈ wanted fromSeq (journal.take k) := by
        refine mem_filter.2 ⟨mem_iff_getElem?.2 ⟨j, ?_⟩, by simpa using hfrom⟩
        rw [getElem?_take_of_lt hjk, hev]
      exact (h.emit_seen hsorted hmem).symm ▸ h
  · obtain rfl : j = k := by omega
    rw [max_eq_right (by omega)]
    split_ifs with hfrom
    · exact h.skip_next hev hfrom
    · exact h.emit_next hsorted hev hopen (Int.not_lt.1 hfrom)

lemma cancelled_onPublish (stream : PersistenceIdStream W) (ev : PersistentEvent W) :
    (stream.onPublish persistenceId fromSeq ev).buffer.cancelled = stream.buffer.cancelled := by
  rw [PersistenceIdStream.onPublish]
  split_ifs
  · rfl
  · rfl
  · exact cancelled_emit stream ev

lemma emit_of_cancelled (h : stream.buffer.cancelled = true) : stream.emit ev = stream := by
  rw [PersistenceIdStream.emit, if_pos h]

lemma onPublish_of_cancelled (h : stream.buffer.cancelled = true) :
    stream.onPublish persistenceId fromSeq ev = stream := by
  rw [PersistenceIdStream.onPublish, emit_of_cancelled h, ite_self, ite_self]

lemma onCatchUp_of_cancelled (h : stream.buffer.cancelled = true)
    (events : List (PersistentEvent W)) : stream.onCatchUp events = stream := by
  induction events with
  | nil => rfl
  | cons ev events ih =>
    rw [PersistenceIdStream.onCatchUp, foldl_cons, emit_of_cancelled h]
    exact ih

end Emitted

/-! ## Every step -/

namespace StreamWorld

variable {persistenceId : JsString} {fromSeq : ℤ} {w : StreamWorld W} {ev : PersistentEvent W}

/-- The stream stands behind all that is published, or at the beginning while the read is under way.
-/
structure Sound (persistenceId : JsString) (fromSeq : ℤ) (w : StreamWorld W) : Prop where
  sorted : w.journal.Pairwise fun e e' => e.number < e'.number
  ofId : ∀ e ∈ w.journal, e.persistenceId = persistenceId
  answering : ∀ events, w.catchUp = .answering events → ∃ m, w.history.length ≤ m ∧
    m ≤ w.journal.length ∧ events = wanted fromSeq (w.journal.take m)
  meanwhile : w.stream.buffer.cancelled = false → w.catchUp ≠ .done →
    w.live = [] ∧ Emitted fromSeq w.journal 0 w.stream ∨
      wanted fromSeq w.history = [] ∧
        Emitted fromSeq w.journal (w.history ++ w.live).length w.stream
  afterwards : w.stream.buffer.cancelled = false → w.catchUp = .done →
    ∃ k, (w.history ++ w.live).length ≤ k ∧ k ≤ w.journal.length ∧
      Emitted fromSeq w.journal k w.stream
  closed : w.stream.buffer.cancelled = true →
    w.stream.buffer.delivered <+: wanted fromSeq w.journal

lemma length_published_le (w : StreamWorld W) :
    (w.history ++ w.live).length ≤ w.journal.length :=
  (prefix_append (w.history ++ w.live) w.waiting).length_le

section

variable (h : w.Sound persistenceId fromSeq)
include h

lemma Sound.delivered_prefix : w.stream.buffer.delivered <+: wanted fromSeq w.journal := by
  have hbegins : ∀ {k}, Emitted fromSeq w.journal k w.stream →
      w.stream.buffer.delivered <+: wanted fromSeq w.journal := fun {k} hk => by
    rw [hk.delivered]
    exact ( take_prefix k w.journal).filter _
  cases hcancelled : w.stream.buffer.cancelled with
  | true => exact h.closed hcancelled
  | false =>
    by_cases hdone : w.catchUp = .done
    · obtain ⟨k, -, -, hk⟩ := h.afterwards hcancelled hdone
      exact hbegins hk
    · rcases h.meanwhile hcancelled hdone with ⟨-, hk⟩ | ⟨-, hk⟩
      · exact hbegins hk
      · exact hbegins hk

lemma Sound.append (hev : Follows persistenceId w.journal ev) :
    Sound persistenceId fromSeq { w with waiting := w.waiting ++ [ev] } := by
  have hjournal : journal { w with waiting := w.waiting ++ [ev] } = w.journal ++ [ev] := by
    simp [journal]
  have hlength : w.journal.length ≤ (w.journal ++ [ev]).length := by
    rw [length_append]
    exact le_add_right _ _
  constructor <;> rw [hjournal]
  · rw [pairwise_append]
    exact ⟨h.sorted, pairwise_singleton _ _, fun e he e' he' =>
      mem_singleton.1 he' ▸ hev.2 e he⟩
  · intro e he
    rcases mem_append.1 he with he | he
    · exact h.ofId e he
    · rw [mem_singleton.1 he]
      exact hev.1
  · intro events hevents
    obtain ⟨m, hm, hle, hread⟩ := h.answering events hevents
    refine ⟨m, hm, hle.trans hlength, ?_⟩
    rw [take_append_of_le_length hle]
    exact hread
  · intro hopen hpending
    exact (h.meanwhile hopen hpending).imp (fun ⟨hlive, hk⟩ => ⟨hlive, hk.append (zero_le _) _⟩)
      fun ⟨hhistory, hk⟩ => ⟨hhistory, hk.append w.length_published_le _⟩
  · intro hopen hdone
    obtain ⟨k, hpublished, hk, hemitted⟩ := h.afterwards hopen hdone
    exact ⟨k, hpublished, hk.trans hlength, hemitted.append hk _⟩
  · intro hcancelled
    rw [wanted_append]
    exact (h.closed hcancelled).trans (prefix_append _ _)

lemma Sound.publish {waiting : List (PersistentEvent W)} (hwaiting : w.waiting = ev :: waiting)
    (hundisturbed : w.catchUp ≠ .done → wanted fromSeq w.history = []) :
    Sound persistenceId fromSeq { w with
      live := w.live ++ [ev], waiting, stream := w.stream.onPublish persistenceId fromSeq ev } := by
  have hjournal : w.history ++ (w.live ++ [ev]) ++ waiting = w.journal := by
    rw [journal, hwaiting]
    simp
  have hplace : w.journal[(w.history ++ w.live).length]? = some ev := by
    rw [journal, hwaiting, List.getElem?_append_right le_rfl, Nat.sub_self]
    rfl
  have hlive : (w.history ++ (w.live ++ [ev])).length = (w.history ++ w.live).length + 1 := by
    rw [← append_assoc, length_append, length_singleton]
  have hlt : (w.history ++ w.live).length < w.journal.length :=
    (List.getElem?_eq_some_iff.1 hplace).1
  have hid := h.ofId ev (mem_of_getElem? hplace)
  constructor <;> dsimp only [journal] <;> rw [hjournal]
  · exact h.sorted
  · exact h.ofId
  · exact h.answering
  · intro hopen hpending
    rw [cancelled_onPublish] at hopen
    have hempty := hundisturbed hpending
    have hhere : Emitted fromSeq w.journal (w.history ++ w.live).length w.stream := by
      rcases h.meanwhile hopen hpending with ⟨hlive, hk⟩ | ⟨-, hk⟩
      · have htake : wanted fromSeq (w.journal.take (w.history ++ w.live).length) =
            wanted fromSeq (w.journal.take 0) := by
          rw [hlive, append_nil, journal, append_assoc, take_left, hempty]
          rfl
        exact ⟨htake ▸ hk.delivered, htake ▸ hk.last⟩
      · exact hk
    refine .inr ⟨hempty, ?_⟩
    have hnext := hhere.onPublish h.sorted hopen le_rfl hplace hid
    rw [max_eq_right (le_succ _)] at hnext
    rw [hlive]
    exact hnext
  · intro hopen hdone
    rw [cancelled_onPublish] at hopen
    obtain ⟨k, hpublished, hk, hemitted⟩ := h.afterwards hopen hdone
    refine ⟨_, ?_, ?_, hemitted.onPublish h.sorted hopen hpublished hplace hid⟩
    · rw [hlive]
      exact le_max_right _ _
    · exact max_le hk hlt
  · intro hcancelled
    rw [cancelled_onPublish] at hcancelled
    rw [onPublish_of_cancelled hcancelled]
    exact h.closed hcancelled

lemma Sound.answer {events : List (PersistentEvent W)} (hevents : w.catchUp = .answering events) :
    Sound persistenceId fromSeq
      { w with catchUp := .done, stream := w.stream.onCatchUp events } := by
  obtain ⟨m, hm, hle, rfl⟩ := h.answering events hevents
  have hpending : w.catchUp ≠ .done := by
    rw [hevents]
    nofun
  constructor
  · exact h.sorted
  · exact h.ofId
  · nofun
  · exact fun _ hne => absurd rfl hne
  · intro hopen _
    rw [cancelled_onCatchUp] at hopen
    rcases h.meanwhile hopen hpending with ⟨hlive, hk⟩ | ⟨-, hk⟩
    · refine ⟨max 0 m, ?_, max_le (zero_le _) hle, hk.onCatchUp h.sorted hopen hle⟩
      rw [hlive, append_nil]
      exact hm.trans (le_max_right _ _)
    · exact ⟨_, le_max_left _ _, max_le w.length_published_le hle, hk.onCatchUp h.sorted hopen hle⟩
  · intro hcancelled
    rw [cancelled_onCatchUp] at hcancelled
    rw [onCatchUp_of_cancelled hcancelled]
    exact h.closed hcancelled

lemma Sound.consume {buffer : PushQueue (PersistentEvent W)}
    (hdelivered : buffer.delivered = w.stream.buffer.delivered)
    (hcancelled : buffer.cancelled = w.stream.buffer.cancelled ∨ buffer.cancelled = true) :
    Sound persistenceId fromSeq { w with stream.buffer := buffer } := by
  have hopen : buffer.cancelled = false → w.stream.buffer.cancelled = false := fun hopen => by
    rcases hcancelled with heq | htrue
    · rw [← heq, hopen]
    · cases hopen.symm.trans htrue
  have hemitted : ∀ {k}, Emitted fromSeq w.journal k w.stream →
      Emitted fromSeq w.journal k { w.stream with buffer } :=
    fun hk => ⟨hdelivered.trans hk.delivered, hk.last⟩
  refine ⟨h.sorted, h.ofId, h.answering, fun hb hpending => ?_, fun hb hdone => ?_, fun _ => ?_⟩
  · exact (h.meanwhile (hopen hb) hpending).imp (And.imp_right hemitted) (And.imp_right hemitted)
  · obtain ⟨k, hpublished, hk, h⟩ := h.afterwards (hopen hb) hdone
    exact ⟨k, hpublished, hk, hemitted h⟩
  · exact hdelivered ▸ h.delivered_prefix

lemma Sound.step {move : StreamMove W} (hundisturbed : Undisturbed fromSeq w move) :
    (step persistenceId fromSeq w move).Sound persistenceId fromSeq := by
  cases move with
  | append ev =>
    rw [StreamWorld.step]
    split_ifs with hev
    · exact h.append hev
    · exact h
  | publish =>
    rw [StreamWorld.step]
    split
    · exact h
    · next ev waiting hwaiting =>
      exact h.publish hwaiting fun hpending => hundisturbed hpending (hwaiting ▸ nofun)
  | publishOther ev =>
    rw [StreamWorld.step]
    split_ifs with hid
    · exact h
    · rw [PersistenceIdStream.onPublish, if_pos hid]
      exact h
  | read =>
    rw [StreamWorld.step]
    split
    · next hreading =>
      have hpending : w.catchUp ≠ .done := hreading ▸ nofun
      refine ⟨h.sorted, h.ofId, fun events hevents => ?_, fun hopen _ => h.meanwhile hopen hpending,
        nofun, h.closed⟩
      cases hevents
      refine ⟨w.journal.length, ?_, le_rfl, congrArg (wanted fromSeq) take_length.symm⟩
      rw [journal, append_assoc, length_append]
      exact le_add_right _ _
    · exact h
  | answer =>
    rw [StreamWorld.step]
    split
    · next events hevents => exact h.answer hevents
    · exact h
  | next => exact h.consume (PushQueue.delivered_next _) (.inl (PushQueue.cancelled_next _))
  | cancel => exact h.consume (PushQueue.delivered_cancel _) (.inr rfl)

end

/-! ## Every run -/

/-- What the consumer got begins what it is owed. As long as it stays, everything published
since the subscription is queued for it or was handed out, and once the read is answered
everything before as well. -/
structure MissesNothing (fromSeq : ℤ) (w : StreamWorld W) : Prop where
  yielded : w.stream.buffer.yielded <+: wanted fromSeq w.journal
  delivered : w.stream.buffer.delivered <+: wanted fromSeq w.journal
  live : w.stream.buffer.cancelled = false → ∀ e ∈ wanted fromSeq w.live,
    e ∈ w.stream.buffer.delivered
  history : w.stream.buffer.cancelled = false → w.catchUp = .done →
    ∀ e ∈ wanted fromSeq w.history, e ∈ w.stream.buffer.delivered

lemma mem_wanted_take {k : ℕ} (hk : (w.history ++ w.live).length ≤ k) {e : PersistentEvent W}
    (he : e ∈ wanted fromSeq (w.history ++ w.live)) : e ∈ wanted fromSeq (w.journal.take k) := by
  have hbegins : w.history ++ w.live <+: w.journal.take k := by
    rw [prefix_take_iff]
    exact ⟨prefix_append _ _, hk⟩
  exact (hbegins.filter _).subset he

lemma Sound.missesNothing (h : w.Sound persistenceId fromSeq) : w.MissesNothing fromSeq where
  yielded := w.stream.buffer.yielded_prefix.trans h.delivered_prefix
  delivered := h.delivered_prefix
  live hopen e he := by
    have hpublished : e ∈ wanted fromSeq (w.history ++ w.live) := by
      rw [wanted_append]
      exact mem_append_right _ he
    by_cases hdone : w.catchUp = .done
    · obtain ⟨k, hk, -, hemitted⟩ := h.afterwards hopen hdone
      rw [hemitted.delivered]
      exact mem_wanted_take hk hpublished
    · rcases h.meanwhile hopen hdone with ⟨hlive, -⟩ | ⟨-, hemitted⟩
      · rw [hlive] at he
        cases he
      · rw [hemitted.delivered]
        exact mem_wanted_take le_rfl hpublished
  history hopen hdone e he := by
    obtain ⟨k, hk, -, hemitted⟩ := h.afterwards hopen hdone
    rw [hemitted.delivered]
    refine mem_wanted_take hk ?_
    rw [wanted_append]
    exact mem_append_left _ he

lemma sound_subscribed {history waiting : List (PersistentEvent W)}
    (hsorted : (history ++ waiting).Pairwise fun e e' => e.number < e'.number)
    (hid : ∀ e ∈ history ++ waiting, e.persistenceId = persistenceId) :
    (subscribed fromSeq history waiting).Sound persistenceId fromSeq := by
  have hjournal : (subscribed fromSeq history waiting).journal = history ++ waiting := by
    rw [journal, subscribed, append_nil]
  refine ⟨hjournal ▸ hsorted, hjournal ▸ hid, nofun, fun _ _ => .inl ⟨rfl, rfl, rfl⟩, nofun, nofun⟩

/-- Along a run in which nothing is published while the read is under way, unless there is no
history to lose, the stream misses nothing. -/
theorem eventsByPersistenceId_missesNothing (persistenceId : JsString) (fromSeq : ℤ)
    (history waiting : List (PersistentEvent W))
    (hsorted : (history ++ waiting).Pairwise fun e e' => e.number < e'.number)
    (hid : ∀ e ∈ history ++ waiting, e.persistenceId = persistenceId) (moves : List (StreamMove W))
    (hundisturbed : Machine.Along (step persistenceId fromSeq) (Undisturbed fromSeq)
      (subscribed fromSeq history waiting) moves) :
    (run (step persistenceId fromSeq) (subscribed fromSeq history waiting)
      moves).MissesNothing fromSeq := by
  have hsound : (run (step persistenceId fromSeq)
      (subscribed fromSeq history waiting) moves).Sound persistenceId fromSeq :=
    invariant (fun _ _ hmove h => h.step hmove) hundisturbed (sound_subscribed hsorted hid)
  exact hsound.missesNothing

/-- An event of the id at a number. -/
def eventAt (n : ℕ) : PersistentEvent Unit := ⟨"a", .natural n, (), 0, none⟩

/-- The read is answered before the second event is published. -/
theorem eventsByPersistenceId_missesNothing_two :
    (run (step "a" 1) (subscribed 1 [eventAt 1] [])
      [.append (eventAt 2), .read, .answer, .publish, .next, .next]).MissesNothing 1 :=
  eventsByPersistenceId_missesNothing "a" 1 [eventAt 1] [] (pairwise_singleton _ _)
    (fun _ he => mem_singleton.1 he ▸ rfl)
    [.append (eventAt 2), .read, .answer, .publish, .next, .next]
    ⟨trivial, trivial, trivial, fun hne => absurd rfl hne, trivial, trivial, trivial⟩

/-- The second event is published before the read is answered, and the first one, which is in
the answer, is dropped. -/
theorem not_missesNothing_overtaken :
    ¬ (run (step "a" 1) (subscribed 1 [eventAt 1] [])
      [.append (eventAt 2), .publish, .read, .answer, .next]).MissesNothing 1 := by
  intro h
  have hfirst : eventAt 1 ∈ [eventAt 2] := h.history rfl rfl (eventAt 1) (mem_singleton.2 rfl)
  cases mem_singleton.1 hfirst

end StreamWorld

end ActorTs.Persistence
