import ActorTs.Persistence.TagStream

/-!
# The live stream of a tag, polled

Over a journal without a bus each call of `next` that finds nothing queued starts a poll, and
a consumer may call again before the first call is answered. A poll reads behind the event
that was queued last when it began; what it answers is queued whole.
-/

open List Option Nat

namespace ActorTs.Persistence

open Machine TagStreamWorld

variable {W : Type}

/-- A poll under way: the event that was queued last when it began, its query, and how long
the journal was. -/
structure TagPoll (W : Type) where
  lastEmitted : Option (TaggedEvent W)
  scan : TagScan W
  since : ℕ

namespace TagPoll

/-- What a poll brings of what its query has read. -/
def fetched (spec : TagFilterSpec) (fromOffset : Offset) (poll : TagPoll W) :
    List (TaggedEvent W) :=
  match poll.lastEmitted with
  | none => currentEventsByTag spec fromOffset poll.scan.read
  | some last => (currentEventsByTag spec last.offset poll.scan.read).filter fun te =>
    offsetGreater te.offset last.offset

end TagPoll

inductive TagPollingMove (W : Type) where
  | append (ev : PersistentEvent W)
  | next
  | scan (i : ℕ)
  | answer (i : ℕ)
  | resume
  | wake
  | cancel

/-- The journal, the polls under way, the calls of `next` and the stream: what is queued, what was
handed out and the event that was queued last. Beside it stand everything that was ever queued, the
wanted events that some poll has read, and the length of the journal when the latest answered poll
began. -/
structure TagPollingWorld (W : Type) where
  log : List (PersistentEvent W)
  polls : List (TagPoll W)
  resumed : ℕ
  resting : ℕ
  buffer : List (TaggedEvent W)
  yielded : List (TaggedEvent W)
  lastEmitted : Option (TaggedEvent W)
  cancelled : Bool
  queued : List (TaggedEvent W)
  told : List (TaggedEvent W)
  polled : ℕ

namespace TagPollingWorld

variable (spec : TagFilterSpec) (fromOffset : Offset)

/-- One turn of the loop in `next`. -/
def turn (w : TagPollingWorld W) : TagPollingWorld W :=
  if w.cancelled then w
  else match w.buffer with
    | [] => { w with polls := w.polls ++ [⟨w.lastEmitted, {}, w.log.length⟩] }
    | te :: buffer => { w with buffer, yielded := w.yielded ++ [te] }

def step (w : TagPollingWorld W) : TagPollingMove W → TagPollingWorld W
  | .append ev => if Appendable w.log ev then { w with log := w.log ++ [ev] } else w
  | .next => w.turn
  | .scan i => { w with
      polls := w.polls.modify i fun poll => { poll with scan := poll.scan.step w.log } }
  | .answer i =>
    match w.polls[i]? with
    | none => w
    | some poll =>
      if poll.scan.finished then
        let fetched := poll.fetched spec fromOffset
        { w with
          polls := w.polls.eraseIdx i
          resumed := w.resumed + 1
          buffer := w.buffer ++ fetched
          lastEmitted := fetched.getLast?.or w.lastEmitted
          queued := w.queued ++ fetched
          told := w.told ++ currentEventsByTag spec fromOffset poll.scan.read
          polled := max w.polled poll.since }
      else w
  | .resume =>
    match w.resumed with
    | 0 => w
    | resumed + 1 =>
      if w.buffer.isEmpty then { w with resumed, resting := w.resting + 1 }
      else turn { w with resumed }
  | .wake =>
    match w.resting with
    | 0 => w
    | resting + 1 => turn { w with resting }
  | .cancel => { w with cancelled := true, buffer := [] }

/-- A stream that nobody has asked for anything yet. -/
def opened (log : List (PersistentEvent W)) : TagPollingWorld W :=
  ⟨log, [], 0, 0, [], [], none, false, [], [], 0⟩

/-- Each wanted event that an answered poll has read lies behind all that was read before, or
it was read before, and then the poll began behind it. -/
def InOrder (w : TagPollingWorld W) : TagPollingMove W → Prop
  | .answer i => ∀ poll, w.polls[i]? = some poll → poll.scan.finished = true →
      ∀ ev ∈ poll.scan.read, Wanted spec fromOffset ev →
        Timely TaggedEvent.offset w.told (tagged ev) ∧
          (tagged ev ∈ w.told → ∃ last, poll.lastEmitted = some last ∧
            offsetOfEvent ev ≤ last.offset)
  | _ => True

end TagPollingWorld

section Fetched

variable {spec : TagFilterSpec} {fromOffset : Offset} {poll : TagPoll W}
  {told : List (TaggedEvent W)} {te : TaggedEvent W}

lemma TagPoll.sorted_fetched
    (hread : poll.scan.read.Pairwise fun e e' => offsetOfEvent e ≠ offsetOfEvent e') :
    (poll.fetched spec fromOffset).Pairwise fun a b => a.offset < b.offset := by
  rw [TagPoll.fetched]
  split
  · exact sorted_currentEventsByTag hread
  · exact (sorted_currentEventsByTag hread).sublist filter_sublist

lemma TagPoll.mem_fetched (hfrom : ∀ last, poll.lastEmitted = some last →
    fromOffset ≤ last.offset) :
    te ∈ poll.fetched spec fromOffset ↔
      te ∈ currentEventsByTag spec fromOffset poll.scan.read ∧
        ∀ last, poll.lastEmitted = some last → last.offset < te.offset := by
  rw [TagPoll.fetched]
  split
  · next hnone =>
    rw [hnone]
    exact ⟨fun hte => ⟨hte, nofun⟩, And.left⟩
  · next last hlast =>
    rw [mem_filter, mem_currentEventsByTag, mem_currentEventsByTag, offsetGreater,
      decide_eq_true_eq, offsetCompare, Stamp.compare_pos_iff]
    constructor
    · rintro ⟨⟨e, he, ⟨hmatches, hle⟩, rfl⟩, hlt⟩
      refine ⟨⟨e, he, ⟨hmatches, (hfrom last hlast).trans hle⟩, rfl⟩, ?_⟩
      rintro _ heq
      obtain rfl := some.inj (hlast.symm.trans heq)
      exact hlt
    · rintro ⟨⟨e, he, ⟨hmatches, -⟩, rfl⟩, hlt⟩
      exact ⟨⟨e, he, ⟨hmatches, (hlt last hlast).le⟩, rfl⟩, hlt last hlast⟩

lemma TagPoll.fetched_new
    (hlast : ∀ last, poll.lastEmitted = some last → fromOffset ≤ last.offset ∧ last ∈ told)
    (horder : ∀ ev ∈ poll.scan.read, Wanted spec fromOffset ev →
      Timely TaggedEvent.offset told (tagged ev) ∧
        (tagged ev ∈ told → ∃ last, poll.lastEmitted = some last ∧
          offsetOfEvent ev ≤ last.offset)) :
    (∀ te ∈ poll.fetched spec fromOffset, ∀ t ∈ told, t.offset < te.offset) ∧
      ∀ te ∈ currentEventsByTag spec fromOffset poll.scan.read,
        te ∈ told ∨ te ∈ poll.fetched spec fromOffset := by
  have hfrom : ∀ last, poll.lastEmitted = some last → fromOffset ≤ last.offset :=
    fun last h => (hlast last h).1
  constructor
  · intro te hte
    obtain ⟨hmem, hbehind⟩ := (mem_fetched hfrom).1 hte
    obtain ⟨e, he, hwanted, rfl⟩ := mem_currentEventsByTag.1 hmem
    obtain ⟨htimely, hread⟩ := horder e he hwanted
    refine htimely.resolve_left fun htold => ?_
    obtain ⟨last, hpoll, hle⟩ := hread htold
    exact (hbehind last hpoll).not_ge hle
  · intro te hte
    obtain ⟨e, he, hwanted, rfl⟩ := mem_currentEventsByTag.1 hte
    refine (horder e he hwanted).1.imp_right fun hbehind => (mem_fetched hfrom).2 ⟨hte, ?_⟩
    exact fun last hpoll => hbehind last (hlast last hpoll).2

end Fetched

namespace TagPollingWorld

variable {spec : TagFilterSpec} {fromOffset : Offset} {w : TagPollingWorld W}

/-- Everything that a poll has read is queued, in order, and what is queued is handed out
from its front. -/
structure Sound (spec : TagFilterSpec) (fromOffset : Offset) (w : TagPollingWorld W) : Prop where
  kept : Kept w.log
  told : ∀ te ∈ w.told, ∃ e ∈ w.log, Wanted spec fromOffset e ∧ tagged e = te
  caught : Caught TaggedEvent.offset w.told w.queued
  last : w.lastEmitted = w.queued.getLast?
  polls : ∀ poll ∈ w.polls, poll.scan.Sound w.log poll.since ∧
    ∀ last, poll.lastEmitted = some last → last ∈ w.told
  polled : ∀ e ∈ w.log.take w.polled, Wanted spec fromOffset e → tagged e ∈ w.told
  polled_le : w.polled ≤ w.log.length
  yielded : w.yielded <+: w.queued
  buffered : w.cancelled = false → w.yielded ++ w.buffer = w.queued

section

variable (h : w.Sound spec fromOffset)
include h

lemma Sound.from_le {te : TaggedEvent W} (hte : te ∈ w.told) : fromOffset ≤ te.offset := by
  obtain ⟨e, -, hwanted, rfl⟩ := h.told te hte
  exact hwanted.2

lemma Sound.append {ev : PersistentEvent W} (hev : Appendable w.log ev) :
    Sound spec fromOffset { w with log := w.log ++ [ev] } where
  kept := h.kept.concat hev
  told te hte := by
    obtain ⟨e, he, hwanted⟩ := h.told te hte
    exact ⟨e, mem_append_left _ he, hwanted⟩
  caught := h.caught
  last := h.last
  polls poll hpoll := ⟨(h.polls poll hpoll).1.concat ev, (h.polls poll hpoll).2⟩
  polled := by
    rw [take_append_of_le_length h.polled_le]
    exact h.polled
  polled_le := h.polled_le.trans (by rw [length_append]; exact le_add_right _ _)
  yielded := h.yielded
  buffered := h.buffered

lemma Sound.turn : w.turn.Sound spec fromOffset := by
  rw [TagPollingWorld.turn]
  split
  · exact h
  · next hopen =>
    have hopen' : w.cancelled = false := by rwa [Bool.not_eq_true] at hopen
    split
    · refine ⟨h.kept, h.told, h.caught, h.last, fun poll hpoll => ?_, h.polled, h.polled_le,
        h.yielded, h.buffered⟩
      rcases mem_append.1 hpoll with hpoll | hpoll
      · exact h.polls poll hpoll
      · rw [mem_singleton.1 hpoll]
        refine ⟨.start w.log, fun last hlast => (h.caught.mem_iff last).1 ?_⟩
        exact mem_of_getLast? (h.last.symm.trans hlast)
    · next te buffer hbuffer =>
      have hqueued : (w.yielded ++ [te]) ++ buffer = w.queued := by
        rw [append_assoc, singleton_append, ← hbuffer]
        exact h.buffered hopen'
      exact ⟨h.kept, h.told, h.caught, h.last, h.polls, h.polled, h.polled_le,
        ⟨buffer, hqueued⟩, fun _ => hqueued⟩

lemma Sound.counted (resumed resting : ℕ) : Sound spec fromOffset { w with resumed, resting } :=
  ⟨h.kept, h.told, h.caught, h.last, h.polls, h.polled, h.polled_le, h.yielded, h.buffered⟩

lemma Sound.scan_step (i : ℕ) :
    (TagPollingWorld.step spec fromOffset w (.scan i)).Sound spec fromOffset := by
  rw [TagPollingWorld.step]
  refine ⟨h.kept, h.told, h.caught, h.last, fun poll hpoll => ?_, h.polled, h.polled_le,
    h.yielded, h.buffered⟩
  obtain ⟨j, hj⟩ := mem_iff_getElem?.1 hpoll
  rw [getElem?_modify] at hj
  obtain ⟨poll', hpoll', rfl⟩ := map_eq_some_iff.1 hj
  obtain ⟨hscan, hlast⟩ := h.polls poll' (mem_of_getElem? hpoll')
  split
  · exact ⟨hscan.step h.kept, hlast⟩
  · exact ⟨hscan, hlast⟩

lemma Sound.answer {i : ℕ} {poll : TagPoll W}
    (hpoll : w.polls[i]? = some poll) (hfinished : poll.scan.finished = true)
    (horder : ∀ ev ∈ poll.scan.read, Wanted spec fromOffset ev →
      Timely TaggedEvent.offset w.told (tagged ev) ∧
        (tagged ev ∈ w.told → ∃ last, poll.lastEmitted = some last ∧
          offsetOfEvent ev ≤ last.offset)) :
    Sound spec fromOffset
      { w with
        polls := w.polls.eraseIdx i
        resumed := w.resumed + 1
        buffer := w.buffer ++ poll.fetched spec fromOffset
        lastEmitted := (poll.fetched spec fromOffset).getLast?.or w.lastEmitted
        queued := w.queued ++ poll.fetched spec fromOffset
        told := w.told ++ currentEventsByTag spec fromOffset poll.scan.read
        polled := max w.polled poll.since } := by
  obtain ⟨hscan, hbegan⟩ := h.polls poll (mem_of_getElem? hpoll)
  have hlast : ∀ last, poll.lastEmitted = some last →
      fromOffset ≤ last.offset ∧ last ∈ w.told :=
    fun last heq => ⟨h.from_le (hbegan last heq), hbegan last heq⟩
  obtain ⟨hbehind, hnew⟩ := TagPoll.fetched_new hlast horder
  refine ⟨h.kept, fun te hte => ?_, ?_, ?_, fun other hother => ?_, fun e he hwanted => ?_, ?_,
    h.yielded.trans (prefix_append _ _), fun hopen => ?_⟩
  · rcases mem_append.1 hte with hte | hte
    · exact h.told te hte
    · obtain ⟨e, he, hwanted⟩ := mem_currentEventsByTag.1 hte
      exact ⟨e, hscan.mem e he, hwanted⟩
  · refine (h.caught.append (TagPoll.sorted_fetched hscan.distinct) hbehind).congr fun te => ?_
    rw [mem_append, mem_append]
    refine ⟨Or.imp_right fun hte => ?_, fun hte => hte.elim .inl fun hread => hnew te hread⟩
    exact ((TagPoll.mem_fetched fun last heq => (hlast last heq).1).1 hte).1
  · rw [getLast?_append, h.last]
  · obtain ⟨hother, hlast⟩ := h.polls other (mem_of_mem_eraseIdx hother)
    exact ⟨hother, fun last heq => mem_append_left _ (hlast last heq)⟩
  · rcases le_total w.polled poll.since with hle | hle
    · rw [max_eq_right hle] at he
      exact mem_append_right _ (tagged_mem_currentEventsByTag.2
        ⟨hscan.read_of_finished hfinished he, hwanted⟩)
    · rw [max_eq_left hle] at he
      exact mem_append_left _ (h.polled e he hwanted)
  · exact max_le h.polled_le hscan.since_le
  · rw [← append_assoc, h.buffered hopen]

lemma Sound.step {move : TagPollingMove W} (hmove : InOrder spec fromOffset w move) :
    (step spec fromOffset w move).Sound spec fromOffset := by
  cases move with
  | append ev =>
    rw [TagPollingWorld.step]
    split_ifs with hev
    · exact h.append hev
    · exact h
  | next => exact h.turn
  | scan i => exact h.scan_step i
  | answer i =>
    rw [TagPollingWorld.step]
    split
    · exact h
    · next poll hpoll =>
      split_ifs with hfinished
      · exact h.answer hpoll hfinished (hmove poll hpoll hfinished)
      · exact h
  | resume =>
    rw [TagPollingWorld.step]
    split
    · exact h
    · next resumed _ =>
      split
      · exact h.counted resumed _
      · exact (h.counted resumed w.resting).turn
  | wake =>
    rw [TagPollingWorld.step]
    split
    · exact h
    · next resting _ => exact (h.counted w.resumed resting).turn
  | cancel =>
    exact ⟨h.kept, h.told, h.caught, h.last, h.polls, h.polled, h.polled_le, h.yielded, nofun⟩

/-- What is queued is wanted and there, nothing is queued twice, and every wanted event is
queued once a poll is answered that began behind it. It is handed out in the order of the
queue. -/
structure DeliversOnce (spec : TagFilterSpec) (fromOffset : Offset) (w : TagPollingWorld W) :
    Prop where
  nodup : w.queued.Nodup
  wanted : ∀ te ∈ w.queued, ∃ e ∈ w.log, Wanted spec fromOffset e ∧ tagged e = te
  all : ∀ e ∈ w.log.take w.polled, Wanted spec fromOffset e → tagged e ∈ w.queued
  yielded : w.yielded <+: w.queued

lemma Sound.deliversOnce : w.DeliversOnce spec fromOffset where
  nodup := h.caught.nodup
  wanted te hte := h.told te ((h.caught.mem_iff te).1 hte)
  all e he hwanted := (h.caught.mem_iff _).2 (h.polled e he hwanted)
  yielded := h.yielded

end

lemma sound_opened {log : List (PersistentEvent W)} (hkept : Kept log) :
    (opened log).Sound spec fromOffset :=
  ⟨hkept, nofun, .nil, rfl, nofun, nofun, zero_le _, prefix_rfl, fun _ => rfl⟩

lemma deliversOnce_run {log : List (PersistentEvent W)} (hkept : Kept log)
    {moves : List (TagPollingMove W)}
    (hmoves : Machine.Along (step spec fromOffset) (InOrder spec fromOffset) (opened log) moves) :
    (run (step spec fromOffset) (opened log) moves).DeliversOnce spec fromOffset := by
  have hsound : (run (step spec fromOffset) (opened log) moves).Sound spec fromOffset :=
    invariant (fun _ _ hmove h => h.step hmove) hmoves (sound_opened hkept)
  exact hsound.deliversOnce

end TagPollingWorld

/-- Along runs in which a stream is told of the wanted events in the order of their offsets,
over a bus or by polls that do not overlap in what they read, it delivers each of them
once. -/
theorem eventsByTag_deliversOnce (spec : TagFilterSpec) (fromOffset : Offset)
    (log waiting : List (PersistentEvent W)) (hkept : Kept log)
    (hwaiting : ∀ ev ∈ waiting, ev ∈ log) (pushed : List (TagStreamMove W))
    (hpushed : Machine.Along (step spec fromOffset)
      (InOrder spec fromOffset) (subscribed log waiting) pushed)
    (polled : List (TagPollingMove W))
    (hpolled : Machine.Along (TagPollingWorld.step spec fromOffset)
      (TagPollingWorld.InOrder spec fromOffset) (TagPollingWorld.opened log) polled) :
    (run (step spec fromOffset) (subscribed log waiting) pushed).DeliversOnce spec fromOffset ∧
      (run (TagPollingWorld.step spec fromOffset)
        (TagPollingWorld.opened log) polled).DeliversOnce spec fromOffset :=
  ⟨deliversOnce_run hkept hwaiting hpushed, TagPollingWorld.deliversOnce_run hkept hpolled⟩

/-- The catch-up and the first poll are answered before the second event is there. -/
theorem eventsByTag_deliversOnce_two :
    (run (step {} offsetStart) (subscribed [firstEvent "a" 1] [])
        [.scan, .scan, .answer, .append (firstEvent "b" 2), .publish 0, .next,
          .next]).DeliversOnce {} offsetStart ∧
      (run (TagPollingWorld.step {} offsetStart) (TagPollingWorld.opened [firstEvent "a" 1])
        [.next, .scan 0, .scan 0, .answer 0, .append (firstEvent "b" 2), .resume, .next,
          .scan 0, .scan 0, .scan 0, .cancel]).DeliversOnce {} offsetStart := by
  refine eventsByTag_deliversOnce {} offsetStart [firstEvent "a" 1] [] (kept_firstEvent _ _) nofun
    [.scan, .scan, .answer, .append (firstEvent "b" 2), .publish 0, .next, .next]
    ⟨trivial, trivial, fun _ _ _ _ _ _ => .inr nofun, trivial, fun ev hev _ => ?_, trivial,
      trivial, trivial⟩
    [.next, .scan 0, .scan 0, .answer 0, .append (firstEvent "b" 2), .resume, .next,
      .scan 0, .scan 0, .scan 0, .cancel]
    ⟨trivial, trivial, trivial, fun _ _ _ _ _ _ => ⟨.inr nofun, nofun⟩, trivial, trivial,
      trivial, trivial, trivial, trivial, trivial, trivial⟩
  obtain rfl : firstEvent "b" 2 = ev := some.inj hev
  exact .inr (by decide +kernel)

/-- An event that is published while the catch-up is under way drops what the catch-up
answers before it, and a poll drops an event of the millisecond of the last one it brought
when its id comes before. -/
theorem not_deliversOnce_overtaken :
    ¬ (run (step {} offsetStart) (subscribed [firstEvent "a" 1] [])
        [.append (firstEvent "b" 2), .publish 0, .scan, .scan, .scan, .answer,
          .next]).DeliversOnce {} offsetStart ∧
      ¬ (run (TagPollingWorld.step {} offsetStart) (TagPollingWorld.opened [firstEvent "b" 1])
        [.next, .scan 0, .scan 0, .answer 0, .resume, .append (firstEvent "a" 1), .next,
          .scan 0, .scan 0, .scan 0, .answer 0]).DeliversOnce {} offsetStart := by
  constructor
  · intro h
    refine absurd (h.all (by decide +kernel) (isNone_iff_eq_none.1 (by decide +kernel))
      (firstEvent "a" 1) ?_ (by decide +kernel) ?_) ?_ <;> decide +kernel
  · intro h
    refine absurd (h.all (firstEvent "a" 1) ?_ (by decide +kernel)) ?_ <;> decide +kernel

end ActorTs.Persistence
