import ActorTs.Persistence.TagQuery

/-!
# The live stream of a tag, pushed

Like the stream of one persistence id, a stream by tag feeds one queue from the bus and from a query
behind the subscription, and drops what is not behind the offset that was queued last. The stream
delivers everything that is handed to it in the order of the offsets.
-/

open List Option

namespace ActorTs.Persistence

open TaggedEvent PushQueue

variable {W : Type}

structure TagStream (W : Type) where
  buffer : PushQueue (TaggedEvent W)
  lastEmittedOffset : Option Offset

namespace TagStream

variable (spec : TagFilterSpec) (fromOffset : Offset)

def start : TagStream W := ⟨.empty, none⟩

def emit (stream : TagStream W) (te : TaggedEvent W) : TagStream W :=
  if stream.buffer.cancelled then stream
  else if offsetCompare te.offset fromOffset < 0 then stream
  else if stream.lastEmittedOffset.any fun last => offsetCompare te.offset last ≤ 0 then stream
  else ⟨stream.buffer.push te, some te.offset⟩

def onPublish (stream : TagStream W) (ev : PersistentEvent W) : TagStream W :=
  if eventMatchesTagFilter ev.tags spec then stream.emit fromOffset ⟨ev, offsetOfEvent ev⟩
  else stream

def onCatchUp (stream : TagStream W) (all : List (TaggedEvent W)) : TagStream W :=
  all.foldl (emit fromOffset) stream

end TagStream

inductive TagStreamMove (W : Type) where
  | append (ev : PersistentEvent W)
  | publish (i : ℕ)
  | scan
  | answer
  | next
  | cancel

/-- The journal, its events that the bus has not published yet, the query behind the
subscription until it is answered, the stream, and the wanted events that it was told of, by
the bus or by the answer. -/
structure TagStreamWorld (W : Type) where
  log : List (PersistentEvent W)
  waiting : List (PersistentEvent W)
  catchUp : Option (TagScan W)
  stream : TagStream W
  told : List (TaggedEvent W)

namespace TagStreamWorld

variable (spec : TagFilterSpec) (fromOffset : Offset)

def step (w : TagStreamWorld W) : TagStreamMove W → TagStreamWorld W
  | .append ev =>
    if Appendable w.log ev then { w with log := w.log ++ [ev], waiting := w.waiting ++ [ev] }
    else w
  | .publish i =>
    match w.waiting[i]? with
    | none => w
    | some ev =>
      { w with
        waiting := w.waiting.eraseIdx i
        stream := w.stream.onPublish spec fromOffset ev
        told := if Wanted spec fromOffset ev then w.told ++ [tagged ev] else w.told }
  | .scan => { w with catchUp := w.catchUp.map (TagScan.step w.log) }
  | .answer =>
    match w.catchUp with
    | none => w
    | some scan =>
      if scan.finished then
        let all := currentEventsByTag spec fromOffset scan.read
        { w with
          catchUp := none
          stream := w.stream.onCatchUp fromOffset all
          told := w.told ++ all }
      else w
  | .next => { w with stream.buffer := w.stream.buffer.next }
  | .cancel => { w with stream.buffer := w.stream.buffer.cancel }

/-- A stream that has just subscribed. -/
def subscribed (log waiting : List (PersistentEvent W)) : TagStreamWorld W :=
  ⟨log, waiting, some {}, .start, []⟩

/-- What the stream is told of it was told before, or it lies behind all that it was told. -/
def InOrder (w : TagStreamWorld W) : TagStreamMove W → Prop
  | .publish i => ∀ ev, w.waiting[i]? = some ev → Wanted spec fromOffset ev →
      Timely TaggedEvent.offset w.told (tagged ev)
  | .answer => ∀ scan, w.catchUp = some scan → scan.finished = true →
      ∀ ev ∈ scan.read, Wanted spec fromOffset ev →
        Timely TaggedEvent.offset w.told (tagged ev)
  | _ => True

end TagStreamWorld

/-- The stream has queued what it was told and keeps the offset of the last of it. -/
structure TagStream.Tracks (told : List (TaggedEvent W)) (stream : TagStream W) : Prop where
  caught : Caught TaggedEvent.offset told stream.buffer.delivered
  last : stream.lastEmittedOffset = stream.buffer.delivered.getLast?.map TaggedEvent.offset

section Tracks

variable {spec : TagFilterSpec} {fromOffset : Offset} {told all : List (TaggedEvent W)}
  {stream : TagStream W} {te : TaggedEvent W} {ev : PersistentEvent W}

lemma TagStream.Tracks.emit_told (h : stream.Tracks told) (hte : te ∈ told) :
    stream.emit fromOffset te = stream := by
  have hlast : stream.lastEmittedOffset.any (fun last => offsetCompare te.offset last ≤ 0) =
      true := by
    have hne : stream.buffer.delivered ≠ [] := ne_nil_of_mem ((h.caught.mem_iff te).2 hte)
    obtain ⟨b, hb⟩ := isSome_iff_exists.1 (getLast?_isSome.2 hne)
    rw [h.last, hb, map_some, any_some, decide_eq_true_eq]
    exact Stamp.compare_nonpos_iff.2 (h.caught.le_last hte hb)
  rw [TagStream.emit, if_pos hlast, ite_self, ite_self]

lemma TagStream.Tracks.emit_behind (h : stream.Tracks told)
    (hopen : stream.buffer.cancelled = false) (hfrom : fromOffset ≤ te.offset)
    (hbehind : ∀ t ∈ told, t.offset < te.offset) :
    (stream.emit fromOffset te).Tracks (told ++ [te]) := by
  have hlast : stream.lastEmittedOffset.any (fun last => offsetCompare te.offset last ≤ 0) =
      false := by
    rw [h.last]
    cases hb : stream.buffer.delivered.getLast? with
    | none => rfl
    | some b =>
      rw [map_some, any_some, decide_eq_false_iff_not]
      exact fun hle => absurd (h.caught.last_lt hbehind hb)
        (not_lt.2 (Stamp.compare_nonpos_iff.1 hle))
  have hemit : stream.emit fromOffset te = ⟨stream.buffer.push te, some te.offset⟩ := by
    have hbelow : ¬ offsetCompare te.offset fromOffset < 0 :=
      fun hlt => absurd (Stamp.compare_neg_iff.1 hlt) (not_lt.2 hfrom)
    rw [TagStream.emit, hopen, hlast, if_neg Bool.false_ne_true, if_neg hbelow,
      if_neg Bool.false_ne_true]
  rw [hemit]
  refine ⟨?_, ?_⟩
  · rw [delivered_push]
    refine h.caught.append (pairwise_singleton _ _) fun a ha => ?_
    rw [mem_singleton.1 ha]
    exact hbehind
  · rw [delivered_push, getLast?_concat, map_some]

lemma TagStream.Tracks.emit (h : stream.Tracks told) (hopen : stream.buffer.cancelled = false)
    (hfrom : fromOffset ≤ te.offset) (htimely : Timely offset told te) :
    (stream.emit fromOffset te).Tracks (told ++ [te]) := by
  rcases htimely with hte | hbehind
  · rw [h.emit_told hte]
    exact ⟨h.caught.told_again hte, h.last⟩
  · exact h.emit_behind hopen hfrom hbehind

lemma cancelled_tagEmit (stream : TagStream W) (te : TaggedEvent W) :
    (stream.emit fromOffset te).buffer.cancelled = stream.buffer.cancelled := by
  rw [TagStream.emit]
  split_ifs
  · rfl
  · rfl
  · rfl
  · exact cancelled_push _ _

lemma cancelled_tagCatchUp (stream : TagStream W) (all : List (TaggedEvent W)) :
    (stream.onCatchUp fromOffset all).buffer.cancelled = stream.buffer.cancelled := by
  induction all generalizing stream with
  | nil => rfl
  | cons te all ih => exact (ih _).trans (cancelled_tagEmit stream te)

lemma TagStream.Tracks.onCatchUp (h : stream.Tracks told)
    (hopen : stream.buffer.cancelled = false)
    (hsorted : all.Pairwise fun a b => a.offset < b.offset)
    (hfrom : ∀ te ∈ all, fromOffset ≤ te.offset)
    (htimely : ∀ te ∈ all, Timely offset told te) :
    (stream.onCatchUp fromOffset all).Tracks (told ++ all) := by
  induction all generalizing stream told with
  | nil =>
    rw [append_nil]
    exact h
  | cons te all ih =>
    rw [pairwise_cons] at hsorted
    rw [forall_mem_cons] at hfrom htimely
    have hnext := h.emit hopen hfrom.1 htimely.1
    rw [append_cons]
    refine ih hnext ((cancelled_tagEmit stream te).trans hopen) hsorted.2 hfrom.2 fun te' hte' => ?_
    refine (htimely.2 te' hte').imp (mem_append_left _) fun hbehind t ht => ?_
    rcases mem_append.1 ht with ht | ht
    · exact hbehind t ht
    · rw [mem_singleton.1 ht]
      exact hsorted.1 te' hte'

lemma tagEmit_of_cancelled (h : stream.buffer.cancelled = true) :
    stream.emit fromOffset te = stream := by
  rw [TagStream.emit, if_pos h]

lemma tagCatchUp_of_cancelled (h : stream.buffer.cancelled = true) :
    stream.onCatchUp fromOffset all = stream := by
  induction all with
  | nil => rfl
  | cons te all ih =>
    rw [TagStream.onCatchUp, foldl_cons, tagEmit_of_cancelled h]
    exact ih

lemma tagPublish_of_not_wanted (h : ¬ Wanted spec fromOffset ev) :
    stream.onPublish spec fromOffset ev = stream := by
  rw [TagStream.onPublish]
  split
  · next hmatches =>
    have hbelow : offsetCompare (offsetOfEvent ev) fromOffset < 0 :=
      Stamp.compare_neg_iff.2 (not_le.1 fun hfrom => h ⟨hmatches, hfrom⟩)
    rw [TagStream.emit, if_pos hbelow, ite_self]
  · rfl

lemma tagPublish_of_wanted (h : Wanted spec fromOffset ev) :
    stream.onPublish spec fromOffset ev = stream.emit fromOffset (tagged ev) := by
  rw [TagStream.onPublish, if_pos h.1, tagged]

end Tracks

namespace TagStreamWorld

variable {spec : TagFilterSpec} {fromOffset : Offset} {since : ℕ} {w : TagStreamWorld W}

/-- Every wanted event of the journal was told to the stream, will be published, or was there
when the query began that is under way; and as long as the consumer stays, what was told is
queued for it. -/
structure Sound (spec : TagFilterSpec) (fromOffset : Offset) (since : ℕ) (w : TagStreamWorld W) :
    Prop where
  kept : Kept w.log
  waiting : ∀ ev ∈ w.waiting, ev ∈ w.log
  told : ∀ te ∈ w.told, ∃ e ∈ w.log, Wanted spec fromOffset e ∧ tagged e = te
  scan : ∀ scan, w.catchUp = some scan → scan.Sound w.log since
  since_le : since ≤ w.log.length
  accounted : ∀ e ∈ w.log, Wanted spec fromOffset e →
    tagged e ∈ w.told ∨ e ∈ w.waiting ∨ w.catchUp.isSome = true ∧ e ∈ w.log.take since
  tracks : w.stream.buffer.cancelled = false → w.stream.Tracks w.told
  closed : w.stream.buffer.cancelled = true →
    w.stream.buffer.delivered.Pairwise (fun a b => a.offset < b.offset) ∧
      ∀ te ∈ w.stream.buffer.delivered, te ∈ w.told

section

variable (h : w.Sound spec fromOffset since)
include h

/-- What is queued is in order and was told, whether the consumer has left or not. -/
lemma Sound.delivered :
    w.stream.buffer.delivered.Pairwise (fun a b => a.offset < b.offset) ∧
      ∀ te ∈ w.stream.buffer.delivered, te ∈ w.told := by
  cases hcancelled : w.stream.buffer.cancelled with
  | true => exact h.closed hcancelled
  | false =>
    obtain ⟨hcaught, -⟩ := h.tracks hcancelled
    exact ⟨hcaught.sorted, fun te => (hcaught.mem_iff te).1⟩

lemma Sound.append {ev : PersistentEvent W} (hev : Appendable w.log ev) :
    Sound spec fromOffset since { w with log := w.log ++ [ev], waiting := w.waiting ++ [ev] } where
  kept := h.kept.concat hev
  waiting e he := by
    rcases mem_append.1 he with he | he
    · exact mem_append_left _ (h.waiting e he)
    · exact mem_append_right _ he
  told te hte := by
    obtain ⟨e, he, hwanted⟩ := h.told te hte
    exact ⟨e, mem_append_left _ he, hwanted⟩
  scan scan hscan := (h.scan scan hscan).concat ev
  since_le := h.since_le.trans (by rw [length_append]; exact Nat.le_add_right _ _)
  accounted e he hwanted := by
    rcases mem_append.1 he with he | he
    · refine (h.accounted e he hwanted).imp_right (Or.imp (mem_append_left _) ?_)
      rw [take_append_of_le_length h.since_le]
      exact id
    · exact .inr (.inl (mem_append_right _ he))
  tracks := h.tracks
  closed := h.closed

lemma Sound.publish {i : ℕ} {ev : PersistentEvent W} (hev : w.waiting[i]? = some ev)
    (htimely : Wanted spec fromOffset ev → Timely offset w.told (tagged ev)) :
    Sound spec fromOffset since
      { w with
        waiting := w.waiting.eraseIdx i
        stream := w.stream.onPublish spec fromOffset ev
        told := if Wanted spec fromOffset ev then w.told ++ [tagged ev] else w.told } := by
  have hlog : ev ∈ w.log := h.waiting ev (mem_of_getElem? hev)
  have hrest : ∀ e ∈ w.waiting, e = ev ∨ e ∈ w.waiting.eraseIdx i := by
    intro e he
    obtain ⟨j, hj⟩ := mem_iff_getElem?.1 he
    by_cases hij : j = i
    · subst hij
      exact .inl (some.inj (hj.symm.trans hev))
    · exact .inr (mem_eraseIdx_iff_getElem?.2 ⟨j, hij, hj⟩)
  by_cases hwanted : Wanted spec fromOffset ev
  · rw [if_pos hwanted, tagPublish_of_wanted hwanted]
    refine ⟨h.kept, fun e he => h.waiting e (mem_of_mem_eraseIdx he), fun te hte => ?_,
      h.scan, h.since_le, fun e he hwanted' => ?_, fun hopen => ?_, fun hclosed => ?_⟩
    · rcases mem_append.1 hte with hte | hte
      · exact h.told te hte
      · exact ⟨ev, hlog, hwanted, (mem_singleton.1 hte).symm⟩
    · rcases h.accounted e he hwanted' with htold | hwaiting | hscan
      · exact .inl (mem_append_left _ htold)
      · rcases hrest e hwaiting with rfl | hrest
        · exact .inl (mem_append_right _ (mem_singleton_self _))
        · exact .inr (.inl hrest)
      · exact .inr (.inr hscan)
    · rw [cancelled_tagEmit] at hopen
      exact (h.tracks hopen).emit hopen hwanted.2 (htimely hwanted)
    · rw [cancelled_tagEmit] at hclosed
      rw [tagEmit_of_cancelled hclosed]
      exact ⟨(h.closed hclosed).1, fun te hte =>
        mem_append_left _ ((h.closed hclosed).2 te hte)⟩
  · rw [if_neg hwanted, tagPublish_of_not_wanted hwanted]
    refine ⟨h.kept, fun e he => h.waiting e (mem_of_mem_eraseIdx he), h.told, h.scan,
      h.since_le, fun e he hwanted' => ?_, h.tracks, h.closed⟩
    refine (h.accounted e he hwanted').imp_right (Or.imp_left fun hwaiting => ?_)
    exact (hrest e hwaiting).resolve_left fun heq => hwanted (heq ▸ hwanted')

lemma Sound.scan_step :
    Sound spec fromOffset since { w with catchUp := w.catchUp.map (TagScan.step w.log) } where
  kept := h.kept
  waiting := h.waiting
  told := h.told
  scan scan hscan := by
    obtain ⟨scan', hscan', rfl⟩ := map_eq_some_iff.1 hscan
    exact (h.scan scan' hscan').step h.kept
  since_le := h.since_le
  accounted e he hwanted := by
    rw [isSome_map]
    exact h.accounted e he hwanted
  tracks := h.tracks
  closed := h.closed

lemma Sound.answer {scan : TagScan W}
    (hscan : w.catchUp = some scan) (hfinished : scan.finished = true)
    (htimely : ∀ ev ∈ scan.read, Wanted spec fromOffset ev →
      Timely offset w.told (tagged ev)) :
    Sound spec fromOffset since
      { w with
        catchUp := none
        stream := w.stream.onCatchUp fromOffset (currentEventsByTag spec fromOffset scan.read)
        told := w.told ++ currentEventsByTag spec fromOffset scan.read } := by
  have hsound := h.scan scan hscan
  refine ⟨h.kept, h.waiting, fun te hte => ?_, nofun, h.since_le, fun e he hwanted => ?_,
    fun hopen => ?_, fun hclosed => ?_⟩
  · rcases mem_append.1 hte with hte | hte
    · exact h.told te hte
    · obtain ⟨e, he, hwanted⟩ := mem_currentEventsByTag.1 hte
      exact ⟨e, hsound.mem e he, hwanted⟩
  · rcases h.accounted e he hwanted with htold | hwaiting | ⟨-, hthere⟩
    · exact .inl (mem_append_left _ htold)
    · exact .inr (.inl hwaiting)
    · exact .inl (mem_append_right _ (tagged_mem_currentEventsByTag.2
        ⟨hsound.read_of_finished hfinished hthere, hwanted⟩))
  · rw [cancelled_tagCatchUp] at hopen
    refine (h.tracks hopen).onCatchUp hopen (sorted_currentEventsByTag hsound.distinct)
      (fun te hte => ?_) fun te hte => ?_
    · obtain ⟨e, -, hwanted, rfl⟩ := mem_currentEventsByTag.1 hte
      exact hwanted.2
    · obtain ⟨e, he, hwanted, rfl⟩ := mem_currentEventsByTag.1 hte
      exact htimely e he hwanted
  · rw [cancelled_tagCatchUp] at hclosed
    rw [tagCatchUp_of_cancelled hclosed]
    exact ⟨(h.closed hclosed).1, fun te hte =>
      mem_append_left _ ((h.closed hclosed).2 te hte)⟩

/-- What the consumer does changes nothing but what is handed out, and whether it is there. -/
lemma Sound.consume {buffer : PushQueue (TaggedEvent W)}
    (hdelivered : buffer.delivered = w.stream.buffer.delivered)
    (hopen : buffer.cancelled = false → w.stream.buffer.cancelled = false) :
    Sound spec fromOffset since { w with stream.buffer := buffer } := by
  refine ⟨h.kept, h.waiting, h.told, h.scan, h.since_le, h.accounted, fun hb => ?_, fun _ => ?_⟩
  · obtain ⟨hcaught, hlast⟩ := h.tracks (hopen hb)
    refine ⟨?_, ?_⟩ <;> rw [hdelivered]
    · exact hcaught
    · exact hlast
  · rw [hdelivered]
    exact h.delivered

lemma Sound.step {move : TagStreamMove W} (hmove : InOrder spec fromOffset w move) :
    (step spec fromOffset w move).Sound spec fromOffset since := by
  cases move with
  | append ev =>
    rw [TagStreamWorld.step]
    split_ifs with hev
    · exact h.append hev
    · exact h
  | publish i =>
    rw [TagStreamWorld.step]
    split
    · exact h
    · next ev hev => exact h.publish hev (hmove ev hev)
  | scan => exact h.scan_step
  | answer =>
    rw [TagStreamWorld.step]
    split
    · exact h
    · next scan hscan =>
      split_ifs with hfinished
      · exact h.answer hscan hfinished (hmove scan hscan hfinished)
      · exact h
  | next =>
    exact h.consume (delivered_next _) fun hopen => (cancelled_next _).symm.trans hopen
  | cancel => exact h.consume (delivered_cancel _) nofun

/-- What is queued is wanted and there, and nothing is queued twice. As long as the consumer
stays, every wanted event is queued once the query is answered and the event published. -/
structure DeliversOnce (spec : TagFilterSpec) (fromOffset : Offset) (w : TagStreamWorld W) :
    Prop where
  nodup : w.stream.buffer.delivered.Nodup
  wanted : ∀ te ∈ w.stream.buffer.delivered,
    ∃ e ∈ w.log, Wanted spec fromOffset e ∧ tagged e = te
  all : w.stream.buffer.cancelled = false → w.catchUp = none → ∀ e ∈ w.log,
    Wanted spec fromOffset e → e ∉ w.waiting → tagged e ∈ w.stream.buffer.delivered

lemma Sound.deliversOnce : w.DeliversOnce spec fromOffset where
  nodup := h.delivered.1.imp fun hlt => ne_of_apply_ne offset hlt.ne
  wanted te hte := h.told te (h.delivered.2 te hte)
  all hopen hanswered e he hwanted hpublished := by
    refine ((h.tracks hopen).caught.mem_iff _).2 ?_
    refine (h.accounted e he hwanted).resolve_right fun hlater => ?_
    rcases hlater with hwaiting | ⟨hasking, -⟩
    · exact hpublished hwaiting
    · rw [hanswered] at hasking
      cases hasking

end

lemma sound_subscribed {log waiting : List (PersistentEvent W)} (hkept : Kept log)
    (hwaiting : ∀ ev ∈ waiting, ev ∈ log) :
    (subscribed log waiting).Sound spec fromOffset log.length := by
  refine ⟨hkept, hwaiting, nofun, ?_, le_rfl, fun e he _ => .inr (.inr ⟨rfl, ?_⟩),
    fun _ => ⟨.nil, rfl⟩, nofun⟩
  · rintro scan ⟨⟩
    exact .start log
  · exact take_length.symm ▸ he

lemma deliversOnce_run {log waiting : List (PersistentEvent W)} (hkept : Kept log)
    (hwaiting : ∀ ev ∈ waiting, ev ∈ log) {moves : List (TagStreamMove W)}
    (hmoves : Machine.Along (step spec fromOffset) (InOrder spec fromOffset)
      (subscribed log waiting) moves) :
    (Machine.run (step spec fromOffset) (subscribed log waiting) moves).DeliversOnce spec
      fromOffset := by
  have hsound : (Machine.run (step spec fromOffset) (subscribed log waiting) moves).Sound spec
      fromOffset log.length :=
    Machine.invariant (fun _ _ hmove h => h.step hmove) hmoves (sound_subscribed hkept hwaiting)
  exact hsound.deliversOnce

end TagStreamWorld

end ActorTs.Persistence
