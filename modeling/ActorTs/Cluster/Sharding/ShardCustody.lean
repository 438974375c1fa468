import ActorTs.Cluster.Sharding.Shard
import ActorTs.Library.Custody
import ActorTs.Library.Machine

/-!
# What becomes of the messages for an entity

A message waits in the buffer of an entity that is on its way out, or is held for one that is kept
down, never both. They are told in the order they came, wait, or went to the dead letters. A buffer
that is begun anew while something waits in it, and one that is left when the shard stops, break
this.
-/

open List Option Nat

namespace ActorTs.Cluster.Sharding

open OrderedMap ShardEffect

namespace ShardEffect

variable {T : Type}

def arrivedOf (entityId : JsString) : ShardEffect T → Option (BufferedMessage T)
  | .arrived id letter => if id = entityId then some letter else none
  | _ => none

def toldOf (entityId : JsString) : ShardEffect T → Option (BufferedMessage T)
  | .told id letter => if id = entityId then some letter else none
  | _ => none

def lostOf (entityId : JsString) : ShardEffect T → Option (BufferedMessage T)
  | .deadLettered id letter _ _ => if id = entityId then some letter else none
  | _ => none

/-- A dead letter is made because the hold is full, or because the shard stops. -/
def Excused (bufferSize : ℕ) : ShardEffect T → Prop
  | .deadLettered _ _ heldCount stopping => stopping = true ∨ (bufferSize : ℤ) ≤ heldCount
  | _ => True

/-- Effects that are about no message of an entity. -/
def isQuiet : ShardEffect T → Bool
  | .arrived _ _ => false
  | .told _ _ => false
  | .deadLettered _ _ _ _ => false
  | _ => true

end ShardEffect

namespace Shard

variable {T : Type} {config : ShardConfig} {now random : ℚ} {s : Shard T} {id : JsString}
  {letter : BufferedMessage T}

/-! ### Custody -/

/-- What waits for an entity to stop. -/
def bufferedFor (s : Shard T) (id : JsString) : List (BufferedMessage T) :=
  ((s.entities.get? id).bind EntityState.passivating).getD []

/-- What is held for an entity that is kept down. -/
def heldFor (s : Shard T) (id : JsString) : List (BufferedMessage T) :=
  (s.restarts.get? id).elim [] EntityRestartRecord.held

def custody (s : Shard T) (id : JsString) : Custody (BufferedMessage T) where
  arrived := s.log.filterMap (ShardEffect.arrivedOf id)
  given := s.log.filterMap (ShardEffect.toldOf id)
  waiting := s.bufferedFor id ++ s.heldFor id
  lost := s.log.filterMap (ShardEffect.lostOf id)

lemma custody_emit (effect : ShardEffect T) (id : JsString) :
    (s.emit effect).custody id =
      { arrived := (s.custody id).arrived ++ (effect.arrivedOf id).toList
        given := (s.custody id).given ++ (effect.toldOf id).toList
        waiting := (s.custody id).waiting
        lost := (s.custody id).lost ++ (effect.lostOf id).toList } := by
  have hone : ∀ f : ShardEffect T → Option (BufferedMessage T),
      (s.log ++ [effect]).filterMap f = s.log.filterMap f ++ (f effect).toList := by
    intro f
    rw [filterMap_append, filterMap_cons]
    cases f effect <;> rfl
  unfold custody emit
  rw [hone, hone, hone]
  rfl

/-- The messages of one entity are in hand. -/
def only (id : JsString) (letters : List (BufferedMessage T)) (id' : JsString) :
    List (BufferedMessage T) :=
  if id' = id then letters else []

@[simp] lemma only_nil (id id' : JsString) : only (T := T) id [] id' = [] := ite_self _

/-- A shard that keeps its messages, but for some of one entity that are in hand. -/
structure Keeping (config : ShardConfig) (id : JsString) (inHand : List (BufferedMessage T))
    (s : Shard T) : Prop where
  sound : ∀ id', (s.custody id').Sound (only id inHand id')
  /-- Nothing is held for an entity that is there. -/
  awake : ∀ id', s.entities.get? id' ≠ none → s.heldFor id' = []
  counted : s.heldCount = s.restarts.total fun record => record.held.length
  bound : s.heldCount ≤ config.bufferSize
  excused : ∀ effect ∈ s.log, effect.Excused config.bufferSize
  running : s.stopped = false

namespace Keeping

variable {inHand letters : List (BufferedMessage T)}

lemma rename (h : Keeping config id [] s) (id' : JsString) : Keeping config id' [] s := by
  refine ⟨fun id'' => ?_, h.awake, h.counted, h.bound, h.excused, h.running⟩
  have hsound := h.sound id''
  rwa [only_nil] at hsound ⊢

/-- An effect that is about one entity moves the messages of that entity. -/
lemma emitOne (h : Keeping config id letters s) {effect : ShardEffect T} (hother : ∀ id' ≠ id,
      effect.arrivedOf id' = none ∧ effect.toldOf id' = none ∧ effect.lostOf id' = none)
    (hone : (s.custody id).Sound letters → ((s.emit effect).custody id).Sound inHand)
    (hexcused : effect.Excused config.bufferSize) : Keeping config id inHand (s.emit effect) := by
  refine ⟨fun id' => ?_, h.awake, h.counted, h.bound, fun e he => ?_, h.running⟩
  · have hsound := h.sound id'
    unfold only at hsound ⊢
    by_cases heq : id' = id
    · subst heq
      rw [if_pos rfl] at hsound ⊢
      exact hone hsound
    · obtain ⟨harrived, htold, hlost⟩ := hother id' heq
      rw [if_neg heq] at hsound ⊢
      rw [custody_emit, harrived, htold, hlost]
      simpa only [toList_none, append_nil] using hsound
  · rcases mem_append.1 he with he | he
    · exact h.excused e he
    · obtain rfl := mem_singleton.1 he
      exact hexcused

lemma emit (h : Keeping config id inHand s) (effect : ShardEffect T)
    (hquiet : effect.isQuiet = true) : Keeping config id inHand (s.emit effect) := by
  have hnone : ∀ id', effect.arrivedOf id' = none ∧ effect.toldOf id' = none ∧
      effect.lostOf id' = none := by
    intro id'
    cases effect <;> first | exact ⟨rfl, rfl, rfl⟩ | exact nomatch hquiet
  refine h.emitOne (fun id' _ => hnone id') (fun hsound => ?_) ?_
  · obtain ⟨harrived, htold, hlost⟩ := hnone id
    rw [custody_emit, harrived, htold, hlost]
    simpa only [toList_none, append_nil] using hsound
  · cases effect <;> first | exact trivial | exact nomatch hquiet

lemma congr {s' : Shard T} (h : Keeping config id inHand s)
    (hbuffered : ∀ id', s'.bufferedFor id' = s.bufferedFor id')
    (hheld : ∀ id', s'.heldFor id' = s.heldFor id')
    (hthere : ∀ id', s'.entities.get? id' ≠ none → s.entities.get? id' ≠ none ∨ s.heldFor id' = [])
    (htotal : (s'.restarts.total fun record => record.held.length) =
      s.restarts.total fun record => record.held.length)
    (hcount : s'.heldCount = s.heldCount) (hlog : s'.log = s.log)
    (hstopped : s'.stopped = s.stopped) : Keeping config id inHand s' := by
  refine ⟨fun id' => ?_, fun id' hid' => ?_, ?_, ?_, ?_, hstopped.trans h.running⟩
  · have hsound := h.sound id'
    unfold custody at hsound ⊢
    rwa [hbuffered, hheld, hlog]
  · rw [hheld]
    exact (hthere id' hid').elim (h.awake id') fun hnone => hnone
  · rw [hcount, htotal]
    exact h.counted
  · rw [hcount]
    exact h.bound
  · rw [hlog]
    exact h.excused

end Keeping

/-! ### Reading a shard -/

variable {record : EntityRestartRecord T}

lemma heldFor_eq (h : s.restarts.get? id = some record) : s.heldFor id = record.held := by
  unfold heldFor
  rw [h]
  rfl

lemma bufferedFor_eq_nil (h : s.entities.get? id = none) : s.bufferedFor id = [] := by
  unfold bufferedFor
  rw [h]
  rfl

lemma heldFor_setRecord (record : EntityRestartRecord T) (id' : JsString) :
    (s.setRecord id record).heldFor id' = if id = id' then record.held else s.heldFor id' := by
  unfold heldFor setRecord
  rw [get?_set]
  split <;> rfl

lemma bufferedFor_setEntity (state : EntityState T) (id' : JsString) :
    (s.setEntity id state).bufferedFor id' =
      if id = id' then state.passivating.getD [] else s.bufferedFor id' := by
  unfold bufferedFor setEntity
  rw [get?_set]
  split <;> rfl

lemma length_heldFor (id : JsString) :
    ((s.restarts.get? id).elim 0 fun record => record.held.length) = (s.heldFor id).length := by
  unfold heldFor
  cases s.restarts.get? id <;> rfl

lemma total_setRecord (s : Shard T) (id : JsString) (record : EntityRestartRecord T) :
    ((s.setRecord id record).restarts.total fun record => record.held.length) +
        (s.heldFor id).length =
      (s.restarts.total fun record => record.held.length) + record.held.length := by
  rw [← length_heldFor]
  exact total_set _ s.restarts id record

lemma heldDown_eq_some (h : s.heldDown now id = some record) : s.restarts.get? id = some record :=
  (filter_eq_some_iff.1 h).1

lemma heldFor_of_heldDown (h : s.heldDown now id = none) : s.heldFor id = [] := by
  unfold heldFor
  cases hrecord : s.restarts.get? id with
  | none => rfl
  | some record =>
    unfold heldDown at h
    rw [hrecord] at h
    by_contra hheld
    have hdown : record.isHeldDown now = true := decide_eq_true (.inl hheld)
    rw [filter_some, if_pos hdown] at h
    exact nomatch h

lemma held_of_isSpent (h : record.isSpent config now = true) : record.held = [] :=
  (of_decide_eq_true h).1

lemma heldFor_pruneRestartRecords (config : ShardConfig) (now : ℚ) (s : Shard T)
    (id : JsString) : (s.pruneRestartRecords config now).heldFor id = s.heldFor id := by
  unfold pruneRestartRecords
  cases config.prunesRestartRecords with
  | false => rfl
  | true =>
    unfold heldFor
    dsimp only [cond_true]
    cases hrecord : (s.restarts.dropWhile fun entry => entry.2.isSpent config now).get? id with
    | some record => rw [get?_of_get?_dropWhile hrecord]
    | none =>
      cases hbefore : s.restarts.get? id with
      | none => rfl
      | some record =>
        cases hdropped : record.isSpent config now with
        | true => exact (held_of_isSpent hdropped).symm
        | false =>
          have hkept := get?_dropWhile
            (p := fun entry => entry.2.isSpent config now) hbefore hdropped
          exact nomatch hrecord.symm.trans hkept

lemma entities_pruneRestartRecords (config : ShardConfig) (now : ℚ) (s : Shard T) :
    (s.pruneRestartRecords config now).entities = s.entities := by
  unfold pruneRestartRecords
  cases config.prunesRestartRecords <;> rfl

lemma entities_createEntity (config : ShardConfig) (s : Shard T) (id : JsString) :
    (s.createEntity config id).entities =
      s.entities.set id { ref := config.path ++ "/" ++ entityName id } := by
  unfold createEntity
  cases s.restarts.get? id <;> rfl

namespace Keeping

variable {inHand letters : List (BufferedMessage T)} {state : EntityState T}

section

variable (h : Keeping config id inHand s)
include h

lemma setRecord {id' : JsString} (record : EntityRestartRecord T)
    (hheld : record.held = s.heldFor id') : Keeping config id inHand (s.setRecord id' record) := by
  refine h.congr (fun _ => rfl) (fun id'' => ?_) (fun _ => .inl) ?_ rfl rfl rfl
  · rw [heldFor_setRecord]
    split
    · next heq => rw [hheld, heq]
    · rfl
  · have htotal := total_setRecord s id' record
    rw [hheld] at htotal
    exact add_right_cancel htotal

/-- An entity with the same messages in its buffer, which is there, or for which nothing is
held. -/
lemma setEntity {id' : JsString} (hbuffered : state.passivating.getD [] = s.bufferedFor id')
    (hheld : s.entities.get? id' ≠ none ∨ s.heldFor id' = []) :
    Keeping config id inHand (s.setEntity id' state) := by
  refine h.congr (fun id'' => ?_) (fun _ => rfl) (fun id'' hid'' => ?_) rfl rfl rfl rfl
  · rw [bufferedFor_setEntity]
    split
    · next heq => rw [hbuffered, heq]
    · rfl
  · by_cases heq : id' = id''
    · exact heq ▸ hheld
    · refine .inl ?_
      unfold Shard.setEntity at hid''
      rwa [get?_set, if_neg heq] at hid''

lemma prune : Keeping config id inHand (s.pruneRestartRecords config now) := by
  have hheld := heldFor_pruneRestartRecords config now s
  unfold pruneRestartRecords at hheld ⊢
  cases hprunes : config.prunesRestartRecords with
  | false => exact h
  | true =>
    rw [hprunes] at hheld
    refine h.congr (fun _ => rfl) hheld (fun _ => .inl) ?_ rfl rfl rfl
    refine total_dropWhile (fun entry hentry => ?_) s.restarts
    rw [held_of_isSpent hentry]
    rfl

lemma createEntity {id' : JsString} (hbuffered : s.bufferedFor id' = [])
    (hheld : s.heldFor id' = []) : Keeping config id inHand (s.createEntity config id') := by
  refine Keeping.emit ?_ _ rfl
  have hstart : ∀ s' : Shard T, Keeping config id inHand s' → s'.bufferedFor id' = [] →
      s'.heldFor id' = [] → Keeping config id inHand ((s'.emit (.spawned id')).setEntity id'
          { ref := config.path ++ "/" ++ entityName id' }) :=
    fun s' h' hbuffered' hheld' => (h'.emit _ rfl).setEntity hbuffered'.symm (.inr hheld')
  cases hrecord : s.restarts.get? id' with
  | none =>
    exact (hstart s h hbuffered hheld).congr (fun _ => rfl) (fun _ => rfl) (fun _ => .inl)
      rfl rfl rfl rfl
  | some record =>
    have hset := h.setRecord { record with timer := false, messageSinceStop := false }
      (heldFor_eq hrecord).symm
    refine (hstart _ hset hbuffered ?_).congr (fun _ => rfl) (fun _ => rfl) (fun _ => .inl)
      rfl rfl rfl rfl
    rw [heldFor_setRecord, if_pos rfl]
    exact (heldFor_eq hrecord).symm.trans hheld

end

/-! ### Delivering -/

lemma give (h : Keeping config id (letter :: letters) s) (hbuffered : s.bufferedFor id = [])
    (hheld : s.heldFor id = []) : Keeping config id letters (s.emit (.told id letter)) := by
  have hnone : (s.custody id).waiting = [] := by
    unfold custody
    rw [hbuffered, hheld]
    rfl
  refine h.emitOne (fun id' hne => ⟨rfl, if_neg hne.symm, rfl⟩) (fun hsound => ?_) trivial
  simpa [custody_emit, arrivedOf, toldOf, lostOf] using hsound.give hnone

lemma giveNew (h : Keeping config id (letter :: letters) (s.createEntity config id)) :
    Keeping config id letters ((s.createEntity config id).emit (.told id letter)) := by
  have hstate := entities_createEntity config s id
  refine h.give ?_ (h.awake id ?_)
  · unfold bufferedFor
    rw [hstate, get?_set_self]
    rfl
  · rw [hstate, get?_set_self]
    exact nofun

lemma lose (h : Keeping config id (letter :: letters) s)
    (hfull : (config.bufferSize : ℤ) ≤ s.heldCount) :
    Keeping config id letters (s.emit (.deadLettered id letter s.heldCount false)) := by
  refine h.emitOne (fun id' hne => ⟨rfl, rfl, if_neg hne.symm⟩) (fun hsound => ?_) (.inr hfull)
  simpa [custody_emit, arrivedOf, toldOf, lostOf] using hsound.lose

lemma wait {s' : Shard T} (h : Keeping config id (letter :: letters) s)
    (hwaiting : (s'.custody id).waiting = (s.custody id).waiting ++ [letter])
    (hothers : ∀ id', id' ≠ id → (s'.custody id').waiting = (s.custody id').waiting)
    (hlog : s'.log = s.log) (id' : JsString) : (s'.custody id').Sound (only id letters id') := by
  have hsound := h.sound id'
  have hcustody : s'.custody id' =
      { s.custody id' with waiting := (s'.custody id').waiting } := by
    unfold custody
    rw [hlog]
  rw [hcustody]
  unfold only at *
  by_cases heq : id' = id
  · subst heq
    rw [if_pos rfl] at hsound ⊢
    rw [hwaiting]
    exact hsound.wait
  · rw [if_neg heq] at hsound ⊢
    rw [hothers id' heq]
    exact hsound

lemma buffer (h : Keeping config id (letter :: letters) s) {buffered : List (BufferedMessage T)}
    (hstate : s.entities.get? id = some state) (hbuffered : state.passivating = some buffered) :
    Keeping config id letters
      (s.setEntity id { state with passivating := some (buffered ++ [letter]) }) := by
  have hbefore : s.bufferedFor id = buffered := by
    unfold bufferedFor
    rw [hstate, bind_some, hbuffered]
    rfl
  have hheld : s.heldFor id = [] := h.awake id (by rw [hstate]; exact nofun)
  refine ⟨h.wait ?_ (fun id' heq => ?_) rfl, fun id' hid' => ?_, h.counted, h.bound, h.excused,
    h.running⟩
  · unfold custody
    rw [bufferedFor_setEntity, if_pos rfl, hbefore, hheld, append_nil]
    exact (congrArg _ hheld).trans (append_nil _)
  · unfold custody
    rw [bufferedFor_setEntity, if_neg (Ne.symm heq)]
    rfl
  · by_cases heq : id = id'
    · exact heq ▸ hheld
    · unfold Shard.setEntity at hid'
      rw [get?_set, if_neg heq] at hid'
      exact h.awake id' hid'

lemma armRestart {record : EntityRestartRecord T} {id' : JsString}
    (h : ∀ record' : EntityRestartRecord T, record'.held = record.held →
      Keeping config id inHand (s.setRecord id' record')) :
    Keeping config id inHand (s.armRestart now id' record) := by
  unfold Shard.armRestart
  cases record.timer with
  | true => exact h record rfl
  | false => exact (h { record with timer := true } rfl).emit _ rfl

lemma hold (h : Keeping config id (letter :: letters) s) {record : EntityRestartRecord T}
    (hgone : s.entities.get? id = none) (hheld : record.held = s.heldFor id) :
    Keeping config id letters (s.hold config now id record letter) := by
  unfold Shard.hold
  split
  · next hfull => exact (h.setRecord record hheld).lose hfull
  · next hroom =>
    refine armRestart fun record' hrecord' => ?_
    rw [hheld] at hrecord'
    have hafter : ∀ id', ({ s with heldCount := s.heldCount + 1 }.setRecord id record').heldFor
        id' = if id = id' then s.heldFor id ++ [letter] else s.heldFor id' := by
      intro id'
      rw [heldFor_setRecord, hrecord']
      rfl
    refine ⟨h.wait ?_ (fun id' heq => ?_) rfl, fun id' hid' => ?_, ?_, ?_, h.excused, h.running⟩
    · unfold custody
      rw [hafter, if_pos rfl, ← append_assoc]
      rfl
    · unfold custody
      rw [hafter, if_neg (Ne.symm heq)]
      rfl
    · rw [hafter]
      by_cases heq : id = id'
      · exact absurd (heq ▸ hgone) hid'
      · rw [if_neg heq]
        exact h.awake id' hid'
    · have htotal := total_setRecord { s with heldCount := s.heldCount + 1 } id record'
      have hcounted := h.counted
      rw [hrecord', length_append, length_singleton] at htotal
      have hsame : ({ s with heldCount := s.heldCount + 1 } : Shard T).heldFor id =
          s.heldFor id := rfl
      rw [hsame] at htotal
      unfold Shard.setRecord at htotal ⊢
      dsimp only at htotal ⊢
      omega
    · unfold Shard.setRecord
      dsimp only
      omega

/-- A letter in hand is delivered: told, kept waiting, or lost to a full hold. -/
lemma deliver (h : Keeping config id (letter :: letters) s) :
    Keeping config id letters (s.deliver config now id letter) := by
  unfold Shard.deliver
  split
  · next state hstate =>
    split
    · next buffered hbuffered => exact h.buffer hstate hbuffered
    · next hrunning =>
      refine h.give ?_ (h.awake id (by rw [hstate]; exact nofun))
      unfold bufferedFor
      rw [hstate, bind_some, hrunning]
      rfl
  · next hgone =>
    split
    · next record hrecord =>
      exact h.hold hgone (heldFor_eq (heldDown_eq_some hrecord)).symm
    · next hup =>
      have hheld := (heldFor_pruneRestartRecords config now s id).trans (heldFor_of_heldDown hup)
      have hbuffered : (s.pruneRestartRecords config now).bufferedFor id = [] :=
        bufferedFor_eq_nil (by rw [entities_pruneRestartRecords]; exact hgone)
      exact (h.prune.createEntity hbuffered hheld).giveNew

/-! ### Handlers -/

lemma onEntityEnvelope (h : Keeping config id [] s) :
    Keeping config id [] (s.onEntityEnvelope config now id letter) := by
  refine Keeping.deliver (h.emitOne (fun id' hne => ⟨if_neg hne.symm, rfl, rfl⟩)
    (fun hsound => ?_) trivial)
  simpa [custody_emit, arrivedOf, toldOf, lostOf] using hsound.arrive letter

lemma startEntity (h : Keeping config id [] s) (id' : JsString) :
    Keeping config id [] (s.startEntity config now id') := by
  unfold Shard.startEntity
  split
  · exact h
  · next hgone =>
    split
    · next record hrecord =>
      refine armRestart fun record' hrecord' => h.setRecord _ ?_
      rw [hrecord', heldFor_eq (heldDown_eq_some hrecord)]
    · next hup => exact h.createEntity (bufferedFor_eq_nil hgone) (heldFor_of_heldDown hup)

lemma onStartEntities (h : Keeping config id [] s) (ids : List JsString) :
    Keeping config id [] (s.onStartEntities config now ids) := by
  induction ids generalizing s with
  | nil => exact h
  | cons id' ids ih => exact ih (h.startEntity id')

lemma onPassivateEntity (h : Keeping config id [] s) (id' : JsString) :
    Keeping config id [] (s.onPassivateEntity id') := by
  unfold Shard.onPassivateEntity
  split
  · split
    · next record hrecord =>
      refine (h.setRecord _ ?_).emit _ rfl
      exact (heldFor_eq (filter_eq_some_iff.1 hrecord).1).symm
    · exact h
  · next state hstate =>
    split
    · exact h
    · next hrunning =>
      refine (h.setEntity ?_ (.inl (by rw [hstate]; exact nofun))).emit _ rfl
      unfold bufferedFor
      rw [hstate, bind_some, hrunning]
      rfl

lemma tellAll (letters : List (BufferedMessage T)) (h : Keeping config id letters s)
    (hnone : letters ≠ [] → s.bufferedFor id = [] ∧ s.heldFor id = []) :
    Keeping config id [] (s.tellAll id letters) := by
  induction letters generalizing s with
  | nil => exact h
  | cons letter letters ih =>
    obtain ⟨hbuffered, hheld⟩ := hnone (cons_ne_nil _ _)
    exact ih (h.give hbuffered hheld) fun _ => ⟨hbuffered, hheld⟩

lemma takeUpHeld (h : Keeping config id [] s) (record : EntityRestartRecord T)
    (hempty : record.held = []) (hbuffered : s.heldFor id ≠ [] → s.bufferedFor id = []) :
    Keeping config id (s.heldFor id)
      { s.setRecord id record with heldCount := s.heldCount - (s.heldFor id).length } := by
  have hafter : ∀ id', (s.setRecord id record).heldFor id' =
      if id = id' then [] else s.heldFor id' := by
    intro id'
    rw [heldFor_setRecord, hempty]
  have htotal := total_setRecord s id record
  rw [hempty, length_nil, add_zero] at htotal
  have hcounted := h.counted
  refine ⟨fun id' => ?_, fun id' hid' => ?_, ?_, ?_, h.excused, h.running⟩
  · have hsound := h.sound id'
    have hcustody : ({ s.setRecord id record with
        heldCount := s.heldCount - (s.heldFor id).length } : Shard T).custody id' =
        { s.custody id' with waiting := s.bufferedFor id' ++
          if id = id' then [] else s.heldFor id' } := by
      rw [← hafter]
      rfl
    rw [hcustody]
    unfold only at *
    by_cases heq : id' = id
    · subst heq
      rw [if_pos rfl] at hsound ⊢
      rw [if_pos rfl, append_nil]
      by_cases hheld : s.heldFor id' = []
      · rw [hheld]
        unfold custody at hsound
        rwa [hheld, append_nil] at hsound
      · have hup := hsound.takeUp
        rw [hbuffered hheld]
        unfold custody at hup ⊢
        rwa [hbuffered hheld, nil_append] at hup
    · rw [if_neg heq] at hsound ⊢
      rw [if_neg (Ne.symm heq)]
      exact hsound
  · refine (hafter id').trans ?_
    split
    · rfl
    · exact h.awake id' hid'
  · dsimp only
    omega
  · have hbound := h.bound
    dsimp only
    omega

lemma resume (h : Keeping config id letters s) (hheld : s.heldFor id = [])
    (hthere : s.entities.get? id ≠ none → letters = []) :
    Keeping config id [] ((match s.entities.get? id with
      | some _ => s
      | none => s.createEntity config id).tellAll id letters) := by
  split
  · next state hstate =>
    have hempty := hthere (by rw [hstate]; exact nofun)
    exact h.tellAll letters fun hsome => absurd hempty hsome
  · next hgone =>
    have hcreated := h.createEntity (bufferedFor_eq_nil hgone) hheld
    have hentities := entities_createEntity config s id
    refine hcreated.tellAll letters fun _ => ⟨?_, hcreated.awake id ?_⟩
    · unfold bufferedFor
      rw [hentities, get?_set_self]
      rfl
    · rw [hentities, get?_set_self]
      exact nofun

lemma onEntityRestartTick (h : Keeping config id [] s) :
    Keeping config id [] (s.onEntityRestartTick config now id) := by
  unfold Shard.onEntityRestartTick
  split
  · exact h
  · next record hrecord =>
    have hheld := heldFor_eq (filter_eq_some_iff.1 hrecord).1
    have hbuffered : s.heldFor id ≠ [] → s.bufferedFor id = [] := by
      intro hsome
      refine bufferedFor_eq_nil ?_
      by_contra hthere
      exact hsome (h.awake id hthere)
    have hup := h.takeUpHeld { record with
      timer := false, blockedUntil := min record.blockedUntil now, held := [] } rfl hbuffered
    rw [hheld] at hup
    refine hup.resume ((heldFor_setRecord _ id).trans (if_pos rfl)) fun hthere => ?_
    exact hheld.symm.trans (h.awake id hthere)

lemma onPassivate (h : Keeping config id [] s) {entity sender : Option JsString} (stopMessage : T)
    (hempty : ∀ candidate id' state, s.passivated entity sender = some (candidate, id', state) →
      state.passivating.getD [] = []) :
    Keeping config id [] (s.onPassivate config entity stopMessage sender) := by
  unfold Shard.onPassivate
  split
  · exact h
  · next candidate id' state hfound =>
    have hstate : s.entities.get? id' = some state := by
      unfold passivated at hfound
      simp only [Option.bind_eq_bind, Option.bind_eq_some_iff, Option.pure_def,
        some.injEq, Prod.mk.injEq] at hfound
      obtain ⟨_, -, _, -, _, hstate, -, rfl, rfl⟩ := hfound
      exact hstate
    have hthere : (s.emit (.toldToStop candidate stopMessage)).entities.get? id' ≠ none := by
      refine fun hnone => ?_
      exact nomatch hstate.symm.trans hnone
    have hbuffered : s.bufferedFor id' = [] := by
      unfold bufferedFor
      rw [hstate]
      exact hempty candidate id' state hfound
    have htold := h.emit (.toldToStop candidate stopMessage) rfl
    have hset : ∀ timer : Bool, Keeping config id []
        ((s.emit (.toldToStop candidate stopMessage)).setEntity id'
          { state with passivating := some [], stopTimer := timer }) :=
      fun _ => htold.setEntity hbuffered.symm (.inl hthere)
    unfold armStopTimeout
    split
    · exact hset state.stopTimer
    · exact (hset true).emit _ rfl

lemma onEntityStopTimeout (h : Keeping config id [] s) (id' : JsString) :
    Keeping config id [] (s.onEntityStopTimeout id') := by
  unfold Shard.onEntityStopTimeout
  split
  · exact h
  · next state hfound =>
    have hstate := (filter_eq_some_iff.1 hfound).1
    refine (h.setEntity ?_ (.inl (by rw [hstate]; exact nofun))).emit _ rfl
    unfold bufferedFor
    rw [hstate]
    rfl

/-- The record of an entity goes to the end of the map, with what it holds. -/
lemma backOffEntity (h : Keeping config id inHand s) (id' : JsString) :
    Keeping config id inHand (s.backOffEntity config now random id') := by
  unfold Shard.backOffEntity
  dsimp only
  generalize hnext : EntityRestartRecord.mk _ _ _ _ _ = next
  have hheld : next.held = s.heldFor id' := by
    rw [← hnext]
    unfold heldFor
    cases s.restarts.get? id' with
    | none => rfl
    | some record =>
      dsimp only
      split <;> rfl
  refine Keeping.prune (h.congr (fun _ => rfl) (fun id'' => ?_) (fun _ => .inl) ?_ rfl rfl rfl)
  · unfold heldFor at hheld ⊢
    rw [get?_set, get?_delete]
    by_cases heq : id' = id''
    · rw [if_pos heq, ← heq]
      exact hheld
    · rw [if_neg heq, if_neg heq]
  · have hset := total_set (fun record => record.held.length) (s.restarts.delete id') id'
      next
    have hdelete := total_delete (fun record : EntityRestartRecord T =>
      record.held.length) s.restarts id'
    rw [get?_delete, if_pos rfl] at hset
    rw [length_heldFor, ← hheld] at hdelete
    dsimp only [elim_none] at hset ⊢
    omega

lemma deliverAll (letters : List (BufferedMessage T)) (h : Keeping config id letters s) :
    Keeping config id [] (s.deliverAll config now id letters) := by
  induction letters generalizing s with
  | nil => exact h
  | cons letter letters ih => exact ih h.deliver

lemma takeUpBuffer (h : Keeping config id [] s) (paths : BidirectionalMap JsString JsString) :
    Keeping config id (s.bufferedFor id)
      { s with entities := s.entities.delete id, entityPaths := paths } := by
  have hafter : ∀ id', ({ s with
      entities := s.entities.delete id, entityPaths := paths } : Shard T).bufferedFor id' =
      if id = id' then [] else s.bufferedFor id' := by
    intro id'
    unfold bufferedFor
    rw [get?_delete]
    split <;> rfl
  have hheld : s.bufferedFor id ≠ [] → s.heldFor id = [] := by
    intro hsome
    refine h.awake id fun hnone => hsome (bufferedFor_eq_nil hnone)
  refine ⟨fun id' => ?_, fun id' hid' => ?_, h.counted, h.bound, h.excused, h.running⟩
  · have hsound := h.sound id'
    have hcustody : ({ s with
        entities := s.entities.delete id, entityPaths := paths } : Shard T).custody id' =
        { s.custody id' with
          waiting := (if id = id' then [] else s.bufferedFor id') ++ s.heldFor id' } := by
      rw [← hafter]
      rfl
    rw [hcustody]
    unfold only at *
    by_cases heq : id' = id
    · subst heq
      rw [if_pos rfl] at hsound ⊢
      rw [if_pos rfl, nil_append]
      by_cases hbuffered : s.bufferedFor id' = []
      · rw [hbuffered]
        unfold custody at hsound
        rwa [hbuffered, nil_append] at hsound
      · have hup := hsound.takeUp
        rw [hheld hbuffered]
        unfold custody at hup ⊢
        rwa [hheld hbuffered, append_nil] at hup
    · rw [if_neg heq] at hsound ⊢
      rw [if_neg (Ne.symm heq)]
      exact hsound
  · dsimp only at hid'
    rw [get?_delete] at hid'
    split at hid'
    · exact absurd rfl hid'
    · exact h.awake id' hid'

lemma onEntityTerminated (h : Keeping config id [] s) (actor : JsString) :
    Keeping config id [] (s.onEntityTerminated config now random actor) := by
  unfold Shard.onEntityTerminated
  split
  · exact h
  · next id' _ =>
    have hup := ((h.rename id').takeUpBuffer (s.entityPaths.delete id')).emit
      (.entityStopped id') rfl
    unfold bufferedFor at hup
    dsimp only
    split
    · next hnone =>
      rw [hnone] at hup
      exact (hup.backOffEntity id').rename id
    · next buffered hbuffered =>
      rw [hbuffered] at hup
      exact (hup.deliverAll buffered).rename id

end Keeping

/-- Nothing waits where a message has what waits forgotten: no entity with messages in its
buffer is told to go again, and the shard stops when no buffer has any. -/
def KeepsBuffers (s : Shard T) : Input T → Prop
  | .receive _ _ (.passivate entity _ sender) =>
    ∀ candidate id state, s.passivated entity sender = some (candidate, id, state) →
      state.passivating.getD [] = []
  | .postStop => ∀ id, s.bufferedFor id = []
  | _ => True

lemma Keeping.onReceive (h : Keeping config [] [] s) (message : ShardInbox T)
    (hbuffers : KeepsBuffers s (.receive now random message)) :
    Keeping config [] [] (s.onReceive config now random message) := by
  cases message with
  | message message sender =>
    cases message with
    | entityEnvelope id message => exact ((h.rename id).onEntityEnvelope).rename []
    | startEntities ids => exact h.onStartEntities ids
    | startEntity id => exact h.startEntity id
    | passivateEntity id => exact h.onPassivateEntity id
    | getShardStats replyTo => exact h.emit _ rfl
  | terminated actor => exact h.onEntityTerminated actor
  | passivate entity stopMessage sender => exact h.onPassivate stopMessage hbuffers
  | entityStopTimeout id => exact h.onEntityStopTimeout id
  | entityRestartTick id => exact ((h.rename id).onEntityRestartTick).rename []
  | shardPassivationRequest =>
    unfold Shard.onReceive onShardPassivationRequest
    cases s.isIdle now with
    | true => exact h.emit _ rfl
    | false => exact h.emit _ rfl
  | unhandled => exact h.emit _ rfl

/-! ### The end of a shard -/

/-- The dead letters of a shard that stops. -/
def lastLetters (s : Shard T) : List (ShardEffect T) :=
  s.restarts.entries.flatMap fun entry =>
    entry.2.held.map fun letter => .deadLettered entry.1 letter s.heldCount true

lemma postStop_eq (s : Shard T) :
    s.postStop = { s with
      entities := s.entities.mapValues fun _ state => { state with stopTimer := false }
      restarts := .empty, heldCount := 0, stopped := true, log := s.log ++ s.lastLetters } := by
  have hletters : ∀ (id : JsString) (letters : List (BufferedMessage T)) (s : Shard T),
      letters.foldl (fun s letter => s.emit (.deadLettered id letter s.heldCount true)) s =
        { s with log := s.log ++ letters.map fun letter =>
          .deadLettered id letter s.heldCount true } := by
    intro id letters
    induction letters with
    | nil => simp
    | cons letter letters ih =>
      intro s
      rw [foldl_cons, ih, map_cons]
      simp [emit]
  have hentries : ∀ (entries : List (JsString × EntityRestartRecord T)) (s : Shard T),
      entries.foldl (fun s entry => entry.2.held.foldl (fun s letter =>
        s.emit (.deadLettered entry.1 letter s.heldCount true)) s) s =
      { s with log := s.log ++ entries.flatMap fun entry => entry.2.held.map fun letter =>
        .deadLettered entry.1 letter s.heldCount true } := by
    intro entries
    induction entries with
    | nil => simp
    | cons entry entries ih =>
      intro s
      rw [foldl_cons, ih, hletters, flatMap_cons, append_assoc]
  unfold postStop
  dsimp only
  rw [hentries]
  rfl

lemma lastLetters_lostOf (s : Shard T) (id : JsString) :
    s.lastLetters.filterMap (lostOf id) = s.heldFor id := by
  unfold lastLetters heldFor
  rw [filterMap_flatMap, ← flatMap_ite]
  refine flatMap_congr fun entry _ => ?_
  rw [filterMap_map]
  change entry.2.held.filterMap (fun letter => if entry.1 = id then some letter else none) = _
  by_cases hid : entry.1 = id
  · simp only [if_pos hid]
    exact filterMap_some
  · simp only [if_neg hid]
    exact filterMap_none _

/-- What a shard must answer for. -/
structure Accountable (config : ShardConfig) (s : Shard T) : Prop where
  sound : ∀ id, (s.custody id).Sound []
  ended : s.stopped = true → ∀ id, (s.custody id).waiting = []
  counted : s.heldCount = s.restarts.total fun record => record.held.length
  bound : s.heldCount ≤ config.bufferSize
  excused : ∀ effect ∈ s.log, effect.Excused config.bufferSize

lemma Keeping.accountable (h : Keeping config [] [] s) : Accountable config s := by
  refine ⟨fun id => ?_, fun hs => ?_, h.counted, h.bound, h.excused⟩
  · have hsound := h.sound id
    rwa [only_nil] at hsound
  · exact nomatch hs.symm.trans h.running

lemma Keeping.postStop (h : Keeping config [] [] s) (hbuffers : ∀ id, s.bufferedFor id = []) :
    Accountable config s.postStop := by
  rw [postStop_eq]
  generalize hs' : ({ s with
    entities := s.entities.mapValues fun _ state => { state with stopTimer := false }
    restarts := .empty, heldCount := 0, stopped := true
    log := s.log ++ s.lastLetters } : Shard T) = s'
  have hlog : s'.log = s.log ++ s.lastLetters := by rw [← hs']
  have hwaiting : ∀ id, (s'.custody id).waiting = [] := by
    intro id
    rw [← hs']
    refine (append_nil _).trans ?_
    rw [← hbuffers id]
    unfold bufferedFor
    dsimp only
    rw [get?_mapValues]
    cases s.entities.get? id <;> rfl
  -- Of what the end adds to the log, nothing arrives and nothing is told.
  have hquiet : ∀ f : ShardEffect T → Option (BufferedMessage T),
      (∀ id letter heldCount, f (.deadLettered id letter heldCount true) = none) →
      s'.log.filterMap f = s.log.filterMap f := by
    intro f hf
    rw [hlog, filterMap_append]
    refine (congrArg _ ?_).trans (append_nil _)
    refine filterMap_eq_nil_iff.2 fun effect heffect => ?_
    obtain ⟨entry, -, hentry⟩ := mem_flatMap.1 heffect
    obtain ⟨letter, -, rfl⟩ := mem_map.1 hentry
    exact hf _ _ _
  refine ⟨fun id => ?_, fun _ => hwaiting, ?_, ?_, fun effect heffect => ?_⟩
  · have hup := (h.sound id)
    rw [only_nil] at hup
    have hlost := hup.takeUp.loseAll
    have hcustody : s'.custody id =
        { s.custody id with waiting := [], lost := (s.custody id).lost ++ s.heldFor id } := by
      have hnone := hwaiting id
      unfold custody at hnone ⊢
      dsimp only at hnone ⊢
      rw [hnone, hquiet _ fun _ _ _ => rfl, hquiet _ fun _ _ _ => rfl, hlog,
        filterMap_append, lastLetters_lostOf]
    have hheld : (s.custody id).waiting = s.heldFor id := by
      unfold custody
      rw [hbuffers]
      rfl
    rw [hcustody, ← hheld]
    exact hlost
  · rw [← hs']
    rfl
  · rw [← hs']
    exact Int.natCast_nonneg _
  · rw [hlog] at heffect
    rcases mem_append.1 heffect with heffect | heffect
    · exact h.excused effect heffect
    · obtain ⟨entry, -, hentry⟩ := mem_flatMap.1 heffect
      obtain ⟨letter, -, rfl⟩ := mem_map.1 hentry
      exact .inl rfl

/-! ### Runs -/

lemma accountable_step (input : Input T) (hbuffers : KeepsBuffers s input)
    (h : Keeping config [] [] s ∨ s.stopped = true ∧ Accountable config s) :
    Keeping config [] [] (s.step config input) ∨
      (s.step config input).stopped = true ∧ Accountable config (s.step config input) := by
  unfold step
  rcases h with h | ⟨hstopped, h⟩
  · rw [h.running]
    cases input with
    | receive now random message => exact .inl (h.onReceive message hbuffers)
    | postStop =>
      refine .inr ⟨?_, h.postStop hbuffers⟩
      dsimp only [cond_false]
      rw [postStop_eq]
  · rw [hstopped]
    exact .inr ⟨hstopped, h⟩

/-- An entity asks to be stopped, and a message comes before it has. -/
def askedToStop (later : List (Input ℕ)) : List (Input ℕ) :=
  let name := "user".toJs
  let ref := "shard".toJs ++ "/".toJs ++ entityName name
  [.receive 0 0 (.message (.entityEnvelope name 1) none),
    .receive 0 0 (.passivate none 0 (some ref)),
    .receive 0 0 (.message (.entityEnvelope name 2) none)] ++ later

end Shard

end ActorTs.Cluster.Sharding
