import ActorTs.Library.Machine
import ActorTs.Persistence.ConditionalStores

/-!
# A cache in front of a snapshot store

Each call on the decorator is a few calls on the store and on the cache behind it, and those of
several calls interleave. What a load fills in can be older than a save that has written and
invalidated since it was read, and where that never happens no load answers less than what was saved
before it began.
-/

open List Option OrderedMap

namespace ActorTs.Persistence

open Machine

variable {W : Type}

/-- A snapshot store by its contract: it answers the newest snapshot, a save adds one and
drops at most those that are not the newest, a delete drops those up to its number. -/
structure WrappedSnapshotStore (W : Type) where
  name : JsString
  encryptsAtRest : JsString → Option Bool
  Carrier : Type
  save : ℚ → Carrier → JsString → ℕ → W → Except PersistenceError (Carrier × Snapshot W)
  loadLatest : Carrier → JsString → Option (Snapshot W)
  delete : Carrier → JsString → ℕ → Carrier
  save_newest : ∀ {now store persistenceId seq state store' written},
    save now store persistenceId seq state = .ok (store', written) →
      ∃ s, loadLatest store' persistenceId = some s ∧ seq ≤ s.number
  save_keeps : ∀ {now store persistenceId seq state store' written},
    save now store persistenceId seq state = .ok (store', written) → ∀ other s,
      loadLatest store other = some s → ∃ s', loadLatest store' other = some s' ∧ s.number ≤ s'.number
  delete_keeps : ∀ {store persistenceId toSeq other s}, loadLatest store other = some s →
    (other = persistenceId → toSeq < s.number) →
      loadLatest (delete store persistenceId toSeq) other = some s

/-! ## What may be cached -/

inductive PlaintextCacheRoute where
  | perCallDirective
  | storeConfiguration
  deriving DecidableEq

def PlaintextCacheRoute.phrase : PlaintextCacheRoute → JsString
  | perCallDirective => "this loadLatest asked for encryption"
  | storeConfiguration =>
    "the store's own configuration keeps this persistenceId encrypted"

def plaintextCacheWarning (storeName : JsString) (route : PlaintextCacheRoute) : JsString :=
  "persistence: CachedSnapshotStore caches decoded snapshot state, and on '" ++ storeName ++
    "' " ++ route.phrase ++
    " — so the cached copy would be the plaintext of data " ++
    "that store keeps encrypted at rest, in a cache the caller owns and typically shares with " ++
    "other subsystems (#782). The snapshot is being served straight from the wrapped store " ++
    "instead, uncached, and this warning is logged once per store. Call " ++
    "withAllowPlaintextCache(true) to acknowledge the exposure and take the cold-start win, once " ++
    "the cache is as protected as the bucket is."

structure CachedSnapshotStore (W : Type) where
  underlying : WrappedSnapshotStore W
  keyPrefix : JsString := "snap:"
  allowPlaintextCache : Bool := false

namespace CachedSnapshotStore

variable (cached : CachedSnapshotStore W)

def keyFor (persistenceId : JsString) : JsString := cached.keyPrefix ++ persistenceId

def confidentialityRoute (persistenceId : JsString) (options : Option PersistenceOptions) :
    Option PlaintextCacheRoute :=
  match options.bind PersistenceOptions.encryption with
  | some mode => if mode = "none" then none else some .perCallDirective
  | none =>
    if cached.underlying.encryptsAtRest persistenceId = some true then some .storeConfiguration
    else none

/-- The route that keeps a load out of the cache. -/
def refusesPlaintextCache (persistenceId : JsString) (options : Option PersistenceOptions) :
    Option PlaintextCacheRoute :=
  if cached.allowPlaintextCache then none else cached.confidentialityRoute persistenceId options

end CachedSnapshotStore

/-! ## Calls and their steps -/

/-- A call by the step it makes next, or by its outcome. -/
inductive CacheCall (W : Type) where
  | saving (persistenceId : JsString) (seq : ℕ) (state : W)
  | invalidating (persistenceId : JsString) (seq : ℕ) (written : Snapshot W)
  | saved (persistenceId : JsString) (seq : ℕ) (written : Snapshot W)
  | rejected (persistenceId : JsString) (seq : ℕ) (error : PersistenceError)
  | evicting (persistenceId : JsString)
  | bypassing (persistenceId : JsString)
  | probing (persistenceId : JsString)
  | fetching (persistenceId : JsString)
  | filling (persistenceId : JsString) (fetched : Snapshot W)
  | loaded (persistenceId : JsString) (answer : Option (Snapshot W))
  | deleting (persistenceId : JsString) (toSeq : ℕ)
  | uncaching (persistenceId : JsString) (toSeq : ℕ)
  | deleted (persistenceId : JsString) (toSeq : ℕ)

inductive CacheMove (W : Type) where
  | save (persistenceId : JsString) (seq : ℕ) (state : W)
  | loadLatest (persistenceId : JsString) (options : Option PersistenceOptions)
  | delete (persistenceId : JsString) (toSeq : ℕ)
  | advance (i : ℕ) (now : ℚ)
  | expire (key : JsString)

def CacheMove.saveNumber? (persistenceId : JsString) : CacheMove W → Option ℕ
  | save persistenceId' seq _ => if persistenceId' = persistenceId then some seq else none
  | _ => none

/-- The wrapped store and the entries of the cache. -/
structure CacheLayers (store : WrappedSnapshotStore W) where
  store : store.Carrier
  entries : OrderedMap JsString (Snapshot W) := .empty

structure CacheState (store : WrappedSnapshotStore W) where
  layers : CacheLayers store
  calls : List (CacheCall W) := []
  warnings : List JsString := []

namespace CachedSnapshotStore

variable (cached : CachedSnapshotStore W)

/-- The next step of a call: one call on the store or on the cache, up to its answer. -/
def proceed (now : ℚ) (layers : CacheLayers cached.underlying) :
    CacheCall W → CacheLayers cached.underlying × CacheCall W
  | .saving persistenceId seq state =>
    match cached.underlying.save now layers.store persistenceId seq state with
    | .ok (store, written) => ({ layers with store }, .invalidating persistenceId seq written)
    | .error e => (layers, .rejected persistenceId seq e)
  | .invalidating persistenceId seq written =>
    ({ layers with entries := layers.entries.delete (cached.keyFor persistenceId) },
      .saved persistenceId seq written)
  | .evicting persistenceId =>
    ({ layers with entries := layers.entries.delete (cached.keyFor persistenceId) },
      .bypassing persistenceId)
  | .bypassing persistenceId =>
    (layers, .loaded persistenceId (cached.underlying.loadLatest layers.store persistenceId))
  | .probing persistenceId =>
    match layers.entries.get? (cached.keyFor persistenceId) with
    | some hit => (layers, .loaded persistenceId (some hit))
    | none => (layers, .fetching persistenceId)
  | .fetching persistenceId =>
    match cached.underlying.loadLatest layers.store persistenceId with
    | some fetched => (layers, .filling persistenceId fetched)
    | none => (layers, .loaded persistenceId none)
  | .filling persistenceId fetched =>
    ({ layers with entries := layers.entries.set (cached.keyFor persistenceId) fetched },
      .loaded persistenceId (some fetched))
  | .deleting persistenceId toSeq =>
    ({ layers with store := cached.underlying.delete layers.store persistenceId toSeq },
      .uncaching persistenceId toSeq)
  | .uncaching persistenceId toSeq =>
    ({ layers with entries := layers.entries.delete (cached.keyFor persistenceId) },
      .deleted persistenceId toSeq)
  | call => (layers, call)

/-- The first refusal of all is the one that is reported. -/
def step (s : CacheState cached.underlying) : CacheMove W → CacheState cached.underlying
  | .save persistenceId seq state =>
    { s with calls := s.calls ++ [.saving persistenceId seq state] }
  | .loadLatest persistenceId options =>
    match cached.refusesPlaintextCache persistenceId options with
    | some route =>
      { s with
        calls := s.calls ++ [.evicting persistenceId]
        warnings := if s.warnings.isEmpty then
            [plaintextCacheWarning cached.underlying.name route]
          else s.warnings }
    | none => { s with calls := s.calls ++ [.probing persistenceId] }
  | .delete persistenceId toSeq =>
    { s with calls := s.calls ++ [.deleting persistenceId toSeq] }
  | .advance i now =>
    match s.calls[i]? with
    | some call =>
      let (layers, call) := cached.proceed now s.layers call
      { s with layers, calls := s.calls.set i call }
    | none => s
  | .expire key => { s with layers.entries := s.layers.entries.delete key }

end CachedSnapshotStore

/-! ## What a run has promised -/

namespace CacheCall

/-- A save whose snapshot is in the store. -/
def wrote (persistenceId : JsString) (seq : ℕ) : CacheCall W → Prop
  | invalidating persistenceId' seq' _ => persistenceId' = persistenceId ∧ seq' = seq
  | saved persistenceId' seq' _ => persistenceId' = persistenceId ∧ seq' = seq
  | _ => False

/-- A save that was answered. -/
def resolved (persistenceId : JsString) (seq : ℕ) : CacheCall W → Prop
  | saved persistenceId' seq' _ => persistenceId' = persistenceId ∧ seq' = seq
  | _ => False

/-- A deletion of the snapshot at a number, begun or done. -/
def deletes (persistenceId : JsString) (seq : ℕ) : CacheCall W → Prop
  | deleting persistenceId' toSeq => persistenceId' = persistenceId ∧ seq ≤ toSeq
  | uncaching persistenceId' toSeq => persistenceId' = persistenceId ∧ seq ≤ toSeq
  | deleted persistenceId' toSeq => persistenceId' = persistenceId ∧ seq ≤ toSeq
  | _ => False

lemma wrote_of_resolved {persistenceId : JsString} {seq : ℕ} {call : CacheCall W}
    (h : call.resolved persistenceId seq) : call.wrote persistenceId seq := by
  cases call with
  | saved => exact h
  | _ => exact h.elim

end CacheCall

/-- The newest snapshot of an id is at a number or behind it. -/
def WrappedSnapshotStore.HoldsFrom (store : WrappedSnapshotStore W) (carrier : store.Carrier)
    (persistenceId : JsString) (seq : ℕ) : Prop :=
  ∃ s, store.loadLatest carrier persistenceId = some s ∧ seq ≤ s.number

namespace CachedSnapshotStore

variable {cached : CachedSnapshotStore W} {persistenceId : JsString} {seq : ℕ}

lemma keyFor_inj {other : JsString} (h : cached.keyFor other = cached.keyFor persistenceId) :
    other = persistenceId := append_cancel_left h

/-- What stands of an id is not older than its snapshot at a number, in the store, the cache and the
hands of the loads. -/
structure Keeps (cached : CachedSnapshotStore W) (persistenceId : JsString) (seq : ℕ)
    (s : CacheState cached.underlying) : Prop where
  store : (∃ call ∈ s.calls, call.wrote persistenceId seq) →
    cached.underlying.HoldsFrom s.layers.store persistenceId seq
  entry : (∃ call ∈ s.calls, call.resolved persistenceId seq) → ∀ entry,
    s.layers.entries.get? (cached.keyFor persistenceId) = some entry → seq ≤ entry.number
  filling : (∃ call ∈ s.calls, call.resolved persistenceId seq) → ∀ fetched,
    .filling persistenceId fetched ∈ s.calls → seq ≤ fetched.number

def Kept (persistenceId : JsString) (seq : ℕ) (calls : List (CacheCall W)) : Prop :=
  ∀ call ∈ calls, ¬ call.deletes persistenceId seq

/-- No save is answered while a load has read an older snapshot and not yet put it in. -/
def Timely (cached : CachedSnapshotStore W) (s : CacheState cached.underlying) :
    CacheMove W → Prop
  | .advance i _ => ∀ persistenceId seq written,
      s.calls[i]? = some (.invalidating persistenceId seq written) →
        ∀ fetched, .filling persistenceId fetched ∈ s.calls → seq ≤ fetched.number
  | _ => True

/-! ## One step -/

variable {s : CacheState cached.underlying} {call : CacheCall W} {now : ℚ}

variable (layers : CacheLayers cached.underlying)

lemma deletes_proceed (h : call.deletes persistenceId seq) :
    (cached.proceed now layers call).2.deletes persistenceId seq := by
  cases call with
  | deleting => exact h
  | uncaching => exact h
  | deleted => exact h
  | _ => exact h.elim

lemma store_proceed (hkept : ¬ call.deletes persistenceId seq)
    (h : cached.underlying.HoldsFrom layers.store persistenceId seq) :
    cached.underlying.HoldsFrom (cached.proceed now layers call).1.store persistenceId seq := by
  cases call with
  | saving id seq' state =>
    rw [proceed]
    cases hsave : cached.underlying.save now layers.store id seq' state with
    | error e => exact h
    | ok outcome =>
      obtain ⟨s, hs, hle⟩ := h
      obtain ⟨s', hs', hle'⟩ := cached.underlying.save_keeps hsave _ s hs
      exact ⟨s', hs', hle.trans hle'⟩
  | deleting id toSeq =>
    obtain ⟨s, hs, hle⟩ := h
    refine ⟨s, cached.underlying.delete_keeps hs fun hid => ?_, hle⟩
    have hlt : ¬ seq ≤ toSeq := fun hseq => hkept ⟨hid.symm, hseq⟩
    omega
  | probing id =>
    rw [proceed]
    cases layers.entries.get? (cached.keyFor id) <;> exact h
  | fetching id =>
    rw [proceed]
    cases cached.underlying.loadLatest layers.store id <;> exact h
  | _ => exact h

lemma wrote_proceed (h : (cached.proceed now layers call).2.wrote persistenceId seq) :
    call.wrote persistenceId seq ∨
      cached.underlying.HoldsFrom (cached.proceed now layers call).1.store persistenceId seq := by
  cases call with
  | saving id seq' state =>
    rw [proceed] at h ⊢
    cases hsave : cached.underlying.save now layers.store id seq' state with
    | error e =>
      rw [hsave] at h
      exact h.elim
    | ok outcome =>
      rw [hsave] at h
      obtain ⟨rfl, rfl⟩ := h
      exact .inr (cached.underlying.save_newest hsave)
  | invalidating => exact .inl h
  | saved => exact .inl h
  | probing id =>
    rw [proceed] at h
    cases hget : layers.entries.get? (cached.keyFor id) <;> rw [hget] at h <;> exact h.elim
  | fetching id =>
    rw [proceed] at h
    cases hload : cached.underlying.loadLatest layers.store id <;> rw [hload] at h <;> exact h.elim
  | _ => exact h.elim

lemma resolved_proceed (h : (cached.proceed now layers call).2.resolved persistenceId seq) :
    call.resolved persistenceId seq ∨ ∃ written, call = .invalidating persistenceId seq written := by
  cases call with
  | saving id seq' state =>
    rw [proceed] at h
    cases hsave : cached.underlying.save now layers.store id seq' state <;> rw [hsave] at h <;>
      exact h.elim
  | invalidating id seq' written =>
    obtain ⟨rfl, rfl⟩ := h
    exact .inr ⟨written, rfl⟩
  | saved => exact .inl h
  | probing id =>
    rw [proceed] at h
    cases hget : layers.entries.get? (cached.keyFor id) <;> rw [hget] at h <;> exact h.elim
  | fetching id =>
    rw [proceed] at h
    cases hload : cached.underlying.loadLatest layers.store id <;> rw [hload] at h <;> exact h.elim
  | _ => exact h.elim

lemma entries_proceed {entry : Snapshot W}
    (h : (cached.proceed now layers call).1.entries.get? (cached.keyFor persistenceId) = some entry) :
    layers.entries.get? (cached.keyFor persistenceId) = some entry ∨
      call = .filling persistenceId entry := by
  cases call with
  | saving id seq' state =>
    rw [proceed] at h
    cases hsave : cached.underlying.save now layers.store id seq' state <;> rw [hsave] at h <;>
      exact .inl h
  | invalidating => exact .inl (get?_of_get?_delete h)
  | evicting => exact .inl (get?_of_get?_delete h)
  | uncaching => exact .inl (get?_of_get?_delete h)
  | probing id =>
    rw [proceed] at h
    cases hget : layers.entries.get? (cached.keyFor id) <;> rw [hget] at h <;> exact .inl h
  | fetching id =>
    rw [proceed] at h
    cases hload : cached.underlying.loadLatest layers.store id <;> rw [hload] at h <;> exact .inl h
  | filling id fetched =>
    rcases get?_set_cases h with ⟨hkey, rfl⟩ | hold
    · rw [keyFor_inj hkey]
      exact .inr rfl
    · exact .inl hold
  | _ => exact .inl h

lemma filling_proceed {fetched : Snapshot W}
    (h : (cached.proceed now layers call).2 = .filling persistenceId fetched) :
    cached.underlying.loadLatest layers.store persistenceId = some fetched := by
  cases call with
  | saving id seq' state =>
    rw [proceed] at h
    cases hsave : cached.underlying.save now layers.store id seq' state <;> rw [hsave] at h <;>
      cases h
  | probing id =>
    rw [proceed] at h
    cases hget : layers.entries.get? (cached.keyFor id) <;> rw [hget] at h <;> cases h
  | fetching id =>
    rw [proceed] at h
    cases hload : cached.underlying.loadLatest layers.store id with
    | none =>
      rw [hload] at h
      cases h
    | some s =>
      rw [hload] at h
      cases h
      exact hload
  | _ => cases h

lemma loaded_proceed {answer : Option (Snapshot W)}
    (h : (cached.proceed now layers call).2 = .loaded persistenceId answer) :
    call = .loaded persistenceId answer ∨
      answer = cached.underlying.loadLatest layers.store persistenceId ∨
      ∃ entry, answer = some entry ∧
        (layers.entries.get? (cached.keyFor persistenceId) = some entry ∨
          call = .filling persistenceId entry) := by
  cases call with
  | saving id seq' state =>
    rw [proceed] at h
    cases hsave : cached.underlying.save now layers.store id seq' state <;> rw [hsave] at h <;>
      cases h
  | bypassing =>
    cases h
    exact .inr (.inl rfl)
  | probing id =>
    rw [proceed] at h
    cases hget : layers.entries.get? (cached.keyFor id) with
    | none =>
      rw [hget] at h
      cases h
    | some entry =>
      rw [hget] at h
      cases h
      exact .inr (.inr ⟨entry, rfl, .inl hget⟩)
  | fetching id =>
    rw [proceed] at h
    cases hload : cached.underlying.loadLatest layers.store id with
    | none =>
      rw [hload] at h
      cases h
      exact .inr (.inl hload.symm)
    | some fetched =>
      rw [hload] at h
      cases h
  | filling =>
    cases h
    exact .inr (.inr ⟨_, rfl, .inr rfl⟩)
  | loaded => exact .inl h
  | _ => cases h

section Steps

variable {calls : List (CacheCall W)} {i : ℕ} {call' : CacheCall W}

lemma mem_set_of_mem (hcall : calls[i]? = some call) {c : CacheCall W} (hc : c ∈ calls) :
    c = call ∨ c ∈ calls.set i call' := by
  obtain ⟨j, hj⟩ := mem_iff_getElem?.1 hc
  by_cases hij : i = j
  · subst hij
    exact .inl (some.inj (hj.symm.trans hcall))
  · refine .inr (mem_iff_getElem?.2 ⟨j, ?_⟩)
    rw [getElem?_set_ne hij, hj]

lemma mem_set_self (hcall : calls[i]? = some call) : call' ∈ calls.set i call' :=
  List.mem_set (List.getElem?_eq_some_iff.1 hcall).1 call'

lemma Kept.of_set (hcall : calls[i]? = some call)
    (hdeletes : call.deletes persistenceId seq → call'.deletes persistenceId seq)
    (h : Kept persistenceId seq (calls.set i call')) : Kept persistenceId seq calls := by
  intro c hc hcd
  rcases mem_set_of_mem hcall hc with rfl | hmem
  · exact h call' (mem_set_self hcall) (hdeletes hcd)
  · exact h c hmem hcd

lemma Keeps.push (h : Keeps cached persistenceId seq s) {s' : CacheState cached.underlying}
    (hlayers : s'.layers = s.layers) (hcalls : s'.calls = s.calls ++ [call])
    (hwrote : ¬ call.wrote persistenceId seq) (hfilling : ∀ fetched, call ≠ .filling persistenceId fetched) :
    Keeps cached persistenceId seq s' := by
  have hold : ∀ P : CacheCall W → Prop, ¬ P call → (∃ c ∈ s'.calls, P c) → ∃ c ∈ s.calls, P c := by
    rintro P hP ⟨c, hc, hPc⟩
    rw [hcalls, mem_append, mem_singleton] at hc
    rcases hc with hc | rfl
    · exact ⟨c, hc, hPc⟩
    · exact absurd hPc hP
  have hresolved : ¬ call.resolved persistenceId seq := fun h => hwrote (CacheCall.wrote_of_resolved h)
  refine ⟨fun hex => ?_, fun hex => ?_, fun hex fetched hf => ?_⟩
  · rw [hlayers]
    exact h.store (hold _ hwrote hex)
  · rw [hlayers]
    exact h.entry (hold _ hresolved hex)
  · rw [hcalls, mem_append, mem_singleton] at hf
    rcases hf with hf | hf
    · exact h.filling (hold _ hresolved hex) fetched hf
    · exact absurd hf.symm (hfilling fetched)

lemma step_advance (hcall : s.calls[i]? = some call) :
    cached.step s (.advance i now) =
      { s with
        layers := (cached.proceed now s.layers call).1
        calls := s.calls.set i (cached.proceed now s.layers call).2 } := by
  rw [step, hcall]

lemma Keeps.advance (h : Keeps cached persistenceId seq s) (hcall : s.calls[i]? = some call)
    (hkept : ¬ call.deletes persistenceId seq) (htimely : Timely cached s (.advance i now)) :
    Keeps cached persistenceId seq (cached.step s (.advance i now)) := by
  have hmem : call ∈ s.calls := mem_of_getElem? hcall
  have hset : ∀ c ∈ s.calls.set i (cached.proceed now s.layers call).2,
      c ∈ s.calls ∨ c = (cached.proceed now s.layers call).2 := fun c => mem_or_eq_of_mem_set
  have hresolved : (∃ c ∈ s.calls.set i (cached.proceed now s.layers call).2,
      c.resolved persistenceId seq) →
        (∃ c ∈ s.calls, c.resolved persistenceId seq) ∨
          ∃ written, call = .invalidating persistenceId seq written := by
    rintro ⟨c, hc, hres⟩
    rcases hset c hc with hc | rfl
    · exact .inl ⟨c, hc, hres⟩
    · exact (resolved_proceed s.layers hres).imp_left fun hres => ⟨call, hmem, hres⟩
  have hstore : (∃ c ∈ s.calls, c.wrote persistenceId seq) →
      cached.underlying.HoldsFrom (cached.proceed now s.layers call).1.store persistenceId seq :=
    fun hex => store_proceed s.layers hkept (h.store hex)
  rw [step_advance hcall]
  refine ⟨?_, fun hex entry hentry => ?_, fun hex fetched hf => ?_⟩
  · rintro ⟨c, hc, hwrote⟩
    rcases hset c hc with hc | rfl
    · exact hstore ⟨c, hc, hwrote⟩
    · exact (wrote_proceed s.layers hwrote).elim (fun hw => hstore ⟨call, hmem, hw⟩) id
  · rcases hresolved hex with hold | ⟨written, rfl⟩
    · rcases entries_proceed s.layers hentry with hentry | rfl
      · exact h.entry hold entry hentry
      · exact h.filling hold entry hmem
    · dsimp only at hentry
      rw [proceed, get?_delete, if_pos rfl] at hentry
      cases hentry
  · rcases hset _ hf with hfill | hf
    · rcases hresolved hex with hold | ⟨written, rfl⟩
      · exact h.filling hold fetched hfill
      · exact htimely persistenceId seq written hcall fetched hfill
    · have hload := filling_proceed s.layers hf.symm
      have hholds : cached.underlying.HoldsFrom s.layers.store persistenceId seq := by
        refine h.store ?_
        rcases hresolved hex with ⟨c, hc, hres⟩ | ⟨written, rfl⟩
        · exact ⟨c, hc, CacheCall.wrote_of_resolved hres⟩
        · exact ⟨_, hmem, rfl, rfl⟩
      obtain ⟨newest, hnewest, hle⟩ := hholds
      cases hload.symm.trans hnewest
      exact hle

lemma kept_of_step (s : CacheState cached.underlying) (move : CacheMove W)
    (h : Kept persistenceId seq (cached.step s move).calls) : Kept persistenceId seq s.calls := by
  have hpush : ∀ c, Kept persistenceId seq (s.calls ++ [c]) → Kept persistenceId seq s.calls :=
    fun c h c' hc' => h c' (mem_append_left _ hc')
  cases move with
  | save => exact hpush _ h
  | loadLatest id options =>
    rw [step] at h
    cases hroute : cached.refusesPlaintextCache id options <;> rw [hroute] at h <;>
      exact hpush _ h
  | delete => exact hpush _ h
  | advance i now =>
    rw [step] at h
    cases hcall : s.calls[i]? with
    | none =>
      rw [hcall] at h
      exact h
    | some call =>
      rw [hcall] at h
      exact h.of_set hcall (deletes_proceed s.layers)
  | expire => exact h

variable {move : CacheMove W}

lemma Keeps.step (h : Keeps cached persistenceId seq s) (hkept : Kept persistenceId seq s.calls)
    (htimely : Timely cached s move) : Keeps cached persistenceId seq (cached.step s move) := by
  cases move with
  | save => exact h.push rfl rfl id fun _ => by nofun
  | loadLatest id options =>
    rw [CachedSnapshotStore.step]
    cases cached.refusesPlaintextCache id options <;>
      exact h.push rfl rfl (fun h => h) fun _ => by nofun
  | delete => exact h.push rfl rfl id fun _ => by nofun
  | advance i now =>
    cases hcall : s.calls[i]? with
    | none =>
      rw [CachedSnapshotStore.step, hcall]
      exact h
    | some call => exact h.advance hcall (hkept call (mem_of_getElem? hcall)) htimely
  | expire key =>
    exact ⟨h.store, fun hex entry hentry => h.entry hex entry (get?_of_get?_delete hentry),
      h.filling⟩

lemma resolved_step (h : ∃ c ∈ s.calls, c.resolved persistenceId seq) :
    ∃ c ∈ (cached.step s move).calls, c.resolved persistenceId seq := by
  obtain ⟨c, hc, hres⟩ := h
  have hpush : ∀ call, ∃ c ∈ s.calls ++ [call], c.resolved persistenceId seq :=
    fun call => ⟨c, mem_append_left _ hc, hres⟩
  cases move with
  | save => exact hpush _
  | loadLatest id options =>
    rw [CachedSnapshotStore.step]
    cases cached.refusesPlaintextCache id options <;> exact hpush _
  | delete => exact hpush _
  | advance i now =>
    cases hcall : s.calls[i]? with
    | none =>
      rw [CachedSnapshotStore.step, hcall]
      exact ⟨c, hc, hres⟩
    | some call =>
      rw [step_advance hcall]
      rcases mem_set_of_mem hcall hc with rfl | hmem
      · refine ⟨_, mem_set_self hcall, ?_⟩
        cases c with
        | saved => exact hres
        | _ => exact hres.elim
      · exact ⟨c, hmem, hres⟩
  | expire => exact ⟨c, hc, hres⟩

/-! ## A load that begins later -/

/-- A call that is no answered load, or one that was answered a snapshot late enough. -/
def Current (persistenceId : JsString) (seq : ℕ) (call : CacheCall W) : Prop :=
  ∀ answer, call = .loaded persistenceId answer → ∃ snapshot, answer = some snapshot ∧
    seq ≤ snapshot.number

lemma Keeps.current_proceed (h : Keeps cached persistenceId seq s)
    (hex : ∃ c ∈ s.calls, c.resolved persistenceId seq) (hmem : call ∈ s.calls)
    (hcurrent : Current persistenceId seq call) :
    Current persistenceId seq (cached.proceed now s.layers call).2 := by
  intro answer hanswer
  obtain rfl | rfl | ⟨entry, rfl, hentry⟩ := loaded_proceed s.layers hanswer
  · exact hcurrent answer rfl
  · obtain ⟨c, hc, hres⟩ := hex
    exact h.store ⟨c, hc, CacheCall.wrote_of_resolved hres⟩
  · refine ⟨entry, rfl, ?_⟩
    rcases hentry with hentry | rfl
    · exact h.entry hex entry hentry
    · exact h.filling hex entry hmem

/-- The call at a place of the list is current. -/
def CurrentAt (cached : CachedSnapshotStore W) (persistenceId : JsString) (seq i : ℕ)
    (s : CacheState cached.underlying) : Prop :=
  ∃ call, s.calls[i]? = some call ∧ Current persistenceId seq call

lemma Keeps.currentAt_step (h : Keeps cached persistenceId seq s)
    (hex : ∃ c ∈ s.calls, c.resolved persistenceId seq)
    (hcurrent : CurrentAt cached persistenceId seq i s) (move : CacheMove W) :
    CurrentAt cached persistenceId seq i (cached.step s move) := by
  obtain ⟨call, hcall, hcur⟩ := hcurrent
  have hpush : ∀ c, (s.calls ++ [c])[i]? = some call := fun c => by
    rw [List.getElem?_append_left (List.getElem?_eq_some_iff.1 hcall).1, hcall]
  cases move with
  | save => exact ⟨call, hpush _, hcur⟩
  | loadLatest id options =>
    rw [CachedSnapshotStore.step]
    cases cached.refusesPlaintextCache id options <;> exact ⟨call, hpush _, hcur⟩
  | delete => exact ⟨call, hpush _, hcur⟩
  | advance j now =>
    cases hother : s.calls[j]? with
    | none =>
      rw [CachedSnapshotStore.step, hother]
      exact ⟨call, hcall, hcur⟩
    | some other =>
      rw [step_advance hother]
      by_cases hij : j = i
      · subst hij
        cases hother.symm.trans hcall
        have hlength := (List.getElem?_eq_some_iff.1 hcall).1
        exact ⟨_, getElem?_set_self hlength, h.current_proceed hex (mem_of_getElem? hcall) hcur⟩
      · exact ⟨call, (getElem?_set_ne hij).trans hcall, hcur⟩
  | expire => exact ⟨call, hcall, hcur⟩

end Steps

/-! ## Every run -/

/-- Before anything is called. -/
def fresh (cached : CachedSnapshotStore W) (layers : CacheLayers cached.underlying) :
    CacheState cached.underlying := { layers }

lemma keeps_fresh (cached : CachedSnapshotStore W) (layers : CacheLayers cached.underlying) :
    Keeps cached persistenceId seq (cached.fresh layers) :=
  ⟨fun ⟨_, hc, _⟩ => absurd hc not_mem_nil, fun ⟨_, hc, _⟩ => absurd hc not_mem_nil,
    fun ⟨_, hc, _⟩ => absurd hc not_mem_nil⟩

lemma keeps_run {moves : List (CacheMove W)}
    (htimely : Machine.Along cached.step (Timely cached) s moves)
    (h : Kept persistenceId seq s.calls → Keeps cached persistenceId seq s) :
    Kept persistenceId seq (run cached.step s moves).calls →
      Keeps cached persistenceId seq (run cached.step s moves) := by
  refine invariant (I := fun s => Kept persistenceId seq s.calls →
    Keeps cached persistenceId seq s) (fun s move htimely h hkept => ?_) htimely h
  have hkept' := kept_of_step s move hkept
  exact (h hkept').step hkept' htimely

/-- The save at a number was answered, and unless that snapshot is deleted the load at a place
of the list is current. -/
def Standing (cached : CachedSnapshotStore W) (persistenceId : JsString) (seq i : ℕ)
    (s : CacheState cached.underlying) : Prop :=
  (∃ c ∈ s.calls, c.resolved persistenceId seq) ∧
    (Kept persistenceId seq s.calls →
      Keeps cached persistenceId seq s ∧ CurrentAt cached persistenceId seq i s)

lemma Standing.step {i : ℕ} (h : Standing cached persistenceId seq i s)
    (htimely : Timely cached s move) :
    Standing cached persistenceId seq i (cached.step s move) := by
  refine ⟨resolved_step h.1, fun hkept => ?_⟩
  have hkept' := kept_of_step s move hkept
  obtain ⟨hkeeps, hcurrent⟩ := h.2 hkept'
  exact ⟨hkeeps.step hkept' htimely, hkeeps.currentAt_step h.1 hcurrent move⟩

lemma currentAt_loadLatest (s : CacheState cached.underlying)
    (options : Option PersistenceOptions) :
    CurrentAt cached persistenceId seq s.calls.length
      (cached.step s (.loadLatest persistenceId options)) := by
  rw [CachedSnapshotStore.step]
  cases cached.refusesPlaintextCache persistenceId options with
  | none => exact ⟨.probing persistenceId, getElem?_concat_length, fun _ h => by cases h⟩
  | some route => exact ⟨.evicting persistenceId, getElem?_concat_length, fun _ h => by cases h⟩

/-- Along a run in which no save is answered while a load holds an older snapshot that it has
yet to put in the cache, a load answers no less than what was saved before it began. -/
theorem loadLatest_not_stale (cached : CachedSnapshotStore W) (layers : CacheLayers cached.underlying)
    (before after : List (CacheMove W)) (persistenceId : JsString)
    (options : Option PersistenceOptions) (seq : ℕ) (written : Snapshot W)
    (answer : Option (Snapshot W))
    (htimely : Machine.Along cached.step (Timely cached) (cached.fresh layers)
      (before ++ .loadLatest persistenceId options :: after))
    (hsaved : .saved persistenceId seq written ∈
      (run cached.step (cached.fresh layers) before).calls)
    (hkept : Kept persistenceId seq (run cached.step (cached.fresh layers)
      (before ++ .loadLatest persistenceId options :: after)).calls)
    (hanswer : (run cached.step (cached.fresh layers)
        (before ++ .loadLatest persistenceId options :: after)).calls[
          (run cached.step (cached.fresh layers) before).calls.length]? =
      some (.loaded persistenceId answer)) :
    ∃ snapshot, answer = some snapshot ∧ seq ≤ snapshot.number := by
  obtain ⟨hbefore, hload, hafter⟩ := Machine.Along.append.1 htimely
  rw [run_append, run_cons] at hkept hanswer
  have hkeeps : Kept persistenceId seq
      (run cached.step (cached.fresh layers) before).calls → Keeps cached persistenceId seq
        (run cached.step (cached.fresh layers) before) :=
    keeps_run hbefore fun _ => keeps_fresh cached layers
  generalize run cached.step (cached.fresh layers) before = s at *
  have hex : ∃ c ∈ s.calls, c.resolved persistenceId seq := ⟨_, hsaved, rfl, rfl⟩
  have hstart : Standing cached persistenceId seq s.calls.length
      (cached.step s (.loadLatest persistenceId options)) := by
    refine ⟨resolved_step hex, fun hkept => ?_⟩
    have hkept' := kept_of_step s _ hkept
    exact ⟨(hkeeps hkept').step hkept' hload, currentAt_loadLatest s options⟩
  have hstanding := invariant (fun s move htimely h => h.step htimely) hafter hstart
  obtain ⟨-, call, hcall, hcurrent⟩ := hstanding.2 hkept
  rw [hanswer] at hcall
  exact hcurrent answer (some.inj hcall).symm

end CachedSnapshotStore

/-! ## The store in memory behind a cache -/

lemma SnapshotRows.exists_latest_ge {list : SnapshotRows W} {s : Snapshot W} (h : s ∈ list) :
    ∃ newest, list.latest = some newest ∧ s.number ≤ newest.number := by
  cases hlatest : list.latest with
  | none => exact absurd h (latest_eq_none_iff.1 hlatest s)
  | some newest => exact ⟨newest, rfl, (latest_eq_some_iff.1 hlatest).2 s h⟩

lemma SnapshotRows.exists_latest_save (keepN : ℕ) (list : SnapshotRows W) (row : Snapshot W) :
    ∃ newest, (list.save keepN row).latest = some newest ∧ row.number ≤ newest.number ∧
      ∀ s ∈ list, s.number ≤ newest.number := by
  let whole : SnapshotRows W := ⟨upsertRows row list.rows, sorted_upsertRows list.sorted row⟩
  have hrow : row ∈ whole := (mem_upsertRows list.sorted).2 (.inl rfl)
  obtain ⟨newest, hnewest, hle⟩ := exists_latest_ge hrow
  have hsave : (list.save keepN row).latest = whole.latest := getLast?_prune keepN whole.rows
  refine ⟨newest, hsave.trans hnewest, hle, fun s hs => ?_⟩
  by_cases hnumber : s.number = row.number
  · rwa [hnumber]
  · exact (latest_eq_some_iff.1 hnewest).2 s ((mem_upsertRows list.sorted).2 (.inr ⟨hs, hnumber⟩))

/-- The snapshot store in memory, behind a codec. -/
def InMemorySnapshotStore.wrapped (roundTrip : W → Except PersistenceError W) :
    WrappedSnapshotStore W where
  name := "InMemorySnapshotStore"
  encryptsAtRest _ := none
  Carrier := InMemorySnapshotStore W
  save now snapshots persistenceId seq state := snapshots.save roundTrip now persistenceId seq state
  loadLatest snapshots persistenceId := snapshots.loadLatest persistenceId
  delete snapshots persistenceId toSeq := snapshots.delete persistenceId toSeq
  save_newest h := by
    obtain ⟨stored, -, hrows⟩ := save_eq_ok h
    obtain ⟨newest, hnewest, hle, -⟩ := SnapshotRows.exists_latest_save _ _ _
    rw [loadLatest, hrows]
    exact ⟨newest, hnewest, hle⟩
  save_keeps {now snapshots persistenceId seq state snapshots' written} h other s hs := by
    by_cases hid : persistenceId = other
    · subst hid
      obtain ⟨stored, -, hrows⟩ := save_eq_ok h
      obtain ⟨newest, hnewest, -, hle⟩ := SnapshotRows.exists_latest_save _ _ _
      rw [loadLatest, hrows]
      exact ⟨newest, hnewest, hle s (SnapshotRows.latest_eq_some_iff.1 hs).1⟩
    · rw [loadLatest, rows_save_of_ne h hid]
      exact ⟨s, hs, le_rfl⟩
  delete_keeps {snapshots persistenceId toSeq other s} hs hlt := by
    by_cases hid : persistenceId = other
    · subst hid
      rw [loadLatest, rows_delete, SnapshotRows.latest_eq_some_iff]
      obtain ⟨hmem, hmax⟩ := SnapshotRows.latest_eq_some_iff.1 hs
      exact ⟨SnapshotRows.mem_delete.2 ⟨hmem, hlt rfl⟩,
        fun t ht => hmax t (SnapshotRows.mem_delete.1 ht).1⟩
    · rw [loadLatest, rows_delete_of_ne snapshots toSeq hid]
      exact hs

namespace CachedSnapshotStore

/-- The cache with its defaults, in front of a store in memory. -/
def inMemory : CachedSnapshotStore ℕ := { underlying := InMemorySnapshotStore.wrapped .ok }

/-- One snapshot is stored, and nothing cached. -/
def oneSnapshot (seq state : ℕ) : CacheLayers inMemory.underlying where
  store :=
    { store := OrderedMap.empty.set "a"
        ⟨[⟨"a", .natural seq, state, 0⟩], pairwise_singleton _ _⟩ }

/-- A load that begins behind a save. -/
theorem loadLatest_not_stale_inMemory :
    ∃ snapshot, some (⟨"a", .natural 2, 20, 0⟩ : Snapshot ℕ) = some snapshot ∧
      2 ≤ snapshot.number := by
  refine loadLatest_not_stale inMemory (oneSnapshot 2 10)
    [.save "a" 2 20, .advance 0 0, .advance 0 0] [.advance 1 0, .advance 1 0, .advance 1 0]
    "a" none 2 ⟨"a", .natural 2, 20, 0⟩ _
    ⟨trivial, fun _ _ _ h => ?_, fun _ _ _ _ _ h => ?_, trivial, fun _ _ _ h => ?_,
      fun _ _ _ h => ?_, fun _ _ _ h => ?_, trivial⟩ (.head _) (fun call hcall => ?_) rfl
  · cases h
  · cases mem_singleton.1 h
  · cases h
  · cases h
  · cases h
  · rcases mem_cons.1 hcall with rfl | hcall
    · exact id
    · rw [mem_singleton.1 hcall]
      exact id

/-- The load reads the first snapshot, the second is saved, and the load puts the first in the
cache: that is what the next load answers. -/
theorem not_loadLatest_current :
    ¬ ∀ (cached : CachedSnapshotStore ℕ) (layers : CacheLayers cached.underlying)
      (before after : List (CacheMove ℕ)) (persistenceId : JsString)
      (options : Option PersistenceOptions) (seq : ℕ) (written : Snapshot ℕ)
      (answer : Option (Snapshot ℕ)),
      ((before ++ .loadLatest persistenceId options :: after).filterMap
        (CacheMove.saveNumber? persistenceId)).Pairwise (· < ·) →
      .saved persistenceId seq written ∈ (run cached.step (cached.fresh layers) before).calls →
      Kept persistenceId seq (run cached.step (cached.fresh layers)
        (before ++ .loadLatest persistenceId options :: after)).calls →
      (run cached.step (cached.fresh layers)
          (before ++ .loadLatest persistenceId options :: after)).calls[
            (run cached.step (cached.fresh layers) before).calls.length]? =
        some (.loaded persistenceId answer) →
      ∃ snapshot, answer = some snapshot ∧ seq ≤ snapshot.number := by
  intro h
  have hstale := h inMemory (oneSnapshot 1 10)
    [.loadLatest "a" none, .advance 0 0, .advance 0 0, .save "a" 2 20, .advance 1 0,
      .advance 1 0, .advance 0 0]
    [.advance 2 0] "a" none 2 ⟨"a", .natural 2, 20, 0⟩
    (some ⟨"a", .natural 1, 10, 0⟩) (by decide) (.tail _ (.head _))
  obtain ⟨snapshot, hsnapshot, hle⟩ := hstale (fun call hcall => by
    rcases mem_cons.1 hcall with rfl | hcall
    · exact id
    · rcases mem_cons.1 hcall with rfl | hcall
      · exact id
      · rw [mem_singleton.1 hcall]
        exact id) rfl
  cases hsnapshot
  exact absurd hle (by decide)

end CachedSnapshotStore

end ActorTs.Persistence
