import ActorTs.Http.Fingerprint

/-!
# One caller's one request

The entry of a cache key is owned: by the request that claimed it while the handler runs, and
by the response that was kept for good. So under every cache key the handler completes at most
once, and what is answered again is what was kept for that key, for the same request.

A scope and a key are joined by a colon that either may contain, so two callers can share an entry;
and an object with the member that marks bytes is read as bytes. What a run answers from the cache
is right exactly as long as no request meets either.
-/

open List Option Function

namespace ActorTs.Http

open Machine World

/-- The same body, up to what JSON keeps of one that is not bytes. -/
def HttpBody.Alike : HttpBody → HttpBody → Prop
  | .absent, .absent => True
  | .bytes a, .bytes b => a = b
  | .json a, .json b => a.normal = b.normal
  | _, _ => False

structure HttpResponse.Alike (a b : HttpResponse) : Prop where
  status : a.status = b.status
  headers : a.headers = b.headers
  body : a.body.Alike b.body
  contentType : a.contentType = b.contentType

/-- A body that is no bytes and is read as bytes once it was kept. -/
def HttpBody.PosesAsBytes (runtime : Runtime) : HttpBody → Prop
  | .json value => ∃ bin bytes, binMember (runtime.storage.keep value) = some bin ∧
      runtime.bufferFrom bin = some bytes
  | _ => False

lemma Storage.normal_keep (storage : Storage) (value : Json) :
    (storage.keep value).normal = value.normal := by
  cases storage with
  | object => rfl
  | text => exact Json.normal_normal value

lemma Storage.keep_bin (storage : Storage) (text : JsString) :
    storage.keep (.obj [(binKey, .str text)]) = .obj [(binKey, .str text)] := by
  cases storage with
  | object => rfl
  | text =>
    refine Json.normal_obj (nodup_singleton _) fun m hm => ?_
    obtain rfl := mem_singleton.1 hm
    rfl

lemma binMember_bin (value : Json) : binMember (.obj [(binKey, value)]) = some value := by
  rw [binMember, OrderedMap.lookup, if_pos rfl]

/-- What is answered again is like what was kept, and bytes are always read. -/
lemma alike_of_decodeResponse {runtime : Runtime} {response answer : HttpResponse}
    {fingerprint : JsString} (hbody : ¬response.body.PosesAsBytes runtime)
    (h : decodeResponse runtime (encodeResponse runtime response fingerprint) = some answer) :
    answer.Alike response := by
  obtain ⟨status, headers, body, contentType⟩ := response
  cases body with
  | absent =>
    obtain rfl := some.inj h
    exact ⟨rfl, rfl, trivial, rfl⟩
  | bytes bytes =>
    simp only [decodeResponse, encodeResponse, Storage.keep_bin, binMember_bin,
      runtime.bufferFromText, map_some, some.injEq, Base64.decode_encode] at h
    subst h
    exact ⟨rfl, rfl, rfl, rfl⟩
  | json value =>
    simp only [decodeResponse, encodeResponse] at h
    cases hbin : binMember (runtime.storage.keep value) with
    | none =>
      rw [hbin] at h
      obtain rfl := some.inj h
      exact ⟨rfl, rfl, runtime.storage.normal_keep value, rfl⟩
    | some bin =>
      rw [hbin] at h
      obtain ⟨bytes, hbytes, -⟩ := map_eq_some_iff.1 h
      exact absurd ⟨bin, bytes, hbin, hbytes⟩ hbody

lemma decodeResponse_of_posesAsBytes {runtime : Runtime} {response : HttpResponse}
    (fingerprint : JsString) (hbody : response.body.PosesAsBytes runtime) :
    ∃ answer, decodeResponse runtime (encodeResponse runtime response fingerprint) = some answer ∧
      ¬answer.Alike response := by
  obtain ⟨status, headers, body, contentType⟩ := response
  cases body with
  | absent => exact hbody.elim
  | bytes bytes => exact hbody.elim
  | json value =>
    obtain ⟨bin, bytes, hbin, hbytes⟩ := hbody
    refine ⟨⟨status, headers, .bytes bytes, contentType⟩, ?_, fun h => h.body⟩
    simp [decodeResponse, encodeResponse, hbin, hbytes]

namespace World

variable {options : IdempotencyOptions} {runtime : Runtime} {w : World} {phase : Phase}

def Exchange.cacheKey (options : IdempotencyOptions) (e : Exchange) : JsString :=
  e.call.cacheKey options

def kept (runtime : Runtime) (e : Exchange) : CachedResponse :=
  encodeResponse runtime e.response (computeRequestFingerprint runtime e.call.request)

/-- A request whose claim stands. -/
def Phase.holds : Phase → Bool
  | .handling => true
  | .failing => true
  | .recording _ => true
  | _ => false

def Holds (options : IdempotencyOptions) (processes : ℕ → Option Process) (id : ℕ)
    (key : JsString) : Prop :=
  ∃ p, processes id = some p ∧ Phase.holds p.phase = true ∧ p.call.cacheKey options = key

/-- Who owns the entries of the cache. -/
structure Owned (options : IdempotencyOptions) (runtime : Runtime) (w : World) : Prop where
  claimed : ∀ id key, Holds options w.processes id key → w.cache key = some .inFlight
  unique : ∀ id id' key, Holds options w.processes id key → Holds options w.processes id' key →
    id = id'
  recorded : ∀ e ∈ w.records,
    w.cache (Exchange.cacheKey options e) = some (.completed (kept runtime e))
  found : ∀ key value, w.cache key = some (.completed value) →
    ∃ e ∈ w.records, Exchange.cacheKey options e = key ∧ value = kept runtime e
  completed : ∀ e ∈ w.completions, e ∈ w.records ∨
    ∃ id, w.processes id = some ⟨e.call, .recording e.response⟩
  answered : ∀ e ∈ w.records, e ∈ w.completions
  once : (w.completions.map (Exchange.cacheKey options)).Nodup
  recording : ∀ id call response, w.processes id = some ⟨call, .recording response⟩ →
    ⟨call, response⟩ ∈ w.completions

lemma owned_init : (init).Owned options runtime where
  claimed _ _ h := nomatch h.choose_spec.1
  unique _ _ _ h := nomatch h.choose_spec.1
  recorded _ h := nomatch h
  found _ _ h := nomatch h
  completed _ h := nomatch h
  answered _ h := nomatch h
  once := nodup_nil
  recording _ _ _ h := nomatch h

/-! ### One step -/

lemma holds_update {id id' : ℕ} {call : Call} {key : JsString} :
    Holds options (update w.processes id (some ⟨call, phase⟩)) id' key ↔
      (id' = id ∧ Phase.holds phase = true ∧ call.cacheKey options = key) ∨
        id' ≠ id ∧ Holds options w.processes id' key := by
  by_cases h : id' = id
  · subst h
    simp [Holds]
  · simp [Holds, h]

lemma was_recording {id id' : ℕ} {call c : Call} {r : HttpResponse}
    (h : update w.processes id (some ⟨call, phase⟩) id' = some ⟨c, .recording r⟩) :
    id' = id ∧ call = c ∧ phase = .recording r ∨ w.processes id' = some ⟨c, .recording r⟩ := by
  by_cases heq : id' = id
  · subst heq
    rw [update_self] at h
    obtain ⟨hcall, hphase⟩ := Process.mk.inj (some.inj h)
    exact .inl ⟨rfl, hcall, hphase⟩
  · rw [update_of_ne heq] at h
    exact .inr h

lemma still_recording {id id' : ℕ} {c : Call} {r : HttpResponse} {p q : Option Process}
    (hid : w.processes id = p) (hp : p ≠ some ⟨c, .recording r⟩)
    (h : w.processes id' = some ⟨c, .recording r⟩) :
    update w.processes id q id' = some ⟨c, .recording r⟩ := by
  have hne : id' ≠ id := by
    rintro rfl
    exact hp (hid.symm.trans h)
  rw [update_of_ne hne, h]

lemma not_holds_of_phase {id : ℕ} {p : Process} (hp : w.processes id = some p)
    (hphase : Phase.holds p.phase = false) (key : JsString) :
    ¬Holds options w.processes id key := by
  rintro ⟨q, hq, htrue, -⟩
  obtain rfl := some.inj (hp.symm.trans hq)
  exact nomatch htrue.symm.trans hphase

section

variable (h : w.Owned options runtime)
include h

/-- An entry that is not a response can change without the responses that are kept. -/
lemma Owned.recorded_update {key : JsString}
    (hkey : ∀ value, w.cache key ≠ some (.completed value)) (entry : Option Entry) :
    ∀ e ∈ w.records, update w.cache key entry (Exchange.cacheKey options e) =
      some (.completed (kept runtime e)) := by
  intro e he
  have hrec := h.recorded e he
  refine (update_of_ne ?_ ..).trans hrec
  rintro rfl
  exact hkey _ hrec

lemma Owned.found_update (key : JsString) {entry : Option Entry}
    (hentry : ∀ value, entry ≠ some (.completed value)) :
    ∀ key' value, update w.cache key entry key' = some (.completed value) →
      ∃ e ∈ w.records, Exchange.cacheKey options e = key' ∧ value = kept runtime e := by
  intro key' value hvalue
  by_cases hkey : key' = key
  · subst hkey
    exact absurd ((update_self ..).symm.trans hvalue) (hentry value)
  · exact h.found key' value ((update_of_ne hkey ..).symm.trans hvalue)

lemma Owned.completed_update {id : ℕ} {call : Call} (hid : w.processes id = some ⟨call, phase⟩)
    (hphase : ∀ r, phase ≠ .recording r) (p : Option Process) : ∀ e ∈ w.completions, e ∈ w.records ∨
      ∃ id', update w.processes id p id' = some ⟨e.call, .recording e.response⟩ := by
  intro e he
  refine (h.completed e he).imp_right fun ⟨id', hid'⟩ => ⟨id', still_recording hid ?_ hid'⟩
  exact fun hp => hphase _ (Process.mk.inj (some.inj hp)).2

lemma Owned.recording_update (hphase : ∀ r, phase ≠ .recording r)
    (id : ℕ) (call : Call) : ∀ id' c r,
      update w.processes id (some ⟨call, phase⟩) id' = some ⟨c, .recording r⟩ →
        ⟨c, r⟩ ∈ w.completions := by
  intro id' c r hrec
  rcases was_recording hrec with ⟨-, -, heq⟩ | hrec
  · exact absurd heq (hphase r)
  · exact h.recording id' c r hrec

lemma Owned.moveTo {id : ℕ} {call : Call} (hfree : ∀ key, ¬Holds options w.processes id key)
    (hphase : Phase.holds phase = false) : (w.moveTo id call phase).Owned options runtime := by
  have hholds : ∀ {id' key}, Holds options (w.moveTo id call phase).processes id' key →
      Holds options w.processes id' key := by
    intro id' key hheld
    rcases holds_update.1 hheld with ⟨-, htrue, -⟩ | ⟨-, hheld⟩
    · exact nomatch htrue.symm.trans hphase
    · exact hheld
  refine ⟨fun id' key hheld => h.claimed id' key (hholds hheld),
    fun id₁ id₂ key h₁ h₂ => h.unique id₁ id₂ key (hholds h₁) (hholds h₂), h.recorded, h.found,
    fun e he => ?_, h.answered, h.once, h.recording_update ?_ id call⟩
  · refine (h.completed e he).imp_right fun ⟨id', hid'⟩ => ⟨id', still_recording rfl ?_ hid'⟩
    exact fun hp => hfree _ ⟨_, hp, rfl, rfl⟩
  · rintro r rfl
    exact nomatch hphase

/-- The claim of a key is one where there is none, and nothing was kept for the key. -/
lemma Owned.onSetIfAbsent {id : ℕ} {call : Call} (hid : w.processes id = some ⟨call, .claiming⟩) :
    (w.onSetIfAbsent options id call).Owned options runtime := by
  have hfree : ∀ key, ¬Holds options w.processes id key := not_holds_of_phase hid rfl
  unfold World.onSetIfAbsent
  split
  · exact h.moveTo hfree rfl
  · next hnone =>
    have hother : ∀ {id' key}, Holds options w.processes id' key →
        key ≠ call.cacheKey options := by
      rintro id' key hheld rfl
      exact nomatch hnone.symm.trans (h.claimed id' _ hheld)
    refine ⟨?_, ?_, h.recorded_update (by simp [hnone]) _, h.found_update _ nofun,
      h.completed_update hid (by simp) _, h.answered, h.once, h.recording_update (by simp) id call⟩
    · intro id' key hheld
      rcases holds_update.1 hheld with ⟨-, -, rfl⟩ | ⟨-, hheld⟩
      · exact update_self ..
      · exact (update_of_ne (hother hheld) _ _).trans (h.claimed id' key hheld)
    · intro id₁ id₂ key h₁ h₂
      rcases holds_update.1 h₁ with ⟨rfl, -, hkey⟩ | ⟨-, h₁⟩
      · rcases holds_update.1 h₂ with ⟨rfl, -, -⟩ | ⟨-, h₂⟩
        · rfl
        · exact absurd hkey.symm (hother h₂)
      · rcases holds_update.1 h₂ with ⟨-, -, hkey⟩ | ⟨-, h₂⟩
        · exact absurd hkey.symm (hother h₁)
        · exact h.unique id₁ id₂ key h₁ h₂

end

lemma holds_update_of_holds {id id' : ℕ} {call : Call} {phase phase' : Phase} {key : JsString}
    (hid : w.processes id = some ⟨call, phase⟩) (hphase : Phase.holds phase = true)
    (h : Holds options (update w.processes id (some ⟨call, phase'⟩)) id' key) :
    Holds options w.processes id' key := by
  rcases holds_update.1 h with ⟨rfl, -, hkey⟩ | ⟨-, h⟩
  · exact ⟨_, hid, hphase, hkey⟩
  · exact h

section

variable (h : w.Owned options runtime)
include h

/-- Nothing was completed under a key that is held by a request whose handler still runs. -/
lemma Owned.fresh {id : ℕ} {call : Call} (hid : w.processes id = some ⟨call, .handling⟩)
    {e : Exchange} (he : e ∈ w.completions) :
    Exchange.cacheKey options e ≠ call.cacheKey options := by
  intro heq
  have hheld : Holds options w.processes id (call.cacheKey options) := ⟨_, hid, rfl, rfl⟩
  rcases h.completed e he with hrec | ⟨id', hid'⟩
  · have hkept := h.recorded e hrec
    rw [heq, h.claimed id _ hheld] at hkept
    exact nomatch some.inj hkept
  · obtain rfl := h.unique id id' _ hheld ⟨_, hid', rfl, heq⟩
    exact nomatch some.inj (hid.symm.trans hid')

lemma Owned.onHandler {id : ℕ} {call : Call} (hid : w.processes id = some ⟨call, .handling⟩)
    (response : Option HttpResponse) : (w.onHandler id call response).Owned options runtime := by
  have hclaimed : ∀ {phase : Phase} (id' : ℕ) (key : JsString),
      Holds options (update w.processes id (some ⟨call, phase⟩)) id' key →
        w.cache key = some .inFlight :=
    fun id' key hheld => h.claimed id' key (holds_update_of_holds hid rfl hheld)
  have hunique : ∀ {phase : Phase} (id₁ id₂ : ℕ) (key : JsString),
      Holds options (update w.processes id (some ⟨call, phase⟩)) id₁ key →
        Holds options (update w.processes id (some ⟨call, phase⟩)) id₂ key → id₁ = id₂ :=
    fun id₁ id₂ key h₁ h₂ => h.unique id₁ id₂ key (holds_update_of_holds hid rfl h₁)
      (holds_update_of_holds hid rfl h₂)
  cases response with
  | none =>
    exact ⟨hclaimed, hunique, h.recorded, h.found, h.completed_update hid (by simp) _, h.answered,
      h.once, h.recording_update (by simp) id call⟩
  | some response =>
    refine ⟨hclaimed, hunique, h.recorded, h.found, ?_,
      fun e he => mem_append_left _ (h.answered e he), ?_, ?_⟩
    · intro e he
      rcases mem_append.1 he with he | he
      · exact h.completed_update hid (by simp) _ e he
      · obtain rfl := mem_singleton.1 he
        exact .inr ⟨id, update_self ..⟩
    · show ((w.completions ++ [(⟨call, response⟩ : Exchange)]).map
        (Exchange.cacheKey options)).Nodup
      rw [map_append, nodup_append]
      refine ⟨h.once, nodup_singleton _, fun key hkey key' hkey' => ?_⟩
      obtain ⟨e, he, rfl⟩ := mem_map.1 hkey
      obtain rfl := mem_singleton.1 hkey'
      exact h.fresh hid he
    · intro id' c r hrec
      rcases was_recording hrec with ⟨-, rfl, hphase⟩ | hrec
      · obtain rfl := Phase.recording.inj hphase
        exact mem_append_right _ (mem_singleton_self _)
      · exact mem_append_left _ (h.recording id' c r hrec)

lemma Owned.released {id : ℕ} {call : Call} {phase phase' : Phase}
    (hid : w.processes id = some ⟨call, phase⟩) (hphase : Phase.holds phase = true)
    (hfree : Phase.holds phase' = false) {id' : ℕ} {key : JsString}
    (hheld : Holds options (update w.processes id (some ⟨call, phase'⟩)) id' key) :
    key ≠ call.cacheKey options ∧ Holds options w.processes id' key := by
  rcases holds_update.1 hheld with ⟨-, htrue, -⟩ | ⟨hne, hheld⟩
  · exact nomatch htrue.symm.trans hfree
  · refine ⟨?_, hheld⟩
    rintro rfl
    exact hne (h.unique id' id _ hheld ⟨_, hid, hphase, rfl⟩)

lemma Owned.onDelete {id : ℕ} {call : Call} (hid : w.processes id = some ⟨call, .failing⟩) :
    (w.onDelete options id call).Owned options runtime := by
  have hclaim : w.cache (call.cacheKey options) = some .inFlight :=
    h.claimed id _ ⟨_, hid, rfl, rfl⟩
  refine ⟨fun id' key hheld => ?_, fun id₁ id₂ key h₁ h₂ => ?_,
    h.recorded_update (by simp [hclaim]) _, h.found_update _ nofun,
    h.completed_update hid (by simp) _, h.answered, h.once, h.recording_update (by simp) id call⟩
  · obtain ⟨hne, hheld⟩ := h.released hid rfl rfl hheld
    exact (update_of_ne hne _ _).trans (h.claimed id' key hheld)
  · exact h.unique id₁ id₂ key (h.released hid rfl rfl h₁).2 (h.released hid rfl rfl h₂).2

lemma Owned.onSet {id : ℕ} {call : Call} {response : HttpResponse}
    (hid : w.processes id = some ⟨call, .recording response⟩) :
    (w.onSet options runtime id call response).Owned options runtime := by
  have hclaim : w.cache (call.cacheKey options) = some .inFlight :=
    h.claimed id _ ⟨_, hid, rfl, rfl⟩
  refine ⟨fun id' key hheld => ?_, fun id₁ id₂ key h₁ h₂ => ?_, fun e he => ?_,
    fun key value hvalue => ?_, fun e he => ?_, fun e he => ?_, h.once,
    h.recording_update (by simp) id call⟩
  · obtain ⟨hne, hheld⟩ := h.released hid rfl rfl hheld
    exact (update_of_ne hne _ _).trans (h.claimed id' key hheld)
  · exact h.unique id₁ id₂ key (h.released hid rfl rfl h₁).2 (h.released hid rfl rfl h₂).2
  · rcases mem_append.1 he with he | he
    · exact h.recorded_update (by simp [hclaim]) _ e he
    · obtain rfl := mem_singleton.1 he
      exact update_self ..
  · by_cases hkey : key = call.cacheKey options
    · subst hkey
      have hentry := (update_self ..).symm.trans hvalue
      refine ⟨⟨call, response⟩, mem_append_right _ (mem_singleton_self _), rfl, ?_⟩
      exact (Entry.completed.inj (some.inj hentry)).symm
    · obtain ⟨e, he, hkey, hkept⟩ :=
        h.found key value ((update_of_ne hkey _ _).symm.trans hvalue)
      exact ⟨e, mem_append_left _ he, hkey, hkept⟩
  · rcases h.completed e he with hrec | ⟨id', hid'⟩
    · exact .inl (mem_append_left _ hrec)
    · by_cases heq : id' = id
      · subst heq
        obtain ⟨hcall, hphase⟩ := Process.mk.inj (some.inj (hid.symm.trans hid'))
        obtain rfl := Phase.recording.inj hphase
        subst hcall
        exact .inl (mem_append_right _ (mem_singleton_self _))
      · exact .inr ⟨id', (update_of_ne heq _ _).trans hid'⟩
  · rcases mem_append.1 he with he | he
    · exact h.answered e he
    · obtain rfl := mem_singleton.1 he
      exact h.recording id call response hid

lemma Owned.onGet {id : ℕ} {call : Call} (hid : w.processes id = some ⟨call, .probing⟩) :
    (w.onGet options runtime id call).Owned options runtime := by
  have hmoved : ∀ phase : Phase, Phase.holds phase = false →
      (w.moveTo id call phase).Owned options runtime :=
    fun phase hphase => h.moveTo (not_holds_of_phase hid rfl) hphase
  unfold World.onGet
  split
  · exact hmoved _ rfl
  · exact hmoved _ rfl
  · split
    · exact hmoved _ rfl
    · split
      · exact hmoved _ rfl
      · next answer _ =>
        obtain ⟨h₁, h₂, h₃, h₄, h₅, h₆, h₇, h₈⟩ := hmoved (.answered answer) rfl
        exact ⟨h₁, h₂, h₃, h₄, h₅, h₆, h₇, h₈⟩

lemma Owned.onArrive (id : ℕ) (request : HttpRequest) (identity : Option JsString) :
    (w.onArrive options id request identity).Owned options runtime := by
  unfold World.onArrive
  split
  · next hnone _ =>
    refine h.moveTo (fun key hheld => ?_) rfl
    exact nomatch hnone.symm.trans hheld.choose_spec.1
  · exact h

lemma Owned.step (input : Input) : (w.step options runtime input).Owned options runtime := by
  cases input with
  | arrive id request identity => exact h.onArrive id request identity
  | get id =>
    unfold World.step
    dsimp only
    split
    · next hid => exact h.onGet hid
    · exact h
  | setIfAbsent id =>
    unfold World.step
    dsimp only
    split
    · next hid => exact h.onSetIfAbsent hid
    · exact h
  | handler id response =>
    unfold World.step
    dsimp only
    split
    · next hid => exact h.onHandler hid response
    · exact h
  | delete id =>
    unfold World.step
    dsimp only
    split
    · next hid => exact h.onDelete hid
    · exact h
  | set id =>
    unfold World.step
    dsimp only
    split
    · next hid => exact h.onSet hid
    · exact h

/-! ### What is answered from the cache -/

/-- The handler completes once for a caller's key, and what is answered from the cache is what
it answered to the same request of the same caller. -/
structure Protected (w : World) : Prop where
  once : (w.completions.map fun e => e.call.caller).Nodup
  faithful : ∀ r ∈ w.replays, ∃ e ∈ w.completions, e.call.caller = r.call.caller ∧
    SameRequest e.call.request r.call.request ∧ r.response.Alike e.response

/-- A request looks up a key under which the same request of another caller was kept, or a body
that is read as bytes and is none. -/
def Misled (options : IdempotencyOptions) (runtime : Runtime) (w : World) (call : Call) : Prop :=
  ∃ e ∈ w.records, Exchange.cacheKey options e = call.cacheKey options ∧
    SameRequest e.call.request call.request ∧ decodeResponse runtime (kept runtime e) ≠ none ∧
    (e.call.caller ≠ call.caller ∨ e.response.body.PosesAsBytes runtime)

def Misleads (options : IdempotencyOptions) (runtime : Runtime) (w : World) : Input → Prop
  | .get id => ∃ call, w.processes id = some ⟨call, .probing⟩ ∧ Misled options runtime w call
  | _ => False

lemma Owned.nodup_callers : (w.completions.map fun e => e.call.caller).Nodup := by
  have hcompose : w.completions.map (Exchange.cacheKey options) =
      (w.completions.map fun e => e.call.caller).map fun caller => options.keyPrefix ++ caller.1 ++
        (if caller.1 = [] then [] else ":") ++ caller.2 := by
    rw [List.map_map]
    rfl
  exact List.Nodup.of_map _ (hcompose ▸ h.once)

lemma Owned.eq_of_cacheKey_eq {e e' : Exchange}
    (he : e ∈ w.completions) (he' : e' ∈ w.completions)
    (hkey : Exchange.cacheKey options e = Exchange.cacheKey options e') : e = e' :=
  inj_on_of_nodup_map h.once he he' hkey

end

lemma cacheKey_of_caller_eq {a b : Call} (h : a.caller = b.caller) :
    a.cacheKey options = b.cacheKey options := by
  obtain ⟨hscope, hkey⟩ := Prod.mk.inj h
  rw [Call.cacheKey, Call.cacheKey, hscope, hkey]

lemma Protected.of_replays {w' : World} (h : w.Protected) (hw' : w'.Owned options runtime)
    (hreplays : w'.replays = w.replays) (hcompletions : ∀ e ∈ w.completions, e ∈ w'.completions) :
    w'.Protected where
  once := hw'.nodup_callers
  faithful r hr := by
    obtain ⟨e, he, hsame⟩ := h.faithful r (hreplays ▸ hr)
    exact ⟨e, hcompletions e he, hsame⟩

lemma protected_onGet_iff (hw : w.Owned options runtime) (h : w.Protected) {id : ℕ}
    {call : Call} (hid : w.processes id = some ⟨call, .probing⟩) :
    (w.onGet options runtime id call).Protected ↔ ¬Misled options runtime w call := by
  have hnext := hw.onGet hid
  -- What the cache holds for the key was kept once, and only then is it answered again.
  have hnone : w.cache (call.cacheKey options) = none ∨
      w.cache (call.cacheKey options) = some .inFlight → ¬Misled options runtime w call := by
    rintro hcache ⟨e, he, hkey, -⟩
    have hrec := hw.recorded e he
    rw [hkey] at hrec
    rcases hcache with hcache | hcache
    · exact nomatch hcache.symm.trans hrec
    · exact nomatch some.inj (hcache.symm.trans hrec)
  unfold World.onGet at hnext ⊢
  split
  · next hcache =>
    rw [hcache] at hnext
    exact iff_of_true (h.of_replays hnext rfl fun _ he => he) (hnone (.inl hcache))
  · next hcache =>
    rw [hcache] at hnext
    exact iff_of_true (h.of_replays hnext rfl fun _ he => he) (hnone (.inr hcache))
  · next value hcache =>
    rw [hcache] at hnext
    dsimp only at hnext
    obtain ⟨e, he, hkey, rfl⟩ := hw.found _ value hcache
    have honly : ∀ e' ∈ w.records, Exchange.cacheKey options e' = call.cacheKey options → e' = e :=
      fun e' he' hkey' => hw.eq_of_cacheKey_eq (hw.answered e' he') (hw.answered e he)
        (hkey'.trans hkey.symm)
    have hfingerprint : (kept runtime e).requestFingerprint =
        computeRequestFingerprint runtime call.request ↔ SameRequest e.call.request call.request :=
      computeRequestFingerprint_eq_iff runtime _ _
    split
    · next hdifferent =>
      rw [if_pos hdifferent] at hnext
      refine iff_of_true (h.of_replays hnext rfl fun _ he => he) ?_
      rintro ⟨e', he', hkey', hsame, -⟩
      exact hdifferent (hfingerprint.2 (honly e' he' hkey' ▸ hsame))
    · next hsame =>
      rw [if_neg hsame] at hnext
      rw [not_not, hfingerprint] at hsame
      split
      · next hdecode =>
        rw [hdecode] at hnext
        refine iff_of_true (h.of_replays hnext rfl fun _ he => he) ?_
        rintro ⟨e', he', hkey', -, hreadable, -⟩
        exact hreadable (honly e' he' hkey' ▸ hdecode)
      · next answer hdecode =>
        constructor
        · rintro ⟨-, hfaithful⟩ ⟨e', he', hkey', -, -, hwrong⟩
          obtain rfl := honly e' he' hkey'
          obtain ⟨e'', he'', hcaller, -, halike⟩ := hfaithful ⟨call, answer⟩
            (mem_append_right _ (mem_singleton_self _))
          have heq : e'' = e' := hw.eq_of_cacheKey_eq he'' (hw.answered e' he)
            ((cacheKey_of_caller_eq hcaller).trans hkey.symm)
          subst heq
          rcases hwrong with hwrong | hposes
          · exact hwrong hcaller
          · obtain ⟨answer', hdecode', hunlike⟩ := decodeResponse_of_posesAsBytes
              (computeRequestFingerprint runtime e''.call.request) hposes
            obtain rfl := some.inj (hdecode.symm.trans hdecode')
            exact hunlike halike
        · intro hright
          have hreadable : decodeResponse runtime (kept runtime e) ≠ none :=
            fun hno => nomatch hno.symm.trans hdecode
          have hcaller : e.call.caller = call.caller := by
            by_contra hne
            exact hright ⟨e, he, hkey, hsame, hreadable, .inl hne⟩
          have hbody : ¬e.response.body.PosesAsBytes runtime :=
            fun hposes => hright ⟨e, he, hkey, hsame, hreadable, .inr hposes⟩
          refine ⟨hw.nodup_callers, fun r hr => ?_⟩
          rcases mem_append.1 hr with hr | hr
          · exact h.faithful r hr
          · obtain rfl := mem_singleton.1 hr
            exact ⟨e, hw.answered e he, hcaller, hsame, alike_of_decodeResponse hbody hdecode⟩

lemma protected_step_iff (hw : w.Owned options runtime) (h : w.Protected) (input : Input) :
    (w.step options runtime input).Protected ↔ ¬Misleads options runtime w input := by
  have hnext := hw.step input
  have hplain : ∀ {input : Input}, (w.step options runtime input).Owned options runtime →
      (w.step options runtime input).replays = w.replays →
      (∀ e ∈ w.completions, e ∈ (w.step options runtime input).completions) →
      ¬Misleads options runtime w input →
      ((w.step options runtime input).Protected ↔ ¬Misleads options runtime w input) :=
    fun howned hreplays hcompletions hno =>
      iff_of_true (h.of_replays howned hreplays hcompletions) hno
  cases input with
  | get id =>
    unfold step Misleads
    dsimp only
    split
    · next call hid =>
      rw [protected_onGet_iff hw h hid]
      refine not_congr ⟨fun hmisled => ⟨call, hid, hmisled⟩, ?_⟩
      rintro ⟨call', hid', hmisled⟩
      obtain ⟨rfl, -⟩ := Process.mk.inj (some.inj (hid.symm.trans hid'))
      exact hmisled
    · next hother =>
      refine iff_of_true h ?_
      rintro ⟨call, hid, -⟩
      exact hother call hid
  | arrive id request identity =>
    refine hplain hnext ?_ ?_ not_false
    · show (w.onArrive options id request identity).replays = w.replays
      unfold onArrive
      split <;> rfl
    · show ∀ e ∈ w.completions, e ∈ (w.onArrive options id request identity).completions
      unfold onArrive
      split <;> exact fun _ he => he
  | setIfAbsent id =>
    refine hplain hnext ?_ ?_ not_false
    · unfold step onSetIfAbsent
      dsimp only
      split
      · split <;> rfl
      · rfl
    · unfold step onSetIfAbsent
      dsimp only
      split
      · split <;> exact fun _ he => he
      · exact fun _ he => he
  | handler id response =>
    refine hplain hnext ?_ ?_ not_false
    · unfold step
      dsimp only
      split
      · cases response <;> rfl
      · rfl
    · unfold step
      dsimp only
      split
      · cases response with
        | none => exact fun _ he => he
        | some response => exact fun e he => mem_append_left _ he
      · exact fun _ he => he
  | delete id =>
    refine hplain hnext ?_ ?_ not_false
    · unfold step
      dsimp only
      split <;> rfl
    · unfold step
      dsimp only
      split <;> exact fun _ he => he
  | set id =>
    refine hplain hnext ?_ ?_ not_false
    · unfold step
      dsimp only
      split <;> rfl
    · unfold step
      dsimp only
      split <;> exact fun _ he => he

lemma protected_init : (init).Protected where
  once := nodup_nil
  faithful _ h := nomatch h

/-- In every state of a run the handler completed at most once for each caller's key and every
answer from the cache was right, in exactly those runs where no look-up is misled. -/
theorem protected_run_iff (options : IdempotencyOptions) (runtime : Runtime) (inputs : List Input) :
    (∀ earlier later, inputs = earlier ++ later → (run options runtime earlier).Protected) ↔
      Machine.Along (step options runtime) (fun w input => ¬Misleads options runtime w input)
        init inputs :=
  along_iff_invariant (I := Protected) (J := Owned options runtime)
    (fun _ input h => h.step input) (fun _ input howned h => protected_step_iff howned h input)
    owned_init protected_init inputs

/-! ### Two callers with one entry -/

/-- A payment under an idempotency key. -/
def payment (key : JsString) : HttpRequest where
  method := .post
  path := "/payments"
  headers := ⟨[("idempotency-key", key)], nodup_singleton _⟩
  query := .empty
  body := none
  pathNoQuery := by decide
  pathNoLineFeed := by decide
  pathPaired := by decide

/-- A runtime whose digest is the identity and whose cache keeps objects. -/
def plainRuntime : Runtime where
  sha256 := id
  sha256Injective := injective_id
  bufferFrom
    | .str s => some (Base64.decode s)
    | _ => none
  bufferFromText _ := rfl
  storage := .object

def receipt : HttpResponse := ⟨201, none, .json (.str "paid by a"), none⟩

/-- The account `a` pays under the key `b:c`, and then the account `a:b` under the key `c`. -/
def sharedInputs : List Input :=
  [.arrive 1 (payment "b:c") (some "a"), .get 1, .setIfAbsent 1,
    .handler 1 (some receipt), .set 1, .arrive 2 (payment "c") (some "a:b")]

/-- The second account is answered what the first one was. -/
theorem not_protected_shared :
    ¬∀ (options : IdempotencyOptions) (runtime : Runtime) (inputs : List Input),
      ∀ earlier later, inputs = earlier ++ later → (run options runtime earlier).Protected := by
  intro h
  have hbefore := h {} plainRuntime sharedInputs sharedInputs [] (append_nil _).symm
  have howned : (run {} plainRuntime sharedInputs).Owned {} plainRuntime :=
    invariant (fun _ input _ h => h.step input) along_true owned_init
  have hafter := h {} plainRuntime (sharedInputs ++ [.get 2]) _ [] (append_nil _).symm
  refine (protected_step_iff howned hbefore (.get 2)).1 hafter ?_
  refine ⟨⟨payment "c", "a:b", "c"⟩, rfl,
    ⟨⟨payment "b:c", "a", "b:c"⟩, receipt⟩, mem_singleton_self _, by decide,
    ⟨rfl, rfl, rfl, rfl⟩, nofun, .inl (by decide)⟩

end World

end ActorTs.Http
