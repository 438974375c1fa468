import ActorTs.Library.JsObject
import ActorTs.Library.JsOperators
import ActorTs.Library.Outcome

/-!
# Options of the in-memory cache

The validator goes through the fields of the options and refuses the first one that is out of
range. What the constructor keeps of options that it accepts is a `CacheConfig`, whose fields
say what was checked: no bound is below one, and no prefix is empty.

The table of quotas is listed in the order in which an object lists its properties.
-/

open Outcome

namespace ActorTs.Cache

structure InMemoryCacheOptions where
  maxEntries : Option JsNumber
  cleanupMs : Option JsNumber
  timeToLiveMs : Option JsNumber
  timeToIdleMs : Option JsNumber
  prefixQuotas : Option (OrderedMap JsString JsNumber)

def defaultMaxEntries : JsNumber := .ofInt 10000

def defaultTimeToLiveMs : JsNumber := .ofInt 0

def defaultTimeToIdleMs : JsNumber := .ofInt 0

/-- The message of the error has the rejected value behind the reason. -/
structure OptionsError where
  options : JsString
  field : JsString
  reason : JsString
  deriving DecidableEq

namespace InMemoryCacheOptionsValidator

def fail {α : Type} (field reason : JsString) : Except OptionsError α :=
  .error ⟨"InMemoryCacheOptions", field, reason⟩

def checkMaxEntries (maxEntries : Option JsNumber) : Except OptionsError Unit :=
  match maxEntries with
  | none => .ok ()
  | some x =>
    if x ≠ .infinity false ∧ (x.isInteger = false ∨ x.lt (.ofInt 1) = true) then
      fail "maxEntries" "must be a positive integer or Infinity"
    else .ok ()

def checkCleanup (cleanupMs : Option JsNumber) : Except OptionsError Unit :=
  match cleanupMs with
  | none => .ok ()
  | some x =>
    if x = .nan ∨ x.lt (.ofInt 0) = true then
      fail "cleanupMs"
        "must be a non-negative number (0 or Infinity disables the sweep)"
    else .ok ()

def checkExpiryPolicy (field : JsString) (value : Option JsNumber) : Except OptionsError Unit :=
  match value with
  | none => .ok ()
  | some x =>
    if x.isFinite = false ∨ x.lt (.ofInt 0) = true then
      fail field "must be a finite non-negative number of milliseconds (0 disables it)"
    else .ok ()

/-- Check the quotas one after the other and add them up. -/
def checkQuotas : List (JsString × JsNumber) → JsNumber → Except OptionsError JsNumber
  | [], reserved => .ok reserved
  | (pre, quota) :: quotas, reserved =>
    if pre = [] then
      fail "prefixQuotas" "must not carry an empty prefix, which would match every key"
    else if quota.isInteger = false ∨ quota.lt (.ofInt 1) = true then
      fail "prefixQuotas" ("must map '" ++ pre ++ "' to a positive integer")
    else checkQuotas quotas (reserved.add quota)

def checkPrefixQuotas (prefixQuotas : OrderedMap JsString JsNumber)
    (maxEntries : Option JsNumber) : Except OptionsError Unit := do
  let reserved ← checkQuotas prefixQuotas.entries (.ofInt 0)
  let cap := maxEntries.getD defaultMaxEntries
  if cap.isFinite = true ∧ cap.lt reserved = true then
    fail "prefixQuotas" ("reserves " ++ reserved.text ++
      " entries, more than maxEntries (" ++ cap.text ++ ") can hold")

def rules (s : InMemoryCacheOptions) : Except OptionsError Unit := do
  checkMaxEntries s.maxEntries
  checkCleanup s.cleanupMs
  checkExpiryPolicy "timeToLiveMs" s.timeToLiveMs
  checkExpiryPolicy "timeToIdleMs" s.timeToIdleMs
  match s.prefixQuotas with
  | none => .ok ()
  | some prefixQuotas => checkPrefixQuotas prefixQuotas s.maxEntries

end InMemoryCacheOptionsValidator

open InMemoryCacheOptionsValidator

lemma one_le_of_checkMaxEntries {maxEntries : Option JsNumber}
    (h : checkMaxEntries maxEntries = .ok ()) {m : ℕ}
    (hm : (maxEntries.getD defaultMaxEntries).ceiling = some m) : 1 ≤ m := by
  cases maxEntries with
  | none => exact JsNumber.one_le_ceiling (by decide +kernel) hm
  | some x =>
    rw [checkMaxEntries] at h
    split at h
    · cases h
    · next hx =>
      refine JsNumber.one_le_ceiling ?_ hm
      rcases eq_or_ne x (.infinity false) with rfl | hne
      · decide +kernel
      · rw [not_and_or, not_or, Bool.not_eq_false] at hx
        obtain ⟨hinteger, hlt⟩ := hx.resolve_left (not_not.2 hne)
        exact JsNumber.le_of_not_lt (JsNumber.isFinite_of_isInteger hinteger)
          (by decide +kernel) hlt

lemma forall_mem_of_checkQuotas {quotas : List (JsString × JsNumber)}
    {reserved reserved' : JsNumber} (h : checkQuotas quotas reserved = .ok reserved') :
    ∀ p ∈ quotas, p.1 ≠ [] ∧ p.2.isFinite = true ∧ JsNumber.le (.ofInt 1) p.2 = true := by
  induction quotas generalizing reserved with
  | nil => exact fun p hp => (nomatch hp)
  | cons q quotas ih =>
    rw [checkQuotas] at h
    split at h
    · cases h
    · next hpre =>
      split at h
      · cases h
      · next hquota =>
        rw [not_or, Bool.not_eq_false] at hquota
        have hfinite := JsNumber.isFinite_of_isInteger hquota.1
        intro p hp
        rcases List.mem_cons.1 hp with rfl | hp
        · exact ⟨hpre, hfinite, JsNumber.le_of_not_lt hfinite (by decide +kernel) hquota.2⟩
        · exact ih h p hp

/-- What the constructor keeps. Where the number of entries is `none` the map is not bounded. -/
structure CacheConfig where
  maxEntries : Option ℕ
  timeToLiveMs : JsNumber
  timeToIdleMs : JsNumber
  quotas : OrderedMap JsString ℕ
  one_le_maxEntries : ∀ m, maxEntries = some m → 1 ≤ m
  one_le_quota : ∀ pre q, quotas.get? pre = some q → 1 ≤ q
  nil_notMem_quotas : [] ∉ quotas.keys

namespace InMemoryCacheOptions

/-- The table of quotas, which is empty where none is given. -/
def quotaTable (s : InMemoryCacheOptions) : OrderedMap JsString JsNumber :=
  s.prefixQuotas.getD .empty

lemma of_rules {s : InMemoryCacheOptions} (h : rules s = .ok ()) :
    checkMaxEntries s.maxEntries = .ok () ∧
      ∀ p ∈ s.quotaTable.entries,
        p.1 ≠ [] ∧ p.2.isFinite = true ∧ JsNumber.le (.ofInt 1) p.2 = true := by
  obtain ⟨⟨⟩, hmax, h⟩ := bind_eq_ok h
  obtain ⟨-, -, h⟩ := bind_eq_ok h
  obtain ⟨-, -, h⟩ := bind_eq_ok h
  obtain ⟨-, -, h⟩ := bind_eq_ok h
  refine ⟨hmax, ?_⟩
  unfold quotaTable
  cases hquotas : s.prefixQuotas with
  | none => exact fun p hp => (nomatch hp)
  | some quotas =>
    rw [hquotas] at h
    obtain ⟨reserved, hreserved, -⟩ := bind_eq_ok h
    exact forall_mem_of_checkQuotas hreserved

/-- The constructor. -/
def config (s : InMemoryCacheOptions) (h : rules s = .ok ()) : CacheConfig where
  maxEntries := (s.maxEntries.getD defaultMaxEntries).ceiling
  timeToLiveMs := s.timeToLiveMs.getD defaultTimeToLiveMs
  timeToIdleMs := s.timeToIdleMs.getD defaultTimeToIdleMs
  quotas := s.quotaTable.mapValues fun _ quota => quota.ceiling.getD 0
  one_le_maxEntries _ hm := one_le_of_checkMaxEntries (of_rules h).1 hm
  one_le_quota pre q hq := by
    rw [OrderedMap.get?_mapValues, Option.map_eq_some_iff] at hq
    obtain ⟨quota, hquota, rfl⟩ := hq
    obtain ⟨-, hfinite, hle⟩ := (of_rules h).2 (pre, quota)
      ((OrderedMap.get?_eq_some_iff _ _ _).1 hquota)
    cases quota with
    | nan => cases hfinite
    | infinity negative => cases hfinite
    | finite x => exact JsNumber.one_le_ceiling hle rfl
  nil_notMem_quotas := by
    rw [OrderedMap.mem_keys_mapValues]
    intro hmem
    obtain ⟨p, hp, hnil⟩ := List.mem_map.1 hmem
    exact ((of_rules h).2 p hp).1 hnil

end InMemoryCacheOptions

end ActorTs.Cache
