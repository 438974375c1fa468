import ActorTs.Cluster.Sharding.ReplacementRegions
import ActorTs.Library.Machine

/-!
# The cap of the passivation strategy

The residents of a strategy are those that were admitted, less those that it gave up and
those that were removed. It holds each of them in one place, its window or one segment of
its main region, and never holds more of them than its capacity.
-/

open Option Nat Finset

namespace ActorTs.Cluster.Sharding

open Machine CompositePassivationStrategy ReplacementRegion

namespace CompositePassivationStrategy

variable {s : CompositePassivationStrategy}

def windowResidents (s : CompositePassivationStrategy) : Finset JsString :=
  match s.window with
  | some window => window.residents
  | none => ∅

def residents (s : CompositePassivationStrategy) : Finset JsString :=
  s.windowResidents ∪ s.main.residents

/-- The two regions share the capacity, and hold each id in one place. -/
structure Sound (capacity : ℕ) (s : CompositePassivationStrategy) : Prop where
  capacities : s.windowCapacity + s.mainCapacity ≤ capacity
  positive : 0 < s.mainCapacity
  window : ∀ window, s.window = some window → 0 < s.windowCapacity
  main : s.main.Sound
  disjoint : Disjoint s.windowResidents s.main.residents
  windowSize : s.windowResidents.card ≤ s.windowCapacity
  mainSize : s.main.residents.card ≤ s.mainCapacity

variable {capacity : ℕ} {config : PassivationStrategyConfig} (s) (entityId : JsString)

lemma windowHas_iff : s.windowHas entityId = true ↔ entityId ∈ s.windowResidents := by
  unfold windowHas windowResidents
  cases s.window with
  | none => simp
  | some window => exact window.has_iff entityId

lemma has_iff : s.has entityId = true ↔ entityId ∈ s.residents := by
  simp only [has, residents, Bool.or_eq_true, windowHas_iff, s.main.has_iff, mem_union]

variable {s}

section

variable (h : s.Sound capacity)
include h

lemma Sound.card_residents : s.residents.card = s.size := by
  rw [residents, card_union_of_disjoint h.disjoint, s.main.card_residents h.main, size,
    windowResidents]
  cases s.window with
  | none => rfl
  | some window => rw [window.card_residents]

lemma Sound.size_le : s.size ≤ capacity := by
  rw [← h.card_residents, residents]
  exact (card_union_le _ _).trans ((Nat.add_le_add h.windowSize h.mainSize).trans h.capacities)

lemma Sound.same {t : CompositePassivationStrategy}
    (hcapacities : t.windowCapacity = s.windowCapacity ∧ t.mainCapacity = s.mainCapacity)
    (hwindow : t.window.isSome = s.window.isSome)
    (hwindowResidents : t.windowResidents = s.windowResidents)
    (hmain : t.main.residents = s.main.residents ∧ t.main.Sound) : t.Sound capacity where
  capacities := by rw [hcapacities.1, hcapacities.2]; exact h.capacities
  positive := by rw [hcapacities.2]; exact h.positive
  window window hsome := by
    rw [hsome, isSome_some] at hwindow
    obtain ⟨window, hwindow⟩ := isSome_iff_exists.1 hwindow.symm
    rw [hcapacities.1]
    exact h.window window hwindow
  main := hmain.2
  disjoint := by rw [hwindowResidents, hmain.1]; exact h.disjoint
  windowSize := by rw [hwindowResidents, hcapacities.1]; exact h.windowSize
  mainSize := by rw [hmain.1, hcapacities.2]; exact h.mainSize

variable (entityId : JsString)

lemma Sound.record : (s.record entityId).Sound capacity :=
  h.same ⟨rfl, rfl⟩ rfl rfl ⟨rfl, h.main⟩

lemma Sound.touch :
    (s.touch entityId).Sound capacity ∧ (s.touch entityId).residents = s.residents := by
  unfold CompositePassivationStrategy.touch
  dsimp only
  split
  · have hwindow : ({ s.record entityId with
        window := (s.record entityId).window.map (·.touch entityId) } :
        CompositePassivationStrategy).windowResidents = s.windowResidents := by
      unfold windowResidents CompositePassivationStrategy.record
      cases s.window with
      | none => rfl
      | some window => exact window.residents_touch entityId
    refine ⟨h.same ⟨rfl, rfl⟩ (isSome_map ..) hwindow ⟨rfl, h.main⟩, ?_⟩
    rw [residents, hwindow]
    rfl
  · obtain ⟨hmain, hsound⟩ := touch_spec entityId h.main
    refine ⟨h.same ⟨rfl, rfl⟩ rfl rfl ⟨hmain, hsound⟩, ?_⟩
    exact congrArg (s.windowResidents ∪ ·) hmain

/-- A set less the victim, if there is one. -/
def without (victim : Option JsString) (residents : Finset JsString) : Finset JsString :=
  match victim with
  | some victim => residents.erase victim
  | none => residents

lemma Sound.mainChanged {main : ReplacementRegion} (hmain : main.Sound)
    (hdisjoint : Disjoint s.windowResidents main.residents)
    (hsize : main.residents.card ≤ s.mainCapacity) :
    ({ s with main := main } : CompositePassivationStrategy).Sound capacity where
  capacities := h.capacities
  positive := h.positive
  window := h.window
  main := hmain
  disjoint := hdisjoint
  windowSize := h.windowSize
  mainSize := hsize

/-- A candidate comes into the main region, and the victim goes, which is an incumbent or,
out of the window, the candidate. -/
lemma Sound.promote {candidate : JsString} (hnew : candidate ∉ s.residents) (fromWindow : Bool) :
    (s.promote candidate fromWindow).2.Sound capacity ∧
      (s.promote candidate fromWindow).2.residents =
        without (s.promote candidate fromWindow).1 (insert candidate s.residents) ∧
      ∀ v, (s.promote candidate fromWindow).1 = some v →
        v ∈ s.main.residents ∨ fromWindow = true ∧ v = candidate := by
  rw [residents, mem_union, not_or] at hnew
  unfold CompositePassivationStrategy.promote
  split
  · next hroom =>
    obtain ⟨hmain, hsound⟩ := add_spec h.main hnew.2
    rw [← ReplacementRegion.card_residents h.main] at hroom
    refine ⟨h.mainChanged hsound ?_ ?_, ?_, by simp⟩
    · rw [hmain, disjoint_insert_right]
      exact ⟨hnew.1, h.disjoint⟩
    · rw [hmain, card_insert_of_notMem hnew.2]
      exact hroom
    · change s.windowResidents ∪ (s.main.add candidate).residents = _
      rw [hmain, union_insert]
      rfl
  · next hfull =>
    rw [← ReplacementRegion.card_residents h.main] at hfull
    obtain ⟨hresident, hnone, hsame, hsound⟩ := victim_spec h.main
    split
    · next main hvictim =>
      have hempty := hnone.1 (congrArg Prod.fst hvictim)
      rw [hempty, card_empty] at hfull
      exact absurd h.positive hfull
    · next victim main hvictim =>
      obtain rfl : s.main.victim.2 = main := congrArg Prod.snd hvictim
      have hmem : victim ∈ s.main.residents := hresident victim (congrArg Prod.fst hvictim)
      have hnot : victim ∉ s.windowResidents := disjoint_right.1 h.disjoint hmem
      have hne : victim ≠ candidate := fun heq => hnew.2 (heq ▸ hmem)
      split
      · next hrefused =>
        have hwindow : fromWindow = true := by
          unfold refuses at hrefused
          split at hrefused
          · exact (Bool.and_eq_true_iff.1 hrefused).1
          · cases hrefused
        refine ⟨h.mainChanged hsound (hsame ▸ h.disjoint) (hsame ▸ h.mainSize), ?_, ?_⟩
        · change s.windowResidents ∪ s.main.victim.2.residents =
            (insert candidate s.residents).erase candidate
          rw [hsame, erase_insert]
          · rfl
          · rw [residents, mem_union, not_or]
            exact hnew
        · exact fun v hv => .inr ⟨hwindow, (Option.some.inj hv).symm⟩
      · obtain ⟨-, herased, hremoved⟩ := remove_spec victim hsound
        rw [hsame] at herased
        have hout : candidate ∉ (s.main.victim.2.remove victim).2.residents := by
          rw [herased]
          exact fun hin => hnew.2 (mem_of_mem_erase hin)
        obtain ⟨hadded, hsound⟩ := add_spec hremoved hout
        rw [herased] at hadded
        refine ⟨h.mainChanged hsound ?_ ?_, ?_, ?_⟩
        · rw [hadded, disjoint_insert_right]
          exact ⟨hnew.1, h.disjoint.mono_right (erase_subset _ _)⟩
        · rw [hadded, card_insert_of_notMem
            fun hin => hnew.2 (mem_of_mem_erase hin), card_erase_add_one hmem]
          exact h.mainSize
        · change s.windowResidents ∪ ReplacementRegion.residents _ =
            (insert candidate s.residents).erase victim
          rw [hadded, union_insert, erase_insert_of_ne hne.symm, residents,
            erase_union_distrib, erase_eq_of_notMem hnot]
        · exact fun v hv => .inl (Option.some.inj hv ▸ hmem)

lemma Sound.windowChanged {window : RecencyRegion} (hwindow : 0 < s.windowCapacity)
    (hdisjoint : Disjoint window.residents s.main.residents)
    (hsize : window.residents.card ≤ s.windowCapacity) :
    ({ s with window := some window } : CompositePassivationStrategy).Sound capacity where
  capacities := h.capacities
  positive := h.positive
  window _ _ := hwindow
  main := h.main
  disjoint := hdisjoint
  windowSize := hsize
  mainSize := h.mainSize

/-- An id is taken in, and the victim goes, which is another one that was there. -/
lemma Sound.admitEntity : (s.admitEntity entityId).2.Sound capacity ∧
      (s.admitEntity entityId).2.residents =
        without (s.admitEntity entityId).1 (insert entityId s.residents) ∧
      ∀ v, (s.admitEntity entityId).1 = some v → v ∈ s.residents ∧ v ≠ entityId := by
  unfold CompositePassivationStrategy.admitEntity
  split
  · next hhas =>
    obtain ⟨hsound, hresidents⟩ := h.touch entityId
    refine ⟨hsound, ?_, by simp⟩
    change (s.touch entityId).residents = insert entityId s.residents
    rw [hresidents, insert_eq_of_mem ((s.has_iff entityId).1 hhas)]
  · next hhas =>
    have hnew : entityId ∉ s.residents := fun hmem => hhas ((s.has_iff entityId).2 hmem)
    have hparts := hnew
    rw [residents, mem_union, not_or] at hparts
    dsimp only
    split
    · obtain ⟨hsound, hresidents, hvictim⟩ := (h.record entityId).promote hnew false
      refine ⟨hsound, hresidents, fun v hv => ?_⟩
      have hmem : v ∈ s.main.residents := (hvictim v hv).resolve_right (by simp)
      exact ⟨mem_union_right _ hmem, fun heq => hparts.2 (heq ▸ hmem)⟩
    · next window hwindow =>
      have hwindow : s.window = some window := hwindow
      have hwindowResidents : s.windowResidents = window.residents := by
        rw [windowResidents, hwindow]
      have hpositive := h.window window hwindow
      have hsize := h.windowSize
      have hdisjoint := h.disjoint
      rw [hwindowResidents] at hsize hdisjoint hparts
      split
      · next hroom =>
        rw [← RecencyRegion.card_residents, window.residents_add] at hroom
        refine ⟨(h.record entityId).windowChanged hpositive ?_ ?_, ?_, by simp⟩
        · rw [window.residents_add, disjoint_insert_left]
          exact ⟨hparts.2, hdisjoint⟩
        · rw [window.residents_add]
          exact hroom
        · change (window.add entityId).residents ∪ s.main.residents = insert entityId s.residents
          rw [window.residents_add, insert_union, residents, hwindowResidents]
      · next hfull =>
        have hfull : s.windowCapacity < (window.add entityId).residents.card := by
          rw [RecencyRegion.card_residents]
          exact not_le.1 hfull
        split
        · next hnone =>
          rw [(window.add entityId).victim_eq_none_iff.1 hnone] at hfull
          exact absurd hfull (by simp)
        · next candidate hcandidate =>
          have hmem := (window.add entityId).mem_of_victim hcandidate
          have hne : candidate ≠ entityId :=
            window.victim_add_ne entityId hcandidate (by
              rw [← RecencyRegion.card_residents]
              exact (succ_le_of_lt hpositive).trans_lt hfull)
          have hold : candidate ∈ window.residents := by
            rw [window.residents_add] at hmem
            exact mem_of_mem_insert_of_ne hmem hne
          have hleft : ((window.add entityId).remove candidate).2.residents =
              (insert entityId window.residents).erase candidate := by
            rw [RecencyRegion.residents_remove, window.residents_add]
          have hleftDisjoint : Disjoint
              ((window.add entityId).remove candidate).2.residents s.main.residents := by
            rw [hleft]
            refine Disjoint.mono_left (erase_subset _ _) ?_
            rw [disjoint_insert_left]
            exact ⟨hparts.2, hdisjoint⟩
          have hleftSize : ((window.add entityId).remove candidate).2.residents.card ≤
              s.windowCapacity := by
            rw [hleft, card_erase_of_mem (mem_insert_of_mem hold),
              card_insert_of_notMem hparts.1, Nat.add_sub_cancel]
            exact hsize
          have hslid := (h.record entityId).windowChanged hpositive hleftDisjoint hleftSize
          have hresidents : ∀ t : CompositePassivationStrategy,
              t.windowResidents = ((window.add entityId).remove candidate).2.residents →
              t.main = s.main → insert candidate t.residents = insert entityId s.residents
              := by
            intro t hwindow hmain
            rw [residents, residents, hwindow, hmain, hleft, hwindowResidents,
              ← insert_union, insert_erase (mem_insert_of_mem hold),
              insert_union]
          have hout : candidate ∉ ({ s.record entityId with
              window := some ((window.add entityId).remove candidate).2 } :
              CompositePassivationStrategy).residents := by
            rw [residents, mem_union, not_or]
            refine ⟨?_, disjoint_left.1 hdisjoint hold⟩
            change candidate ∉ ((window.add entityId).remove candidate).2.residents
            rw [hleft]
            exact notMem_erase _ _
          obtain ⟨hsound, hpromoted, hvictim⟩ := hslid.promote hout true
          refine ⟨hsound, hpromoted.trans (congrArg _ (hresidents _ rfl rfl)), fun v hv => ?_⟩
          rcases hvictim v hv with hmain | ⟨-, rfl⟩
          · exact ⟨mem_union_right _ hmain, fun heq => hparts.2 (heq ▸ hmain)⟩
          · exact ⟨mem_union_left _ (hwindowResidents ▸ hold), hne⟩

lemma Sound.remove : (s.remove entityId).2.Sound capacity ∧
      (s.remove entityId).2.residents = s.residents.erase entityId := by
  obtain ⟨-, herased, hsound⟩ := remove_spec entityId h.main
  have hmainSize : (s.main.remove entityId).2.residents.card ≤ s.mainCapacity := by
    rw [herased]
    exact (card_erase_le).trans h.mainSize
  cases hwindow : s.window with
  | none =>
    have hremove : (s.remove entityId).2 = { s with main := (s.main.remove entityId).2 } := by
      unfold CompositePassivationStrategy.remove
      rw [hwindow]
      rfl
    rw [hremove]
    have hempty : s.windowResidents = ∅ := by rw [windowResidents, hwindow]
    refine ⟨h.mainChanged hsound ?_ hmainSize, ?_⟩
    · rw [hempty]
      exact disjoint_empty_left _
    · change s.windowResidents ∪ (s.main.remove entityId).2.residents = _
      rw [herased, residents, hempty, empty_union, empty_union]
  | some window =>
    have hwindowResidents : s.windowResidents = window.residents := by
      rw [windowResidents, hwindow]
    have hpositive := h.window window hwindow
    have hsize := h.windowSize
    have hdisjoint := h.disjoint
    rw [hwindowResidents] at hsize hdisjoint
    have hleftSize : (window.remove entityId).2.residents.card ≤ s.windowCapacity := by
      rw [window.residents_remove]
      exact (card_erase_le).trans hsize
    have hleftDisjoint : Disjoint (window.remove entityId).2.residents s.main.residents := by
      rw [window.residents_remove]
      exact hdisjoint.mono_left (erase_subset _ _)
    cases hheld : window.remove entityId with
    | mk held left =>
    obtain ⟨hhas, hleft⟩ := RecencyRegion.of_remove_eq hheld
    rw [hheld] at hleftSize hleftDisjoint
    cases held with
    | true =>
      have hremove : (s.remove entityId).2 = { s with window := some left } := by
        unfold CompositePassivationStrategy.remove
        rw [hwindow, map_some, hheld]
      rw [hremove]
      have hmem : entityId ∈ window.residents := (window.has_iff entityId).1 hhas
      refine ⟨h.windowChanged hpositive hleftDisjoint hleftSize, ?_⟩
      change left.residents ∪ s.main.residents = _
      rw [hleft, residents, hwindowResidents, erase_union_distrib,
        erase_eq_of_notMem (s := s.main.residents) (disjoint_left.1 hdisjoint hmem)]
    | false =>
      have hremove : (s.remove entityId).2 =
          { s with window := some left, main := (s.main.remove entityId).2 } := by
        unfold CompositePassivationStrategy.remove
        rw [hwindow, map_some, hheld]
      rw [hremove]
      refine ⟨(h.windowChanged hpositive hleftDisjoint hleftSize).mainChanged hsound ?_
        hmainSize, ?_⟩
      · change Disjoint left.residents _
        rw [herased]
        exact hleftDisjoint.mono_right (erase_subset _ _)
      · change left.residents ∪ (s.main.remove entityId).2.residents = _
        rw [hleft, herased, residents, hwindowResidents, erase_union_distrib]

end

lemma windowCapacity_add_mainCapacity_le (hcapacity : 1 ≤ config.capacity) :
    config.windowCapacity + config.mainCapacity ≤ config.capacity := by
  have hwindow : config.windowCapacity ≤ config.capacity - 1 := by
    unfold PassivationStrategyConfig.windowCapacity
    split
    · exact min_le_left _ _
    · exact zero_le _
  unfold PassivationStrategyConfig.mainCapacity
  omega

lemma Sound.ofConfig (hcapacity : 1 ≤ config.capacity) :
    (ofConfig config).Sound config.capacity ∧ (ofConfig config).residents = ∅ := by
  obtain ⟨hmain, hsound⟩ := config.buildMainRegion_spec
  have hwindow : (CompositePassivationStrategy.ofConfig config).windowResidents = ∅ := by
    unfold windowResidents CompositePassivationStrategy.ofConfig
    dsimp only
    split
    · next window h =>
      split at h
      · obtain rfl : {} = window := some.inj h
        rfl
      · cases h
    · rfl
  refine ⟨⟨windowCapacity_add_mainCapacity_le hcapacity,
    lt_of_lt_of_le one_pos (le_max_left 1 _), ?_, hsound, ?_, ?_, ?_⟩,
    ?_⟩
  · intro window h
    change (if _ then _ else _) = _ at h
    split at h
    · assumption
    · cases h
  · rw [hwindow]
    exact disjoint_empty_left _
  · rw [hwindow]
    exact zero_le _
  · change config.buildMainRegion.residents.card ≤ _
    rw [hmain]
    exact zero_le _
  · change _ ∪ config.buildMainRegion.residents = _
    rw [hwindow, hmain, empty_union]

/-- A call of the strategy. -/
inductive Call where
  | touch (entityId : JsString)
  | admitEntity (entityId : JsString)
  | remove (entityId : JsString)

def call (s : CompositePassivationStrategy) : Call → CompositePassivationStrategy
  | .touch entityId => s.touch entityId
  | .admitEntity entityId => (s.admitEntity entityId).2
  | .remove entityId => (s.remove entityId).2

/-- What happened in a call: the call, and whom it answered to evict. -/
def history (s : CompositePassivationStrategy) : Call → List (Call × Option JsString)
  | .admitEntity entityId => [(.admitEntity entityId, (s.admitEntity entityId).1)]
  | call => [(call, none)]

/-- The residents by the history: admitted, less the victims, less the removed. -/
def replay (residents : Finset JsString) : Call × Option JsString → Finset JsString
  | (.touch _, _) => residents
  | (.admitEntity entityId, victim) => without victim (insert entityId residents)
  | (.remove entityId, _) => residents.erase entityId

lemma Sound.call (h : s.Sound capacity) (call : Call) :
    (s.call call).Sound capacity ∧
      (s.call call).residents = (s.history call).foldl replay s.residents := by
  cases call with
  | touch entityId => exact h.touch entityId
  | admitEntity entityId =>
    obtain ⟨hsound, hresidents, -⟩ := h.admitEntity entityId
    exact ⟨hsound, hresidents⟩
  | remove entityId => exact h.remove entityId

/-- A strategy with room for one entity at least holds no more than it has room for, each in
one place, gives up others only, and holds whom its history says. -/
theorem cap_respected (config : PassivationStrategyConfig) (hcapacity : 1 ≤ config.capacity)
    (calls : List Call) :
    ∃ start, createPassivationStrategy config = some start ∧
      let s := run call start calls
      s.size ≤ config.capacity ∧
      (∀ entityId, s.has entityId = true →
        Xor (s.windowHas entityId = true) (s.main.has entityId = true)) ∧
      (∀ r, s.main = .segmented r → ∀ entityId, r.has entityId = true →
        Xor (r.probation.has entityId = true) (r.protectedEntities.has entityId = true)) ∧
      (∀ entityId v, (s.admitEntity entityId).1 = some v → s.has v = true ∧ v ≠ entityId) ∧
      ∀ entityId, s.has entityId = true ↔
        entityId ∈ (log call history start calls).foldl replay ∅ := by
  obtain ⟨hstart, hempty⟩ := Sound.ofConfig hcapacity
  refine ⟨ofConfig config, if_neg (one_le_iff_ne_zero.1 hcapacity), ?_⟩
  let holds (past : List (Call × Option JsString)) (s : CompositePassivationStrategy) : Prop :=
    s.Sound config.capacity ∧ s.residents = past.foldl replay ∅
  obtain ⟨h, hresidents⟩ : holds ([] ++ log call history (ofConfig config) calls)
      (run call (ofConfig config) calls) :=
    invariant_log (P := fun _ _ => True) (fun past s call _ hs => by
      obtain ⟨hsound, hresidents⟩ := hs.1.call call
      exact ⟨hsound, by rw [hresidents, hs.2, List.foldl_append]⟩)
      along_true ⟨hstart, hempty⟩
  refine ⟨h.size_le, fun entityId hhas => ?_, fun r hr entityId hhas => ?_,
    fun entityId v hv => ?_, fun entityId => ?_⟩
  · rw [windowHas_iff, ReplacementRegion.has_iff]
    rcases mem_union.1 ((has_iff _ entityId).1 hhas) with hmem | hmem
    · exact .inl ⟨hmem, disjoint_left.1 h.disjoint hmem⟩
    · exact .inr ⟨hmem, disjoint_right.1 h.disjoint hmem⟩
  · have hsound : (segmented r).Sound := hr ▸ h.main
    rw [RecencyRegion.has_iff, RecencyRegion.has_iff]
    rcases mem_union.1 ((r.has_iff entityId).1 hhas) with hmem | hmem
    · exact .inl ⟨hmem, disjoint_left.1 hsound hmem⟩
    · exact .inr ⟨hmem, disjoint_right.1 hsound hmem⟩
  · obtain ⟨hmem, hne⟩ := (h.admitEntity entityId).2.2 v hv
    exact ⟨(has_iff _ v).2 hmem, hne⟩
  · rw [has_iff, hresidents, List.nil_append]

/-- A window of one entity in front of a segmented region of another one. -/
def windowedConfig : PassivationStrategyConfig where
  capacity := 2
  replacement := .segmentedLeastRecentlyUsed
  admissionWindowProportion := 1 / 2
  admissionFilter := .frequencySketch

theorem cap_respected_windowed : ∃ start, createPassivationStrategy windowedConfig = some start ∧
      (run call start [.admitEntity "a", .admitEntity "b", .admitEntity "c"]).size ≤ 2 := by
  obtain ⟨start, hstart, hsize, -⟩ := cap_respected windowedConfig (by decide)
    [.admitEntity "a", .admitEntity "b", .admitEntity "c"]
  exact ⟨start, hstart, hsize⟩

end CompositePassivationStrategy

end ActorTs.Cluster.Sharding
