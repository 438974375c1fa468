import ActorTs.Cluster.Sharding.PassivationCap

/-!
# A scan through a segmented region

The protected segment of a main region leaves a slot to the probationary one. A full region
has somebody on probation, and gives up that one: a scan of ids that are used once passes the
protected segment by.
-/

open Nat Finset

namespace ActorTs.Cluster.Sharding

open Machine SegmentedRecencyRegion RecencyRegion

namespace SegmentedRecencyRegion

variable {r : SegmentedRecencyRegion}

/-- The protected segment is within its capacity, which does not change. -/
def Bounded (bound : ℕ) (r : SegmentedRecencyRegion) : Prop :=
  r.protectedCapacity = bound ∧ r.protectedEntities.size ≤ bound

lemma bounded_demote (rounds : ℕ) (h : r.protectedEntities.size ≤ r.protectedCapacity + rounds) :
    (r.demote rounds).Bounded r.protectedCapacity := by
  induction rounds generalizing r with
  | zero => exact ⟨rfl, h⟩
  | succ rounds ih =>
    rw [demote]
    split
    · split
      · next hnone =>
        refine ⟨rfl, ?_⟩
        rw [← RecencyRegion.card_residents, (RecencyRegion.victim_eq_none_iff _).1 hnone]
        exact zero_le _
      · next demoted hdemoted =>
        refine ih (r := { r with
          protectedEntities := (r.protectedEntities.remove demoted).2
          probation := r.probation.add demoted }) ?_
        have hmem := r.protectedEntities.mem_of_victim hdemoted
        rw [← RecencyRegion.card_residents, residents_remove,
          card_erase_of_mem hmem, RecencyRegion.card_residents]
        exact sub_le_of_le_add h
    · next hroom => exact ⟨rfl, not_lt.1 hroom⟩

variable {bound : ℕ} (h : r.Bounded bound) (entityId : JsString)
include h

lemma Bounded.touch : (r.touch entityId).Bounded bound := by
  obtain ⟨rfl, hsize⟩ := h
  rw [touch]
  split
  · refine ⟨rfl, ?_⟩
    rw [← RecencyRegion.card_residents, RecencyRegion.residents_touch, RecencyRegion.card_residents]
    exact hsize
  · split
    · exact ⟨rfl, hsize⟩
    · exact bounded_demote _ (Nat.le_add_left ..)

lemma Bounded.remove : (r.remove entityId).2.Bounded bound := by
  rw [SegmentedRecencyRegion.remove]
  split
  · exact h
  · refine ⟨h.1, ?_⟩
    rw [← RecencyRegion.card_residents, residents_remove]
    exact card_erase_le.trans ((RecencyRegion.card_residents _).trans_le h.2)

omit h entityId

/-- Where the ids are more than the protected ones, one of them is on probation. -/
lemma victim_on_probation (h : r.protectedEntities.size < r.size) :
    ∃ v ∈ r.probation.residents, r.victim = some v ∧
      (r.remove v).2.protectedEntities = r.protectedEntities := by
  cases hv : r.probation.victim with
  | none =>
    have hempty : r.probation.size = 0 := by
      rw [← RecencyRegion.card_residents, (RecencyRegion.victim_eq_none_iff _).1 hv]
      rfl
    rw [size, hempty, zero_add] at h
    exact absurd h (lt_irrefl _)
  | some v =>
    have hmem := RecencyRegion.mem_of_victim _ hv
    refine ⟨v, hmem, by rw [victim, hv, Option.some_or], ?_⟩
    have hheld : (r.probation.remove v).1 = true := (RecencyRegion.has_iff _ v).2 hmem
    rw [remove]
    split
    · rfl
    · next heq =>
      rw [heq] at hheld
      cases hheld

end SegmentedRecencyRegion

namespace CompositePassivationStrategy

variable {s : CompositePassivationStrategy} {P : ReplacementRegion → Prop}

/-- An admission of an id that is not there leaves the main region alone, or promotes. -/
lemma admitEntity_cases {entityId : JsString} (hnew : s.has entityId = false) :
    (s.admitEntity entityId).2.main = s.main ∧
        (s.admitEntity entityId).2.mainCapacity = s.mainCapacity ∨
      ∃ (t : CompositePassivationStrategy) (candidate : JsString) (fromWindow : Bool),
        s.admitEntity entityId = t.promote candidate fromWindow ∧ t.main = s.main ∧
          t.mainCapacity = s.mainCapacity := by
  rw [admitEntity, if_neg (by rw [hnew]; exact Bool.false_ne_true)]
  dsimp only
  split
  · exact .inr ⟨_, _, _, rfl, rfl, rfl⟩
  · split
    · exact .inl ⟨rfl, rfl⟩
    · split
      · exact .inl ⟨rfl, rfl⟩
      · exact .inr ⟨_, _, _, rfl, rfl, rfl⟩

section

variable (hadd : ∀ main entityId, P main → P (main.add entityId))
  (hremove : ∀ main entityId, P main → P (main.remove entityId).2)
  (hvictim : ∀ main, P main → P main.victim.2)
include hadd hremove hvictim

lemma main_promote (h : P s.main) (candidate : JsString) (fromWindow : Bool) :
    P (s.promote candidate fromWindow).2.main ∧
      (s.promote candidate fromWindow).2.mainCapacity = s.mainCapacity := by
  have hmain := hvictim _ h
  rw [promote]
  split
  · exact ⟨hadd _ _ h, rfl⟩
  · split
    · next heq => exact ⟨hadd _ _ (by rw [heq] at hmain; exact hmain), rfl⟩
    · next heq =>
      rw [heq] at hmain
      split
      · exact ⟨hmain, rfl⟩
      · exact ⟨hadd _ _ (hremove _ _ hmain), rfl⟩

/-- What every change of the main region keeps, every call keeps. -/
lemma main_call (htouch : ∀ main entityId, P main → P (main.touch entityId))
    (h : P s.main) (c : Call) :
    P (s.call c).main ∧ (s.call c).mainCapacity = s.mainCapacity := by
  have htouched (entityId : JsString) :
      P (s.touch entityId).main ∧ (s.touch entityId).mainCapacity = s.mainCapacity := by
    rw [touch]
    split
    · exact ⟨h, rfl⟩
    · exact ⟨htouch _ _ h, rfl⟩
  cases c with
  | touch entityId => exact htouched entityId
  | admitEntity entityId =>
    change P (s.admitEntity entityId).2.main ∧ (s.admitEntity entityId).2.mainCapacity = _
    cases hhas : s.has entityId with
    | true =>
      rw [admitEntity, if_pos hhas]
      exact htouched entityId
    | false =>
      obtain ⟨hmain, hcapacity⟩ | ⟨t, candidate, fromWindow, heq, hmain, hcapacity⟩ :=
        admitEntity_cases hhas
      · exact ⟨hmain ▸ h, hcapacity⟩
      · rw [heq, ← hcapacity]
        exact main_promote hadd hremove hvictim (hmain ▸ h) candidate fromWindow
  | remove entityId =>
    change P (s.remove entityId).2.main ∧ (s.remove entityId).2.mainCapacity = _
    rw [remove]
    split
    · exact ⟨h, rfl⟩
    · exact ⟨hremove _ _ h, rfl⟩
    · exact ⟨hremove _ _ h, rfl⟩

end

/-- A segmented main region within its bound. -/
def Segmented (bound : ℕ) (main : ReplacementRegion) : Prop :=
  ∃ r, main = .segmented r ∧ r.Bounded bound

lemma segmented_call {bound : ℕ} (h : Segmented bound s.main) (c : Call) :
    Segmented bound (s.call c).main ∧ (s.call c).mainCapacity = s.mainCapacity := by
  refine main_call ?_ ?_ ?_ ?_ h c
  · rintro _ entityId ⟨r, rfl, hr⟩
    exact ⟨_, rfl, hr⟩
  · rintro _ entityId ⟨r, rfl, hr⟩
    exact ⟨_, rfl, hr.remove entityId⟩
  · rintro _ ⟨r, rfl, hr⟩
    exact ⟨r, rfl, hr⟩
  · rintro _ entityId ⟨r, rfl, hr⟩
    exact ⟨_, rfl, hr.touch entityId⟩

/-- The admission of an id that is not there, and whom it evicts. -/
def scanStep (s : CompositePassivationStrategy) (entityId : JsString) :
    CompositePassivationStrategy := (s.admitEntity entityId).2

def evicted (s : CompositePassivationStrategy) (entityId : JsString) : List JsString :=
  (s.admitEntity entityId).1.toList

variable {r : SegmentedRecencyRegion}

/-- Whom a promotion takes out of a full main region is on probation, so that the protected
segment stays as it is. -/
lemma protected_promote (hr : s.main = .segmented r)
    (hbound : r.protectedEntities.size < s.mainCapacity) (candidate : JsString)
    (fromWindow : Bool) :
    ∃ r', (s.promote candidate fromWindow).2.main = .segmented r' ∧
      r'.protectedEntities = r.protectedEntities := by
  rw [promote, hr]
  split
  · exact ⟨r.add candidate, rfl, rfl⟩
  · next hfull =>
    obtain ⟨v, -, hv, hprotected⟩ :=
      victim_on_probation (hbound.trans_le (not_lt.1 hfull))
    simp only [ReplacementRegion.victim, hv]
    split
    · exact ⟨r, rfl, rfl⟩
    · exact ⟨_, rfl, hprotected⟩

lemma protected_admit (hr : s.main = .segmented r)
    (hbound : r.protectedEntities.size < s.mainCapacity) {entityId : JsString}
    (hnew : s.has entityId = false) :
    ∃ r', (s.scanStep entityId).main = .segmented r' ∧
      r'.protectedEntities = r.protectedEntities := by
  rw [scanStep]
  obtain ⟨hmain, -⟩ | ⟨t, candidate, fromWindow, heq, hmain, hcapacity⟩ := admitEntity_cases hnew
  · exact ⟨r, hmain.trans hr, rfl⟩
  · rw [heq]
    exact protected_promote (hmain.trans hr) (hcapacity.symm ▸ hbound) candidate fromWindow

/-- A scan leaves the protected segment as it is, and evicts none of it. -/
lemma protected_scan {capacity bound : ℕ} (h : s.Sound capacity) (hr : s.main = .segmented r)
    (hbounded : r.Bounded bound) (hbound : bound < s.mainCapacity) {ids : List JsString}
    (hnew : Machine.Along scanStep (fun s entityId => s.has entityId = false) s ids) :
    (∃ r', (run scanStep s ids).main = .segmented r' ∧
      r'.protectedEntities = r.protectedEntities) ∧
      ∀ v ∈ log scanStep evicted s ids, v ∉ r.protectedEntities.residents := by
  induction ids generalizing s r with
  | nil => exact ⟨⟨r, hr, rfl⟩, by simp⟩
  | cons entityId ids ih =>
    obtain ⟨r', hr', hsame⟩ := protected_admit hr (hbounded.2.trans_lt hbound) hnew.1
    obtain ⟨hsound, hresidents, -⟩ := h.admitEntity entityId
    obtain ⟨⟨r'', hmain, hbounded'⟩, hcapacity⟩ :=
      segmented_call ⟨r, hr, hbounded⟩ (.admitEntity entityId)
    obtain rfl : r' = r'' := ReplacementRegion.segmented.inj (hr'.symm.trans hmain)
    obtain ⟨⟨last, hlast, hprotected⟩, hrest⟩ :=
      ih hsound hr' hbounded' (hcapacity.symm ▸ hbound) hnew.2
    refine ⟨⟨last, hlast, hprotected.trans hsame⟩, fun v hv => ?_⟩
    rw [Machine.log_cons, List.mem_append, evicted, Option.mem_toList] at hv
    obtain hv | hv := hv
    · intro hin
      have hmem : v ∈ (s.admitEntity entityId).2.residents := by
        refine mem_union_right _ ?_
        change v ∈ (s.scanStep entityId).main.residents
        rw [hr']
        exact mem_union_right _ (hsame ▸ hin)
      rw [hresidents, hv] at hmem
      exact notMem_erase _ _ hmem
    · rw [← hsame]
      exact hrest v hv

/-- A main region that is full gives up somebody on probation, and the ids of a scan, which
are not there when they are admitted, leave the protected segment as it is. -/
theorem segmented_scan_resistant (config : PassivationStrategyConfig)
    (hcapacity : 1 ≤ config.capacity)
    (hpolicy : config.replacement = .segmentedLeastRecentlyUsed) (calls : List Call) :
    ∃ start, createPassivationStrategy config = some start ∧
      let s := run CompositePassivationStrategy.call start calls
      ∃ r, s.main = .segmented r ∧
        r.protectedEntities.size ≤ r.protectedCapacity ∧ r.protectedCapacity < s.mainCapacity ∧
        (s.mainCapacity ≤ s.main.size →
          ∃ v ∈ r.probation.residents, v ∉ r.protectedEntities.residents ∧
            s.main.victim.1 = some v) ∧
        ∀ ids, Machine.Along scanStep (fun s entityId => s.has entityId = false) s ids →
          (∃ r', (run scanStep s ids).main = .segmented r' ∧
            r'.protectedEntities = r.protectedEntities) ∧
          ∀ v ∈ log scanStep evicted s ids, v ∉ r.protectedEntities.residents := by
  obtain ⟨hstart, -⟩ := Sound.ofConfig hcapacity
  refine ⟨ofConfig config, if_neg (one_le_iff_ne_zero.1 hcapacity), ?_⟩
  have hsmall : config.protectedCapacity < config.mainCapacity :=
    (min_le_left ..).trans_lt (Nat.sub_lt (le_max_left 1 _) Nat.one_pos)
  obtain ⟨h, ⟨r, hr, hbounded⟩, hcapacities⟩ := invariant (P := fun _ _ => True)
    (I := fun (s : CompositePassivationStrategy) => s.Sound config.capacity ∧
      Segmented config.protectedCapacity s.main ∧ s.mainCapacity = config.mainCapacity)
    (fun s c _ hs => by
      obtain ⟨hmain, hcapacity⟩ := segmented_call hs.2.1 c
      exact ⟨(hs.1.call c).1, hmain, hcapacity.trans hs.2.2⟩)
    (show Machine.Along _ _ _ calls from along_true) ⟨hstart, ⟨_, by
      rw [ofConfig, PassivationStrategyConfig.buildMainRegion, hpolicy], rfl, zero_le _⟩, rfl⟩
  have hbound := hsmall.trans_eq hcapacities.symm
  refine ⟨r, hr, hbounded.1.symm ▸ hbounded.2, hbounded.1.trans_lt hbound, fun hfull => ?_,
    fun ids hnew => protected_scan h hr hbounded hbound hnew⟩
  rw [hr] at hfull ⊢
  obtain ⟨v, hmem, hv, -⟩ :=
    victim_on_probation (hbounded.2.trans_lt (hbound.trans_le hfull))
  have hsound : (ReplacementRegion.segmented r).Sound := hr ▸ h.main
  exact ⟨v, hmem, disjoint_left.1 hsound hmem, hv⟩

/-- One id is protected, and another one comes by. -/
theorem segmented_scan_resistant_two :
    ∃ start, createPassivationStrategy
        ⟨2, .segmentedLeastRecentlyUsed, 4 / 5, 0, .off⟩ = some start ∧
      log scanStep evicted (run CompositePassivationStrategy.call start
        [.admitEntity "a".toJs, .touch "a".toJs, .admitEntity "b".toJs]) ["c".toJs] =
          ["b".toJs] := by
  obtain ⟨start, hstart, -⟩ := segmented_scan_resistant
    ⟨2, .segmentedLeastRecentlyUsed, 4 / 5, 0, .off⟩ (by decide) rfl
    [.admitEntity "a".toJs, .touch "a".toJs, .admitEntity "b".toJs]
  cases hstart
  exact ⟨_, rfl, by decide +kernel⟩

end CompositePassivationStrategy
end ActorTs.Cluster.Sharding
