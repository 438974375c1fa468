import ActorTs.Cluster.Sharding.ReplacementRegions
import ActorTs.Library.Machine

/-!
# The counts of a frequency region

A reference count is one for a new id, one more for each use, and is halved when the region
ages, but is one at least. The counts of a region are the reference counts as long as no
count has grown beyond what a shift of 32 bits halves, and the victim is an id with the least
of them.
-/

namespace ActorTs.Cluster.Sharding

lemma halve_of_lt {count : ℕ} (h : count < 2 ^ 31) : halve count = max 1 (count / 2) := by
  have hnat : (BitVec.ofNat 32 count).toNat = count :=
    Nat.mod_eq_of_lt (h.trans (by norm_num))
  have hint : (BitVec.ofNat 32 count).toInt = count := by
    rw [BitVec.toInt_eq_toNat_of_lt (by rw [hnat]; omega), hnat]
  rw [halve, BitVec.toInt_sshiftRight, hint, Int.shiftRight_eq_div_pow]
  congr 1

namespace FrequencyRegion

variable {r : FrequencyRegion}

inductive Op where
  | add (entityId : JsString)
  | touch (entityId : JsString)
  | remove (entityId : JsString)
  | victim

def op (r : FrequencyRegion) : Op → FrequencyRegion
  | .add entityId => r.add entityId
  | .touch entityId => r.touch entityId
  | .remove entityId => (r.remove entityId).2
  | .victim => r.victim.2

/-- What the counts ought to be; an id that is not there has none. -/
structure Reference where
  counts : JsString → Option ℕ := fun _ => none
  accesses : ℕ := 0

namespace Reference

def put (c : Reference) (entityId : JsString) (count : Option ℕ) : Reference :=
  { c with counts := Function.update c.counts entityId count }

/-- The id that a call uses, and the count that it has then. -/
def used (c : Reference) : Op → Option (JsString × ℕ)
  | .add entityId => some (entityId, (c.counts entityId).elim 1 (· + 1))
  | .touch entityId => (c.counts entityId).map fun count => (entityId, count + 1)
  | .remove _ | .victim => none

variable (half : ℕ → ℕ) (agingPeriod : ℕ)

/-- The last use of a period ages. -/
def access (c : Reference) : Reference :=
  if c.accesses + 1 < agingPeriod then { c with accesses := c.accesses + 1 }
  else ⟨fun entityId => (c.counts entityId).map half, 0⟩

def op (c : Reference) (o : Op) : Reference :=
  match c.used o, o with
  | some (entityId, count), _ => (c.put entityId (some count)).access half agingPeriod
  | none, .remove entityId => c.put entityId none
  | none, _ => c

/-- The counts that an aging step of a call finds are all of a kind. -/
def Finds (P : ℕ → Prop) (c : Reference) (o : Op) : Prop :=
  ∀ used ∈ c.used o, agingPeriod ≤ c.accesses + 1 →
    ∀ entityId count, (c.put used.1 (some used.2)).counts entityId = some count → P count

end Reference

/-- The region holds the counts of its reference. -/
structure Agrees (agingPeriod : ℕ) (r : FrequencyRegion) (c : Reference) : Prop where
  period : r.agingPeriod = agingPeriod
  counts : ∀ entityId, r.counts.get? entityId = c.counts entityId
  accesses : r.accesses = c.accesses

variable {half : ℕ → ℕ} {agingPeriod : ℕ} {c : Reference}

lemma Agrees.put (h : Agrees agingPeriod r c) {moved : FrequencyRegion} {entityId : JsString}
    {count : ℕ} (hcounts : moved.counts = r.counts.set entityId count)
    (hperiod : moved.agingPeriod = r.agingPeriod) (haccesses : moved.accesses = r.accesses) :
    Agrees agingPeriod moved (c.put entityId (some count)) where
  period := hperiod.trans h.period
  accesses := haccesses.trans h.accesses
  counts other := by
    rw [hcounts, OrderedMap.get?_set, h.counts]
    exact ((Function.update_apply ..).trans (by simp only [eq_comm])).symm

lemma Agrees.afterAccess (h : Agrees agingPeriod r c) (hfinds : agingPeriod ≤ c.accesses + 1 →
      ∀ entityId count, c.counts entityId = some count → halve count = half count) :
    Agrees agingPeriod r.afterAccess (c.access half agingPeriod) := by
  have hiff : r.accesses + 1 < r.agingPeriod ↔ c.accesses + 1 < agingPeriod := by
    rw [h.accesses, h.period]
  rw [Reference.access, FrequencyRegion.afterAccess]
  by_cases hlt : c.accesses + 1 < agingPeriod
  · rw [if_pos hlt, if_pos (hiff.2 hlt)]
    exact ⟨h.period, h.counts, congrArg (· + 1) h.accesses⟩
  · rw [if_neg hlt, if_neg (mt hiff.1 hlt)]
    refine ⟨h.period, fun entityId => ?_, rfl⟩
    refine (OrderedMap.get?_mapValues ..).trans ?_
    rw [h.counts]
    exact Option.map_congr fun count hcount => hfinds (not_lt.1 hlt) entityId count hcount

/-- A use is an access of a region that has given the id its count. -/
lemma Agrees.used (h : Agrees agingPeriod r c) {o : Op} {entityId : JsString} {count : ℕ}
    (hused : c.used o = some (entityId, count)) : ∃ moved : FrequencyRegion,
      r.op o = moved.afterAccess ∧ Agrees agingPeriod moved (c.put entityId (some count)) := by
  have htouch {old : ℕ} (hold : c.counts entityId = some old) : ∃ moved : FrequencyRegion,
      r.touch entityId = moved.afterAccess ∧
        Agrees agingPeriod moved (c.put entityId (some (old + 1))) := by
    refine ⟨r.moveBucket entityId old (old + 1), ?_, ?_⟩
    · rw [touch, h.counts, hold]
    · have hmove : (r.moveBucket entityId old (old + 1)).counts = r.counts.set entityId (old + 1) ∧
            (r.moveBucket entityId old (old + 1)).agingPeriod = r.agingPeriod ∧
              (r.moveBucket entityId old (old + 1)).accesses = r.accesses := by
        rw [moveBucket]
        dsimp only
        split <;> exact ⟨rfl, rfl, rfl⟩
      exact h.put hmove.1 hmove.2.1 hmove.2.2
  cases o with
  | add other =>
    cases hused
    change ∃ moved, r.add entityId = _ ∧ _
    have hhas : r.counts.has entityId = (c.counts entityId).isSome :=
      congrArg Option.isSome (h.counts entityId)
    cases hold : c.counts entityId with
    | some old =>
      rw [add, hhas, hold]
      exact htouch hold
    | none =>
      rw [add, hhas, hold]
      exact ⟨_, rfl, h.put rfl rfl rfl⟩
  | touch other =>
    obtain ⟨old, hold, heq⟩ := Option.map_eq_some_iff.1 hused
    cases heq
    exact htouch hold
  | remove other => cases hused
  | victim => cases hused

lemma Agrees.op (h : Agrees agingPeriod r c) (o : Op)
    (hfinds : c.Finds agingPeriod (fun n => halve n = half n) o) :
    Agrees agingPeriod (r.op o) (c.op half agingPeriod o) := by
  cases hused : c.used o with
  | some used =>
    obtain ⟨moved, hop, hmoved⟩ := h.used hused
    unfold Reference.op
    rw [hused, hop]
    exact hmoved.afterAccess (hfinds used hused)
  | none =>
    unfold Reference.op
    rw [hused]
    cases o with
    | add entityId => cases hused
    | touch entityId =>
      change Agrees agingPeriod (r.touch entityId) c
      rw [touch, h.counts, Option.map_eq_none_iff.1 hused]
      exact h
    | remove entityId =>
      change Agrees agingPeriod (r.remove entityId).2 (c.put entityId none)
      rw [remove]
      split
      · next hnone =>
        refine ⟨h.period, fun other => ?_, h.accesses⟩
        rw [h.counts] at hnone ⊢
        exact (congrFun (Function.update_eq_self_iff.2 hnone.symm) other).symm
      · refine ⟨h.period, fun other => ?_, h.accesses⟩
        refine (OrderedMap.get?_delete ..).trans ?_
        rw [h.counts]
        exact ((Function.update_apply ..).trans (by simp only [eq_comm])).symm
    | victim =>
      have hsame : r.victim.2.agingPeriod = r.agingPeriod ∧
          r.victim.2.counts = r.counts ∧ r.victim.2.accesses = r.accesses := by
        rw [victim]
        split
        · exact ⟨rfl, rfl, rfl⟩
        · split
          · exact ⟨rfl, rfl, rfl⟩
          · split <;> exact ⟨rfl, rfl, rfl⟩
      exact ⟨hsame.1.trans h.period, fun entityId => by rw [FrequencyRegion.op, hsame.2.1, h.counts],
        hsame.2.2.trans h.accesses⟩

lemma coherent_op (h : r.Coherent) (o : Op) : (r.op o).Coherent := by
  cases o with
  | add entityId =>
    by_cases hmem : entityId ∈ r.residents
    · have hadd : r.add entityId = r.touch entityId := if_pos ((r.has_iff entityId).2 hmem)
      change (r.add entityId).Coherent
      rw [hadd]
      exact (touch_spec entityId h).2
    · exact (add_spec h hmem).2
  | touch entityId => exact (touch_spec entityId h).2
  | remove entityId => exact (remove_spec entityId h).2.2
  | victim => exact (victim_spec h).2.2.2

/-- What a region promises, by the counts of its reference. -/
structure GivesUpLeast (r : FrequencyRegion) (c : Reference) : Prop where
  victim : ∀ v, r.victim.1 = some v →
    ∃ count, c.counts v = some count ∧ ∀ other n, c.counts other = some n → count ≤ n
  nobody : r.victim.1 = none ↔ ∀ entityId, c.counts entityId = none
  buckets : ∀ count entityId, entityId ∈ r.bucket count ↔ c.counts entityId = some count
  scanned : ∀ entityId count, c.counts entityId = some count →
    r.lowestCount ≤ count ∧ count ≤ r.highestCount ∧ r.scan ≠ none

lemma givesUpLeast_of_agrees (h : r.Coherent) (hc : Agrees agingPeriod r c) :
    r.GivesUpLeast c := by
  obtain ⟨hmem, hnone, -, -⟩ := victim_spec h
  have hscan := scan_spec h
  have hresident {entityId : JsString} {count : ℕ} (hn : c.counts entityId = some count) :
      r.residents ≠ ∅ :=
    Finset.ne_empty_of_mem ((r.mem_residents_iff entityId).2 ⟨count, (hc.counts entityId).trans hn⟩)
  refine ⟨fun v hv => ?_, ?_, fun count entityId => ?_, fun entityId count hn => ?_⟩
  · cases hfound : r.scan with
    | none =>
      rw [hfound] at hscan
      exact absurd (hmem v hv) (by rw [hscan]; exact Finset.notMem_empty v)
    | some found =>
      rw [hfound] at hscan
      rw [FrequencyRegion.victim, hfound] at hv
      split at hv
      · cases hv
      · obtain rfl : found.1 = v := Option.some.inj hv
        simp only [hc.counts] at hscan
        exact ⟨found.2, hscan⟩
  · refine hnone.trans ⟨fun hempty entityId => ?_, fun hall => ?_⟩
    · cases hn : c.counts entityId with
      | none => rfl
      | some count => exact absurd hempty (hresident hn)
    · refine Finset.eq_empty_of_forall_notMem fun entityId hin => ?_
      obtain ⟨count, hn⟩ := (r.mem_residents_iff entityId).1 hin
      rw [hc.counts, hall] at hn
      cases hn
  · rw [h.buckets, hc.counts]
  · have hn' := (hc.counts entityId).trans hn
    refine ⟨h.lowest entityId count hn', h.highest entityId count hn', fun hempty => ?_⟩
    rw [hempty] at hscan
    exact hresident hn hscan

lemma Agrees.run {P : ℕ → Prop} {ops : List Op} (hP : ∀ n, P n → halve n = half n)
    (h : r.Coherent) (hc : Agrees agingPeriod r c)
    (hops : Machine.Along (Reference.op half agingPeriod) (Reference.Finds agingPeriod P) c ops) :
    (Machine.run FrequencyRegion.op r ops).GivesUpLeast
      (Machine.run (Reference.op half agingPeriod) c ops) := by
  induction ops generalizing r c with
  | nil => exact givesUpLeast_of_agrees h hc
  | cons o ops ih =>
    refine ih (coherent_op h o) (hc.op o fun used hused hage entityId count hcount => ?_) hops.2
    exact hP count (hops.1 used hused hage entityId count hcount)

lemma agrees_init (agingPeriod : ℕ) :
    Agrees agingPeriod { agingPeriod := agingPeriod } {} :=
  ⟨rfl, fun _ => OrderedMap.get?_empty .., rfl⟩

lemma op_add {counts : JsString → Option ℕ} {accesses : ℕ} {entityId : JsString}
    (hnew : counts entityId = none) (h : accesses + 1 < agingPeriod) :
    Reference.op half agingPeriod ⟨counts, accesses⟩ (.add entityId) =
      ⟨Function.update counts entityId (some 1), accesses + 1⟩ := by
  simp only [Reference.op, Reference.used, hnew]
  exact if_pos h

lemma run_touches {counts : JsString → Option ℕ} {accesses : ℕ} {entityId : JsString}
    {uses count : ℕ} (hcount : counts entityId = some count)
    (h : accesses + uses < agingPeriod) :
    Machine.run (Reference.op half agingPeriod) ⟨counts, accesses⟩
        (.replicate uses (.touch entityId)) =
      ⟨Function.update counts entityId (some (count + uses)), accesses + uses⟩ := by
  induction uses generalizing counts accesses count with
  | zero =>
    rw [Nat.add_zero, Nat.add_zero, ← hcount, Function.update_eq_self]
    rfl
  | succ uses ih =>
    have hstep : Reference.op half agingPeriod ⟨counts, accesses⟩ (.touch entityId) =
        ⟨Function.update counts entityId (some (count + 1)), accesses + 1⟩ := by
      simp only [Reference.op, Reference.used, hcount]
      exact if_pos (show accesses + 1 < agingPeriod by omega)
    rw [List.replicate_succ, Machine.run_cons, hstep, ih (Function.update_self ..) (by omega)]
    simp only [Function.update_idem, Nat.add_assoc, Nat.add_comm 1 uses]

/-- One id is used four times and then another one throughout a period. -/
def spree (uses : ℕ) : List Op :=
  .add "b" :: .replicate 3 (.touch "b") ++ (.add "a" :: .replicate uses (.touch "a") ++
    [.touch "a"])

def spreeCounts (mine other : ℕ) : JsString → Option ℕ :=
  Function.update (Function.update (fun _ => none) "b" (some other)) "a" (some mine)

lemma run_spree (half : ℕ → ℕ) (uses : ℕ) :
    Machine.run (Reference.op half (uses + 6)) {} (spree uses) =
      ⟨spreeCounts (half (uses + 2)) (half 4), 0⟩ := by
  have hab : ("a" : JsString) ≠ "b" := by decide
  have hlast : Reference.op half (uses + 6) ⟨spreeCounts (1 + uses) 4, 5 + uses⟩ (.touch "a") =
      ⟨spreeCounts (half (uses + 2)) (half 4), 0⟩ := by
    simp only [Reference.op, Reference.used, spreeCounts, Function.update_self]
    refine (if_neg (show ¬ 5 + uses + 1 < uses + 6 by omega)).trans ?_
    refine congrArg (Reference.mk · 0) (funext fun entityId => ?_)
    simp only [Reference.put, Function.update_idem, Function.update_apply, Nat.add_comm 1 uses]
    split
    · rfl
    · split <;> rfl
  rw [spree, Machine.run_append, Machine.run_cons, op_add rfl (by omega),
    run_touches (Function.update_self ..) (by omega), Machine.run_append, Machine.run_cons,
    Machine.run_cons, Function.update_idem, op_add (Function.update_of_ne hab ..) (by omega),
    run_touches (Function.update_self ..) (by omega), Function.update_idem]
  exact hlast

end FrequencyRegion
end ActorTs.Cluster.Sharding
