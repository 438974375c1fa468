import ActorTs.Cluster.Sharding.FrequencyCounts

/-!
# The order in which a recency region gives up

A region keeps its ids in the order of their last uses: an add and a touch put their id behind
all others. So the id it gives up is the one whose last use is longest ago.
-/

open List Option Function

namespace ActorTs.Cluster.Sharding

namespace RecencyRegion

open FrequencyRegion

/-- When each id was last used, counted in calls; an id that is not there was at no time. -/
structure Uses where
  last : JsString → Option ℕ := fun _ => none
  calls : ℕ := 0

/-- An add uses its id, and a touch one that is there. -/
def Uses.op (u : Uses) : Op → Uses
  | .add entityId => ⟨update u.last entityId (some u.calls), u.calls + 1⟩
  | .touch entityId =>
    ⟨update u.last entityId ((u.last entityId).map fun _ => u.calls), u.calls + 1⟩
  | .remove entityId => ⟨update u.last entityId none, u.calls + 1⟩
  | .victim => ⟨u.last, u.calls + 1⟩

def op (r : RecencyRegion) : Op → RecencyRegion
  | .add entityId => r.add entityId
  | .touch entityId => r.touch entityId
  | .remove entityId => (r.remove entityId).2
  | .victim => r

/-- The ids that were used stand in the order of their last uses. -/
structure Follows (r : RecencyRegion) (u : Uses) : Prop where
  mem : ∀ entityId, entityId ∈ r.order ↔ u.last entityId ≠ none
  past : ∀ entityId, ∀ t ∈ u.last entityId, t < u.calls
  sorted : r.order.elems.Pairwise fun a b => ∀ s ∈ u.last a, ∀ t ∈ u.last b, s < t

variable {r : RecencyRegion} {u : Uses} (entityId : JsString)

lemma Follows.later (h : Follows r u) : Follows r ⟨u.last, u.calls + 1⟩ :=
  ⟨h.mem, fun other t ht => (h.past other t ht).trans u.calls.lt_succ_self, h.sorted⟩

lemma Follows.remove (h : Follows r u) :
    Follows (r.remove entityId).2 ⟨update u.last entityId none, u.calls⟩ := by
  refine ⟨fun other => ?_, fun other t ht => ?_, ?_⟩
  · rw [RecencyRegion.remove, OrderedSet.mem_delete, h.mem]
    by_cases hother : other = entityId <;> simp [hother]
  · by_cases hother : other = entityId
    · simp [hother] at ht
    · exact h.past other t (by simpa [hother] using ht)
  · refine (h.sorted.sublist filter_sublist).imp_of_mem fun ha hb hlt => ?_
    have hne := of_decide_eq_true (mem_filter.1 ha).2
    have hne' := of_decide_eq_true (mem_filter.1 hb).2
    simpa only [update_of_ne hne, update_of_ne hne'] using hlt

lemma Follows.add (h : Follows r u) :
    Follows (r.add entityId) ⟨update u.last entityId (some u.calls), u.calls + 1⟩ := by
  have hleft := h.remove entityId
  have helems : (r.add entityId).order.elems = (r.remove entityId).2.order.elems ++ [entityId] := by
    rw [RecencyRegion.add, OrderedSet.add, dif_neg (by simp [OrderedSet.delete])]
    rfl
  refine ⟨fun other => ?_, fun other t ht => ?_, ?_⟩
  · by_cases hother : other = entityId <;> simp [RecencyRegion.add, hother, h.mem]
  · by_cases hother : other = entityId
    · obtain rfl : u.calls = t := by simpa [hother] using ht
      exact u.calls.lt_succ_self
    · exact h.later.past other t (by simpa [hother] using ht)
  · rw [helems, pairwise_append]
    have hne : ∀ {other}, other ∈ (r.remove entityId).2.order.elems → other ≠ entityId :=
      fun hmem => ((r.order.mem_delete entityId _).1 hmem).2
    refine ⟨hleft.sorted.imp_of_mem fun ha hb hlt => ?_, pairwise_singleton .., fun a ha b hb => ?_⟩
    · simpa only [update_of_ne (hne ha), update_of_ne (hne hb)] using hlt
    · obtain rfl := mem_singleton.1 hb
      dsimp only
      rw [update_of_ne (hne ha), update_self]
      rintro s hs _ ⟨⟩
      exact h.past a s hs

lemma Follows.op (h : Follows r u) (o : Op) : Follows (r.op o) (u.op o) := by
  cases o with
  | add entityId => exact h.add entityId
  | touch entityId =>
    unfold RecencyRegion.op RecencyRegion.touch Uses.op
    dsimp only
    split
    · next hhas =>
      obtain ⟨t, ht⟩ := ne_none_iff_exists'.1 ((h.mem entityId).1 ((r.order.has_iff _).1 hhas))
      rw [ht]
      exact h.add entityId
    · next hhas =>
      have hnone : u.last entityId = none := by
        by_contra hsome
        exact hhas ((r.order.has_iff _).2 ((h.mem entityId).2 hsome))
      rw [hnone, map_none, ← hnone, update_eq_self]
      exact h.later
  | remove entityId => exact (h.remove entityId).later
  | victim => exact h.later

lemma Follows.run (h : Follows r u) (ops : List Op) :
    Follows (ops.foldl RecencyRegion.op r) (ops.foldl Uses.op u) := by
  induction ops generalizing r u with
  | nil => exact h
  | cons o ops ih => exact ih (h.op o)

/-- Whatever the calls, the victim is the id whose last use is longest ago, and there is one as
long as an id is there. -/
theorem gives_up_least_recent (ops : List Op) :
    let r := ops.foldl RecencyRegion.op {}
    let u := ops.foldl Uses.op {}
    (r.victim = none ↔ ∀ entityId, u.last entityId = none) ∧
      ∀ v, r.victim = some v → ∃ t, u.last v = some t ∧
        ∀ entityId s, entityId ≠ v → u.last entityId = some s → t < s := by
  intro r u
  have hfollows : Follows r u := Follows.run ⟨by simp, by simp, .nil⟩ ops
  refine ⟨?_, fun v hv => ?_⟩
  · rw [victim_eq_none_iff, Finset.eq_empty_iff_forall_notMem]
    refine forall_congr' fun entityId => ?_
    rw [residents, OrderedSet.mem_toFinset, hfollows.mem, not_not]
  · obtain ⟨rest, helems⟩ := head?_eq_some_iff.1 hv
    have hmem : v ∈ r.order := by
      rw [OrderedSet.mem_def, helems]
      exact mem_cons_self
    obtain ⟨t, ht⟩ := ne_none_iff_exists'.1 ((hfollows.mem v).1 hmem)
    refine ⟨t, ht, fun entityId s hne hs => ?_⟩
    have hthere : entityId ∈ r.order := (hfollows.mem entityId).2 (hs ▸ some_ne_none s)
    have hsorted := hfollows.sorted
    rw [OrderedSet.mem_def, helems] at hthere
    rw [helems, pairwise_cons] at hsorted
    exact hsorted.1 entityId ((mem_cons.1 hthere).resolve_left hne) t ht s hs

end RecencyRegion

end ActorTs.Cluster.Sharding
