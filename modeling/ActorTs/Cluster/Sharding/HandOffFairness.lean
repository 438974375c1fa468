import ActorTs.Cluster.Sharding.HandOffLimits

/-!
# The shares of a budget

The shards that a tick hands off come from the owners in turn. Of each owner they are those
of a number of full rounds, and of some owners those of one round more, so that two owners
differ by one at most, unless one has no more to give.
-/

open List OrderedMap Bool Option Nat

namespace ActorTs.Cluster.Sharding

/-- A beginning of the rounds ends within one of them. -/
lemma exists_round {α : Type*} (f : ℕ → List α) (n budget : ℕ) :
    ∃ r, (range r).flatMap f <+: ((range n).flatMap f).take budget ∧
      ((range n).flatMap f).take budget <+: (range (r + 1)).flatMap f := by
  induction n with
  | zero => exact ⟨0, nil_prefix, by simp⟩
  | succ n ih =>
    have hsplit : (range (n + 1)).flatMap f = (range n).flatMap f ++ f n := by
      rw [range_succ, flatMap_append, flatMap_singleton]
    obtain hle | hlt := le_total budget ((range n).flatMap f).length
    · rw [hsplit, take_append_of_le_length hle]
      exact ih
    · refine ⟨n, ?_, take_prefix _ _⟩
      rw [hsplit, take_append, take_of_length_le hlt]
      exact prefix_append _ _

namespace Coordinator

variable (s : Coordinator) (shards : List ShardId) (ownerKey : JsString)

def isAt (shardId : ShardId) : Bool := s.shardHome.get? shardId = some ownerKey

/-- How many of the shards are at an owner. -/
def share : ℕ := shards.countP (s.isAt ownerKey)

lemma shardHome_byOwner {owned : List ShardId}
    (h : (s.byOwner shards).get? ownerKey = some owned) {x : ShardId} (hx : x ∈ owned) :
    s.shardHome.get? x = some ownerKey := by
  have howners : ∀ key owned, (OrderedMap.empty : OrderedMap JsString (List ShardId)).get? key =
      some owned → ∀ x ∈ owned, s.shardHome.get? x = some key := fun _ _ h => by cases h
  unfold byOwner at h
  generalize (OrderedMap.empty : OrderedMap JsString (List ShardId)) = owners at h howners
  induction shards generalizing owners with
  | nil => exact howners ownerKey owned h x hx
  | cons shardId shards ih =>
    refine ih _ h fun key owned hget x hx => ?_
    dsimp only at hget
    cases hhome : s.shardHome.get? shardId with
    | none =>
      rw [hhome] at hget
      exact howners key owned hget x hx
    | some home =>
      rw [hhome] at hget
      dsimp only at hget
      rw [get?_set] at hget
      split at hget
      · next heq =>
        subst heq
        cases hget
        obtain hx | hx := mem_append.1 hx
        · cases hold : owners.get? home with
          | none => rw [hold] at hx; cases hx
          | some old => exact howners home old hold x (by rw [hold] at hx; exact hx)
        · rw [mem_singleton.1 hx, hhome]
      · exact howners key owned hget x hx

lemma countP_isAt {key : JsString} {l : List ShardId}
    (h : ∀ x ∈ l, s.shardHome.get? x = some key) :
    l.countP (s.isAt ownerKey) = if key = ownerKey then l.length else 0 := by
  split
  · next heq => exact countP_eq_length.2 fun x hx => decide_eq_true (heq ▸ h x hx)
  · next hne =>
    refine countP_eq_zero.2 fun x hx hat => hne ?_
    exact some.inj ((h x hx).symm.trans (of_decide_eq_true hat))

/-- The shards of an owner are all in its queue. -/
lemma total_share {g : List ShardId → ℕ}
    (hg : ∀ owned : List ShardId, owned.countP (s.isAt ownerKey) = 0 → g owned = 0) :
    (s.byOwner shards).total g = ((s.byOwner shards).get? ownerKey).elim 0 g := by
  rw [← total_delete g _ ownerKey, add_eq_right, total]
  refine sum_eq_zero fun n hn => ?_
  obtain ⟨⟨key, owned⟩, hentry, rfl⟩ := mem_map.1 hn
  have hget := (get?_eq_some_iff _ _ _).2 hentry
  rw [get?_delete] at hget
  split at hget
  · cases hget
  · next hne =>
    refine hg owned ((s.countP_isAt ownerKey fun x => s.shardHome_byOwner shards key hget).trans ?_)
    exact if_neg (Ne.symm hne)

/-- An owner gives one shard in each round, until it has no more. -/
lemma share_rounds (r : ℕ) :
    s.share ((range r).flatMap fun round => (s.queues shards).filterMap fun queue =>
      queue[round]?) ownerKey = min r (s.share shards ownerKey) := by
  have hshare : s.share shards ownerKey = (s.byOwner shards).total (countP (s.isAt ownerKey)) := by
    rw [total_byOwner]
    refine countP_congr fun x _ => ?_
    rw [and_eq_true_iff, iff_self_and]
    exact fun hat => isSome_iff_exists.2 ⟨ownerKey, of_decide_eq_true hat⟩
  have hqueue : ∀ owned ∈ (s.byOwner shards).entries,
      ((owned.2.insertionSort (· ≤ ·)).take r).countP (s.isAt ownerKey) =
        min r (owned.2.countP (s.isAt ownerKey)) := by
    rintro ⟨key, owned⟩ hentry
    have hhome := fun x => s.shardHome_byOwner shards key
      ((get?_eq_some_iff _ _ _).2 hentry) (x := x)
    rw [s.countP_isAt ownerKey hhome, s.countP_isAt ownerKey fun x hx =>
      hhome x (((perm_insertionSort (· ≤ ·) owned).mem_iff).1 (mem_of_mem_take hx))]
    split
    · rw [length_take, length_insertionSort]
    · exact (min_zero r).symm
  rw [hshare, share, (rounds_perm _ r).countP_eq, countP_flatMap]
  refine (s.sum_queues shards (g := fun owned => min r (owned.countP (s.isAt ownerKey)))
    hqueue).trans ?_
  rw [s.total_share shards ownerKey fun _ h => h, s.total_share shards ownerKey fun owned h => by
    rw [h, min_zero]]
  cases (s.byOwner shards).get? ownerKey with
  | none => exact (min_zero r).symm
  | some owned => rfl

lemma share_shardsWithinBudget (budget : Option ℕ) : ∃ r,
    ∀ ownerKey, min r (s.share shards ownerKey) ≤
        s.share (s.shardsWithinBudget shards budget) ownerKey ∧
      s.share (s.shardsWithinBudget shards budget) ownerKey ≤
        min (r + 1) (s.share shards ownerKey) := by
  obtain ⟨n, hbegin, -⟩ := s.shardsWithinBudget_begins shards budget
  obtain ⟨r, hle, hlt⟩ := exists_round
    (fun round => (s.queues shards).filterMap fun queue => queue[round]?) _ n
  refine ⟨r, fun ownerKey => ?_⟩
  rw [hbegin, ← share_rounds, ← share_rounds]
  exact ⟨hle.sublist.countP_le, hlt.sublist.countP_le⟩

/-- As many shards as the budget and the proposal allow are handed off, and two owners give
as many of them up to one, unless one gives all that were proposed. -/
theorem shardsWithinBudget_fair (proposed : OrderedSet ShardId) (budget : Option ℕ) :
    let picked := s.shardsWithinBudget proposed.elems budget
    let homed := proposed.elems.filter fun shardId => (s.shardHome.get? shardId).isSome
    picked.Nodup ∧ (∀ shardId ∈ picked, shardId ∈ homed) ∧
      picked.length = budget.elim homed.length (min · homed.length) ∧
      ∀ ownerKey other, s.share picked other ≤ s.share picked ownerKey + 1 ∨
        ∀ shardId ∈ proposed, s.isAt ownerKey shardId = true → shardId ∈ picked := by
  intro picked homed
  have hnodup : picked.Nodup := s.nodup_shardsWithinBudget proposed.nodup budget
  obtain ⟨n, hbegin, hn⟩ := s.shardsWithinBudget_begins proposed.elems budget
  have hlength : (roundRobin (s.queues proposed.elems)).length = homed.length := by
    have hall := s.countP_roundRobin proposed.elems fun _ => true
    rw [countP_true] at hall
    simpa [homed, countP_eq_length_filter] using hall
  have hhomed : ∀ shardId ∈ picked, shardId ∈ homed := by
    intro shardId hmem
    change shardId ∈ s.shardsWithinBudget proposed.elems budget at hmem
    rw [hbegin] at hmem
    have hpos := countP_pos_iff.2 ⟨shardId, mem_of_mem_take hmem, beq_self_eq_true shardId⟩
    rw [s.countP_roundRobin proposed.elems] at hpos
    obtain ⟨x, hx, hp⟩ := countP_pos_iff.1 hpos
    obtain ⟨heq, hsome⟩ := and_eq_true_iff.1 hp
    exact mem_filter.2 (eq_of_beq heq ▸ ⟨hx, hsome⟩)
  refine ⟨hnodup, hhomed, ?_, fun ownerKey other => ?_⟩
  · change (s.shardsWithinBudget proposed.elems budget).length = _
    rw [hbegin, length_take, hlength]
    obtain rfl | ⟨rfl, rfl⟩ := hn
    · rfl
    · rw [hlength]
      exact min_self _
  · obtain ⟨r, hr⟩ := s.share_shardsWithinBudget proposed.elems budget
    obtain hall | hmore := le_total (s.share proposed.elems ownerKey) r
    · refine .inr fun shardId hmem hat => ?_
      have hshare := (hr ownerKey).1
      rw [min_eq_right hall, share, share, countP_eq_length_filter, countP_eq_length_filter]
        at hshare
      have hsub := subperm_of_subset (hnodup.filter (s.isAt ownerKey)) fun x hx =>
        mem_filter.2 ⟨(mem_filter.1 (hhomed x (mem_filter.1 hx).1)).1, (mem_filter.1 hx).2⟩
      have hperm := hsub.perm_of_length_le hshare
      exact (mem_filter.1 (hperm.mem_iff.2 (mem_filter.2 ⟨hmem, hat⟩))).1
    · refine .inl (((hr other).2.trans (min_le_left ..)).trans ?_)
      exact succ_le_succ ((min_eq_left hmore).ge.trans (hr ownerKey).1)

end Coordinator
end ActorTs.Cluster.Sharding
