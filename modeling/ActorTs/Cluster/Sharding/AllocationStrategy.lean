import ActorTs.Cluster.Sharding.ShardingProtocol
import ActorTs.Library.Loads
import ActorTs.Library.Loop

/-!
# The strategy that evens out the number of shards

A shard goes to the candidate with the fewest shards. A pass of rebalancing proposes the
shards of nodes that are no candidates, and then, where the loads of the candidates are the
threshold apart, shards of the busiest ones, as many as the budget of the pass allows.

Here a pass takes each proposed shard from its owner and places it anew, one after the other. Moving
a shard off a node that is no candidate, or to a node with two shards less, lowers the potential of
the assignment, and no other move raises it. So passes come to an end as soon as each begins with
such a move. With a threshold of 1 that is so only where the shards share out evenly.
-/

open List Option OrderedSet Bool Finset

namespace ActorTs.Cluster.Sharding

open OrderedMap NodeAddress

/-- The shards of each node, as a strategy is shown them. -/
abbrev ShardMap := OrderedMap JsString (OrderedSet ShardId)

def ShardMap.shardsOf (m : ShardMap) (address : JsString) : OrderedSet ShardId :=
  (m.get? address).getD OrderedSet.empty

def ShardMap.load (m : ShardMap) (address : JsString) : ℕ := (m.shardsOf address).size

structure LeastShardAllocationStrategy where
  rebalanceThreshold : ℚ := 1
  maxSimultaneousRebalance : ℚ := 3

namespace LeastShardAllocationStrategy

/-- The step of the search for the candidate with the fewest shards. -/
def lesser (localeCompare : JsString → JsString → ℤ) (currentShards : ShardMap)
    (best : NodeAddress × ℕ) (candidate : NodeAddress) : NodeAddress × ℕ :=
  let load := currentShards.load candidate.toString
  if load < best.2 ∨ load = best.2 ∧ localeCompare candidate.toString best.1.toString < 0 then
    (candidate, load)
  else best

def allocate (localeCompare : JsString → JsString → ℤ) (candidates : List NodeAddress)
    (currentShards : ShardMap) : Except JsString NodeAddress :=
  match candidates with
  | [] => .error "LeastShardAllocationStrategy: no candidates"
  | first :: _ =>
    .ok (candidates.foldl (lesser localeCompare currentShards)
      (first, currentShards.load first.toString)).1

variable (strategy : LeastShardAllocationStrategy) (currentShards : ShardMap)
  (candidates : List NodeAddress) (rebalanceInProgress : OrderedSet ShardId)

/-- The shards of the nodes that are no candidates, by address and then by shard. -/
def shardsOfOthers : List ShardId :=
  let others := currentShards.keys.filter fun address =>
    address ∉ candidates.map NodeAddress.toString
  (others.mergeSort fun a b => decide (a ≤ b)).flatMap fun address =>
    (currentShards.shardsOf address).elems.mergeSort fun a b => decide (a ≤ b)

def shardsOffNonCandidates : OrderedSet ShardId :=
  (shardsOfOthers currentShards candidates).foldl (fun out shardId =>
    if strategy.maxSimultaneousRebalance ≤ out.size then out
    else if rebalanceInProgress.has shardId then out
    else out.add shardId) OrderedSet.empty

/-- The inner loop of the drain: shards of one node, until the budget is spent. -/
def drainNode : List ShardId → OrderedSet ShardId × ℚ → OrderedSet ShardId × ℚ
  | [], s => s
  | shardId :: rest, s =>
    if rebalanceInProgress.has shardId then drainNode rest s
    else if s.2 - 1 ≤ 0 then (s.1.add shardId, s.2 - 1)
    else drainNode rest (s.1.add shardId, s.2 - 1)

/-- The outer loop, over the loads with the busiest first. -/
def drain (min : ℕ) : List (ℕ × OrderedSet ShardId) → OrderedSet ShardId × ℚ → OrderedSet ShardId
  | [], s => s.1
  | (load, shards) :: rest, s =>
    if s.2 ≤ 0 then s.1
    else if (load : ℚ) - min < strategy.rebalanceThreshold then s.1
    else drain min rest (drainNode rebalanceInProgress shards.elems s)

/-- The candidates' loads with their shards, the least first. -/
def loads : List (ℕ × OrderedSet ShardId) :=
  (candidates.map fun c =>
    (currentShards.load c.toString, currentShards.shardsOf c.toString)).mergeSort
      fun a b => decide (a.1 ≤ b.1)

def rebalance : OrderedSet ShardId :=
  let out := shardsOffNonCandidates strategy currentShards candidates rebalanceInProgress
  if candidates.length < 2 then out
  else
    match loads currentShards candidates, (loads currentShards candidates).reverse with
    | (min, _) :: _, (max, shards) :: rest =>
      if (max : ℚ) - min < strategy.rebalanceThreshold then out
      else drain strategy rebalanceInProgress min ((max, shards) :: rest)
        (out, strategy.maxSimultaneousRebalance - out.size)
    | _, _ => out

/-! ### Where a shard goes -/

section Allocate

variable (localeCompare : JsString → JsString → ℤ) {currentShards : ShardMap}
  (candidates : List NodeAddress)

lemma foldl_lesser (best : NodeAddress × ℕ)
    (hbest : best.2 = currentShards.load best.1.toString) :
    let found := candidates.foldl (lesser localeCompare currentShards) best
    found.2 = currentShards.load found.1.toString ∧ (found.1 = best.1 ∨ found.1 ∈ candidates) ∧
      found.2 ≤ best.2 ∧ ∀ c ∈ candidates, found.2 ≤ currentShards.load c.toString := by
  induction candidates generalizing best with
  | nil => simp [hbest]
  | cons c candidates ih =>
    rw [foldl_cons, lesser]
    split
    · obtain ⟨hload, hmem, hle, hall⟩ := ih (c, currentShards.load c.toString) rfl
      refine ⟨hload, .inr (mem_cons.2 hmem), by simp only at hle; omega, ?_⟩
      exact forall_mem_cons.2 ⟨hle, hall⟩
    · obtain ⟨hload, hmem, hle, hall⟩ := ih best hbest
      refine ⟨hload, hmem.imp_right (mem_cons_of_mem c), hle, ?_⟩
      exact forall_mem_cons.2 ⟨by omega, hall⟩

/-- A shard goes to a candidate that no candidate has fewer shards than. -/
lemma allocate_ok (currentShards : ShardMap) (hc : candidates ≠ []) :
    ∃ best ∈ candidates, allocate localeCompare candidates currentShards = .ok best ∧
      ∀ c ∈ candidates, currentShards.load best.toString ≤ currentShards.load c.toString := by
  cases candidates with
  | nil => exact absurd rfl hc
  | cons first rest =>
    obtain ⟨hload, hmem, -, hall⟩ := foldl_lesser localeCompare (first :: rest)
      (first, currentShards.load first.toString) rfl
    refine ⟨_, ?_, rfl, fun c h => hload ▸ hall c h⟩
    exact hmem.elim (fun h => h ▸ mem_cons_self) id

end Allocate

/-! ### What is proposed -/

section Rebalance

variable (strategy : LeastShardAllocationStrategy) {m : ShardMap} {candidates : List NodeAddress}
  (P : OrderedSet ShardId)

lemma mem_shardsOfOthers {shardId : ShardId} :
    shardId ∈ shardsOfOthers m candidates ↔
      ∃ a, a ∉ candidates.map toString ∧ shardId ∈ m.shardsOf a := by
  simp only [shardsOfOthers, mem_flatMap, mem_mergeSort, mem_filter,
    decide_eq_true_eq, ← OrderedSet.mem_def]
  refine exists_congr fun a => ⟨fun h => ⟨h.1.2, h.2⟩, fun h => ⟨⟨?_, h.1⟩, h.2⟩⟩
  by_contra hkey
  rw [ShardMap.shardsOf, (m.get?_eq_none_iff a).2 hkey] at h
  exact not_mem_empty shardId h.2

/-- The first set goes on as the second with elements that are so. -/
structure Adds (Q : ShardId → Prop) (s s' : OrderedSet ShardId) : Prop where
  first : s.elems <+: s'.elems
  mem : ∀ t ∈ s', t ∈ s ∨ Q t

namespace Adds

variable {Q : ShardId → Prop} {s s' s'' : OrderedSet ShardId}

lemma refl : Adds Q s s := ⟨prefix_rfl, fun _ h => .inl h⟩

lemma trans (h : Adds Q s s') (h' : Adds Q s' s'') : Adds Q s s'' :=
  ⟨h.first.trans h'.first, fun t ht => (h'.mem t ht).elim (h.mem t) .inr⟩

lemma add {a : ShardId} (h : Q a) : Adds Q s (s.add a) := by
  refine ⟨?_, fun t ht => ?_⟩
  · rw [OrderedSet.add]
    split
    · exact prefix_rfl
    · exact prefix_append _ _
  · rw [mem_add] at ht
    exact ht.elim (fun ht => .inr (ht ▸ h)) .inl

lemma foldl_off (l : List ShardId) (hl : ∀ t ∈ l, Q t) : ∀ out, Adds Q out
    (l.foldl (fun out shardId =>
      if strategy.maxSimultaneousRebalance ≤ out.size then out
      else if P.has shardId then out else out.add shardId) out) := by
  induction l with
  | nil => exact fun _ => refl
  | cons t l ih =>
    intro out
    rw [List.forall_mem_cons] at hl
    rw [foldl_cons]
    split
    · exact ih hl.2 out
    · split
      · exact ih hl.2 out
      · exact (add hl.1).trans (ih hl.2 _)

lemma drainNode (l : List ShardId) (hl : ∀ t ∈ l, Q t) : ∀ s : OrderedSet ShardId × ℚ,
    Adds Q s.1 (drainNode P l s).1 := by
  induction l with
  | nil => exact fun _ => refl
  | cons t l ih =>
    intro s
    rw [List.forall_mem_cons] at hl
    rw [LeastShardAllocationStrategy.drainNode]
    split
    · exact ih hl.2 s
    · split
      · exact add hl.1
      · exact (add hl.1).trans (ih hl.2 (s.1.add t, s.2 - 1))

lemma drain (min : ℕ) (l : List (ℕ × OrderedSet ShardId)) (hl : ∀ e ∈ l, ∀ t ∈ e.2, Q t) :
    ∀ s : OrderedSet ShardId × ℚ, Adds Q s.1 (drain strategy P min l s) := by
  induction l with
  | nil => exact fun _ => refl
  | cons e l ih =>
    intro s
    rw [List.forall_mem_cons] at hl
    rw [LeastShardAllocationStrategy.drain]
    split
    · exact refl
    · split
      · exact refl
      · exact (drainNode P e.2.elems hl.1 s).trans (ih hl.2 _)

end Adds

lemma shardsOff_eq_nil (hmax : 1 ≤ strategy.maxSimultaneousRebalance)
    (h : (shardsOffNonCandidates strategy m candidates OrderedSet.empty).elems = []) :
    shardsOfOthers m candidates = [] := by
  rw [shardsOffNonCandidates] at h
  cases hl : shardsOfOthers m candidates with
  | nil => rfl
  | cons t l =>
    have hsize : ¬ strategy.maxSimultaneousRebalance ≤
        ((OrderedSet.empty : OrderedSet ShardId).size : ℚ) := by
      simp only [OrderedSet.size, OrderedSet.empty, length_nil, Nat.cast_zero]
      linarith
    have hhas : ¬ (OrderedSet.empty : OrderedSet ShardId).has t = true := by simp
    rw [hl, foldl_cons, if_neg hsize, if_neg hhas] at h
    have hadds := Adds.foldl_off strategy OrderedSet.empty l (fun _ _ => trivial)
      (OrderedSet.empty.add t)
    cases (prefix_nil.1 (h ▸ hadds.first))

variable {e : ℕ × OrderedSet ShardId}

lemma mem_loads :
    e ∈ loads m candidates ↔
      ∃ c ∈ candidates, (m.load c.toString, m.shardsOf c.toString) = e := by
  rw [loads, List.mem_mergeSort, List.mem_map]

lemma pairwise_loads : (loads m candidates).Pairwise fun a b => a.1 ≤ b.1 := by
  have h : (loads m candidates).Pairwise fun a b => decide (a.1 ≤ b.1) = true :=
    pairwise_mergeSort (fun a b c hab hbc => by simp only [decide_eq_true_eq] at *; omega)
      (fun a b => by simp only [or_eq_true, decide_eq_true_eq]; omega) _
  exact h.imp fun h => of_decide_eq_true h

lemma adds_shardsOff : Adds (fun t => ∃ a, a ∉ candidates.map toString ∧
    t ∈ m.shardsOf a) OrderedSet.empty (shardsOffNonCandidates strategy m candidates P) :=
  Adds.foldl_off strategy P _ (fun _ h => mem_shardsOfOthers.1 h) _

lemma adds_rebalance (m : ShardMap) (candidates : List NodeAddress) : Adds (fun t => ∃ a, t ∈ m.shardsOf a)
    (shardsOffNonCandidates strategy m candidates P) (rebalance strategy m candidates P) := by
  rw [rebalance]
  split
  · exact Adds.refl
  · split
    · rename_i hrev
      split
      · exact Adds.refl
      · refine Adds.drain strategy P _ _ (fun e he t ht => ?_)
          (shardsOffNonCandidates strategy m candidates P, _)
        rw [← hrev, mem_reverse, mem_loads] at he
        obtain ⟨c, -, rfl⟩ := he
        exact ⟨c.toString, ht⟩
    · exact Adds.refl

lemma mem_rebalance {t : ShardId} (h : t ∈ rebalance strategy m candidates P) :
    ∃ a, t ∈ m.shardsOf a := by
  refine ((adds_rebalance strategy P m candidates).mem t h).elim (fun h => ?_) id
  exact ((adds_shardsOff strategy P).mem t h).elim (absurd · (not_mem_empty t))
    fun ⟨a, ha⟩ => ⟨a, ha.2⟩

lemma drain_head {min load : ℕ} {shards : OrderedSet ShardId} {remaining : ℚ}
    (hremaining : 0 < remaining) (hload : strategy.rebalanceThreshold ≤ (load : ℚ) - min)
    {t : ShardId} {l : List ShardId} (hshards : shards.elems = t :: l)
    (rest : List (ℕ × OrderedSet ShardId)) :
    [t] <+: (drain strategy OrderedSet.empty min ((load, shards) :: rest)
      (OrderedSet.empty, remaining)).elems := by
  rw [drain, if_neg (not_le.2 hremaining), if_neg (not_lt.2 hload), hshards]
  refine List.IsPrefix.trans ?_
    (Adds.drain strategy OrderedSet.empty min rest (fun _ _ _ _ => trivial) _).first
  rw [drainNode, if_neg (by simp)]
  split
  · exact prefix_rfl
  · exact (Adds.drainNode OrderedSet.empty l (fun _ _ => trivial)
      (OrderedSet.empty.add t, remaining - 1)).first

lemma head_loads_le {l : List (ℕ × OrderedSet ShardId)} (hl : loads m candidates = e :: l) :
    ∀ c ∈ candidates, e.1 ≤ m.load c.toString := by
  intro c hmem
  have hsorted : (e :: l).Pairwise fun a b => a.1 ≤ b.1 := hl ▸ pairwise_loads
  have he : (m.load c.toString, m.shardsOf c.toString) ∈ loads m candidates :=
    mem_loads.2 ⟨c, hmem, rfl⟩
  rw [hl, List.mem_cons] at he
  rcases he with rfl | he
  · exact le_rfl
  · exact (List.pairwise_cons.1 hsorted).1 _ he

lemma le_head_reverse {l : List (ℕ × OrderedSet ShardId)}
    (hl : (loads m candidates).reverse = e :: l) : ∀ c ∈ candidates, m.load c.toString ≤ e.1 := by
  intro c hmem
  have hsorted : (e :: l).Pairwise fun a b => b.1 ≤ a.1 :=
    hl ▸ List.pairwise_reverse.2 pairwise_loads
  have he : (m.load c.toString, m.shardsOf c.toString) ∈ (loads m candidates).reverse :=
    List.mem_reverse.2 (mem_loads.2 ⟨c, hmem, rfl⟩)
  rw [hl, List.mem_cons] at he
  rcases he with rfl | he
  · exact le_rfl
  · exact (List.pairwise_cons.1 hsorted).1 _ he

/-- A pass begins with a shard of a node that is no candidate. Where there is none, it begins
with a shard of a busiest candidate, or is empty since the loads are closer than the threshold. -/
lemma rebalance_cases (hthreshold : 0 < strategy.rebalanceThreshold)
    (hmax : 1 ≤ strategy.maxSimultaneousRebalance) (hc : candidates ≠ []) :
    (∃ t rest a, (rebalance strategy m candidates OrderedSet.empty).elems = t :: rest ∧
      a ∉ candidates.map NodeAddress.toString ∧ t ∈ m.shardsOf a) ∨
    (∀ a, a ∉ candidates.map NodeAddress.toString → ∀ t, t ∉ m.shardsOf a) ∧
      ((rebalance strategy m candidates OrderedSet.empty).elems = [] ∧
          (∀ c ∈ candidates, ∀ c' ∈ candidates,
            (m.load c.toString : ℚ) < m.load c'.toString + strategy.rebalanceThreshold) ∨
        ∃ t rest, (rebalance strategy m candidates OrderedSet.empty).elems = t :: rest ∧
          ∃ c ∈ candidates, t ∈ m.shardsOf c.toString ∧ ∃ z ∈ candidates,
            m.load z.toString + strategy.rebalanceThreshold ≤ (m.load c.toString : ℚ) ∧
              ∀ c' ∈ candidates, m.load z.toString ≤ m.load c'.toString ∧
                m.load c'.toString ≤ m.load c.toString) := by
  cases hoff : (shardsOffNonCandidates strategy m candidates OrderedSet.empty).elems with
  | cons t l =>
    obtain ⟨rest, hrest⟩ :=
      hoff ▸ (adds_rebalance strategy OrderedSet.empty m candidates).first
    have hmem : t ∈ shardsOffNonCandidates strategy m candidates OrderedSet.empty :=
      (OrderedSet.mem_def _ _).2 (hoff ▸ List.mem_cons_self)
    obtain ⟨a, ha, ht⟩ := ((adds_shardsOff strategy OrderedSet.empty).mem t hmem).resolve_left
      (OrderedSet.not_mem_empty t)
    exact .inl ⟨t, l ++ rest, a, hrest.symm, ha, ht⟩
  | nil =>
    have hothers := shardsOff_eq_nil strategy hmax hoff
    have hempty : shardsOffNonCandidates strategy m candidates OrderedSet.empty =
        OrderedSet.empty := OrderedSet.ext hoff
    refine .inr ⟨fun a ha t ht => ?_, ?_⟩
    · have hmem := mem_shardsOfOthers.2 ⟨a, ha, ht⟩
      rw [hothers] at hmem
      cases hmem
    rw [rebalance, hempty]
    split
    · rename_i hlength
      obtain ⟨c, rfl⟩ : ∃ c, candidates = [c] := by
        rw [← List.length_eq_one_iff]
        have := List.length_pos_iff.2 hc
        omega
      refine .inl ⟨rfl, fun c₁ h₁ c₂ h₂ => ?_⟩
      rw [List.mem_singleton.1 h₁, List.mem_singleton.1 h₂]
      linarith
    · split
      · rename_i min least l max shards rest hl hrev
        have hleast := head_loads_le hl
        have hmost := le_head_reverse hrev
        split
        · rename_i hspread
          refine .inl ⟨rfl, fun c h₁ c' h₂ => ?_⟩
          have hle : (m.load c.toString : ℚ) ≤ max := by exact_mod_cast hmost c h₁
          have hge : (min : ℚ) ≤ m.load c'.toString := by exact_mod_cast hleast c' h₂
          linarith
        · rename_i hspread
          obtain ⟨z, hz, hzload⟩ := mem_loads.1 (hl ▸ List.mem_cons_self)
          obtain ⟨c, hmem, hcload⟩ := mem_loads.1 (List.mem_reverse.1 (hrev ▸ List.mem_cons_self))
          obtain ⟨rfl, -⟩ := hzload
          obtain ⟨rfl, rfl⟩ := hcload
          obtain ⟨t, l, ht⟩ : ∃ t l, (m.shardsOf c.toString).elems = t :: l := by
            refine List.exists_cons_of_length_pos ?_
            have hpos : (0 : ℚ) < m.load c.toString := by
              linarith
            exact_mod_cast hpos
          have hremaining : 0 < strategy.maxSimultaneousRebalance -
              ((OrderedSet.empty : OrderedSet ShardId).size : ℚ) := by
            simp only [OrderedSet.size, OrderedSet.empty, List.length_nil, Nat.cast_zero]
            linarith
          obtain ⟨later, hlater⟩ :=
            drain_head strategy hremaining (not_lt.1 hspread) ht rest
          refine .inr ⟨t, later, hlater.symm, c, hmem, ?_, z, hz, by linarith,
            fun c' h => ⟨hleast c' h, hmost c' h⟩⟩
          rw [OrderedSet.mem_def, ht]
          exact List.mem_cons_self
      · rename_i hno
        exfalso
        cases hl : loads m candidates with
        | nil =>
          have hlen := congrArg List.length hl
          rw [loads, List.length_mergeSort, List.length_map] at hlen
          exact hc (List.length_eq_zero_iff.1 hlen)
        | cons e l =>
          cases hrev : (loads m candidates).reverse with
          | nil => simp [hl] at hrev
          | cons e' l' => exact hno _ _ _ _ _ _ hl hrev

end Rebalance

end LeastShardAllocationStrategy

/-! ### Passes over an assignment -/

/-- The node of each shard. -/
abbrev Assignment := OrderedMap ShardId JsString

namespace Assignment

def shardsOf (h : Assignment) (address : JsString) : OrderedSet ShardId :=
  ⟨h.keysWhere fun a => decide (a = address),
    h.nodupKeys.sublist (filter_sublist.map Prod.fst)⟩

def currentShards (h : Assignment) : ShardMap :=
  OrderedMap.collect h.values fun address => some (h.shardsOf address)

def load (h : Assignment) (address : JsString) : ℕ := (h.shardsOf address).size

variable (localeCompare : JsString → JsString → ℤ) (strategy : LeastShardAllocationStrategy)
  (candidates : List NodeAddress)

def rehome (h : Assignment) (shardId : ShardId) : Except JsString Assignment := do
  let rest := h.delete shardId
  let node ← LeastShardAllocationStrategy.allocate localeCompare candidates
    (currentShards rest)
  return rest.set shardId node.toString

def proposed (h : Assignment) : List ShardId :=
  (strategy.rebalance h.currentShards candidates OrderedSet.empty).elems

def pass (h : Assignment) : Except JsString Assignment :=
  (proposed strategy candidates h).foldlM (rehome localeCompare candidates) h

def passes : ℕ → Assignment → Except JsString Assignment
  | 0, h => .ok h
  | n + 1, h => do passes n (← pass localeCompare strategy candidates h)

/-- After finitely many passes nothing is proposed. -/
def Settles (h : Assignment) : Prop :=
  ∃ n h', passes localeCompare strategy candidates n h = .ok h' ∧
    proposed strategy candidates h' = []

def addresses : Finset JsString := (candidates.map NodeAddress.toString).toFinset

/-- How many shards are on nodes that are no candidates. -/
def off (h : Assignment) : ℕ :=
  (h.keysWhere fun a => !decide (a ∈ addresses candidates)).length

def potential (h : Assignment) : ℕ :=
  2 * (h.size * off candidates h) + ∑ a ∈ addresses candidates, h.load a ^ 2

lemma shardsOf_currentShards (h : Assignment) (address : JsString) :
    h.currentShards.shardsOf address = h.shardsOf address := by
  rw [ShardMap.shardsOf, currentShards, get?_collect]
  split
  · rfl
  · rename_i hno
    refine OrderedSet.ext (Eq.symm (eq_nil_iff_forall_not_mem.2 fun k hk => ?_))
    have hk' : k ∈ h.keysWhere fun a => decide (a = address) := hk
    obtain ⟨a, ha, heq⟩ := (mem_keysWhere_iff _ h k).1 hk'
    rw [decide_eq_true_eq] at heq
    subst heq
    exact hno (mem_map.2 ⟨_, (h.get?_eq_some_iff k _).1 ha, rfl⟩)

lemma load_currentShards (h : Assignment) (address : JsString) :
    h.currentShards.load address = h.load address := by
  rw [ShardMap.load, shardsOf_currentShards, load]

lemma sum_load (h : Assignment) :
    ∑ a ∈ addresses candidates, h.load a + off candidates h = h.size := by
  have hsum : ∀ l : List (ShardId × JsString),
      ∑ a ∈ addresses candidates, (l.filter fun q => decide (q.2 = a)).length =
        (l.filter fun q => decide (q.2 ∈ addresses candidates)).length := by
    intro l
    induction l with
    | nil => simp
    | cons q l ih =>
      have hcons : ∀ a, ((q :: l).filter fun q => decide (q.2 = a)).length =
          (l.filter fun q => decide (q.2 = a)).length + if q.2 = a then 1 else 0 := by
        intro a
        by_cases hq : q.2 = a <;> simp [hq]
      simp only [hcons, sum_add_distrib, ih, sum_ite_eq]
      by_cases hq : q.2 ∈ addresses candidates <;> simp [hq]
  have hload : ∀ a, h.load a = (h.entries.filter fun q => decide (q.2 = a)).length := fun a => by
    simp [load, OrderedSet.size, shardsOf, keysWhere]
  simp only [hload, hsum]
  have hsplit := length_keysWhere_add_not (fun a : JsString => decide (a ∈ addresses candidates)) h
  rwa [keysWhere, length_map] at hsplit

/-- How the shards whose nodes are so change in number when a shard moves. -/
lemma length_keysWhere_move (p : JsString → Bool) {h : Assignment} {t : ShardId} {x : JsString}
    (ht : h.get? t = some x) (y : JsString) :
    (((h.delete t).set t y).keysWhere p).length + (if p x then 1 else 0) =
      (h.keysWhere p).length + if p y then 1 else 0 := by
  have hdelete := length_keysWhere_delete p h t
  have hset := length_keysWhere_set p (h.delete t) t y
  rw [get?_delete, if_pos rfl] at hset
  rw [ht] at hdelete
  simp only [any_some, any_none, false_eq_true, if_false, add_zero] at hdelete hset
  omega

variable {candidates} {h : Assignment} {t : ShardId} {x : JsString}

lemma rehome_ok (hc : candidates ≠ []) (ht : h.get? t = some x) :
    ∃ y ∈ addresses candidates, rehome localeCompare candidates h t = .ok ((h.delete t).set t y) ∧
      Loads.Moves x y h.load (load ((h.delete t).set t y)) ∧
      ∀ a ∈ addresses candidates,
        h.load y + (if x = a then 1 else 0) ≤ h.load a + if x = y then 1 else 0 := by
  obtain ⟨best, hbest, hallocate, hleast⟩ := LeastShardAllocationStrategy.allocate_ok
    localeCompare candidates (currentShards (h.delete t)) hc
  have hdelete : ∀ a, load (h.delete t) a + (if x = a then 1 else 0) = h.load a := by
    intro a
    have hlength := length_keysWhere_delete (fun b => decide (b = a)) h t
    rw [ht] at hlength
    simpa [load, OrderedSet.size, shardsOf] using hlength
  refine ⟨best.toString, mem_toFinset.2 (mem_map_of_mem hbest), ?_, fun a => ?_, fun a ha => ?_⟩
  · rw [rehome, hallocate]
    rfl
  · have hlength := length_keysWhere_move (fun b => decide (b = a)) ht best.toString
    simpa [load, OrderedSet.size, shardsOf] using hlength
  · obtain ⟨c, hmem, rfl⟩ := mem_map.1 (mem_toFinset.1 ha)
    have hle := hleast c hmem
    rw [load_currentShards, load_currentShards] at hle
    have h1 := hdelete best.toString
    have h2 := hdelete c.toString
    omega

lemma size_move (ht : h.get? t = some x) (y : JsString) :
    ((h.delete t).set t y).size = h.size := by
  have hall := length_keysWhere_move (fun _ => true) ht y
  simpa [keysWhere, OrderedMap.size] using hall

/-- A shard placed anew raises no potential, and lowers it off a node that is no candidate or holds
two shards more than one. -/
lemma potential_rehome (hc : candidates ≠ []) (ht : h.get? t = some x) :
    ∃ y, rehome localeCompare candidates h t = .ok ((h.delete t).set t y) ∧
      potential candidates ((h.delete t).set t y) ≤ potential candidates h ∧
      (x ∉ addresses candidates ∨ (∃ z ∈ addresses candidates, h.load z + 2 ≤ h.load x) →
        potential candidates ((h.delete t).set t y) < potential candidates h) := by
  obtain ⟨y, hy, hok, hmoves, hleast⟩ := rehome_ok localeCompare hc ht
  have hoff := length_keysWhere_move (fun a => !decide (a ∈ addresses candidates)) ht y
  have hsum := sum_load candidates h
  have hload : h.load y ≤ ∑ a ∈ addresses candidates, h.load a :=
    Finset.single_le_sum (fun _ _ => Nat.zero_le _) hy
  refine ⟨y, hok, ?_⟩
  rw [potential, potential, size_move ht]
  rw [← off, ← off] at hoff
  by_cases hx : x ∈ addresses candidates
  · simp only [hx, hy, decide_true, Bool.not_true, Bool.false_eq_true, if_false, add_zero] at hoff
    rw [hoff]
    have hx' := hleast x hx
    by_cases hne : x = y
    · subst hne
      rw [hmoves.eq_of_self]
      refine ⟨le_rfl, fun hz => ?_⟩
      obtain ⟨z, hz, hlt⟩ := hz.resolve_left (not_not.2 hx)
      have hz' := hleast z hz
      split at hz' <;> simp only [if_true] at hz' <;> omega
    · have hsq := hmoves.sum_sq (K := addresses candidates) hne
      simp only [hx, hy, if_true] at hsq
      simp only [if_true, if_neg hne] at hx'
      refine ⟨by omega, fun hz => ?_⟩
      obtain ⟨z, hz, hlt⟩ := hz.resolve_left (not_not.2 hx)
      have hz' := hleast z hz
      split at hz' <;> omega
  · have hne : x ≠ y := fun hxy => hx (hxy ▸ hy)
    have hsq := hmoves.sum_sq (K := addresses candidates) hne
    simp only [hx, hy, if_true, if_false, add_zero] at hsq
    simp only [hx, hy, decide_true, decide_false, Bool.not_true, Bool.not_false,
      Bool.false_eq_true, if_true, if_false, add_zero] at hoff
    -- The move frees one unit of the first summand, which outweighs what the square gains.
    have hfirst : h.size * off candidates h =
        h.size * off candidates ((h.delete t).set t y) + h.size := by
      rw [← hoff, Nat.mul_succ]
    have hlt : 2 * (h.size * off candidates ((h.delete t).set t y)) +
        ∑ a ∈ addresses candidates, load ((h.delete t).set t y) a ^ 2 <
          2 * (h.size * off candidates h) + ∑ a ∈ addresses candidates, h.load a ^ 2 := by
      omega
    exact ⟨hlt.le, fun _ => hlt⟩

lemma foldlM_rehome (hc : candidates ≠ []) (l : List ShardId) :
    ∀ h : Assignment, (∀ t ∈ l, t ∈ h.keys) →
      ∃ h', l.foldlM (rehome localeCompare candidates) h = .ok h' ∧
        potential candidates h' ≤ potential candidates h ∧ h'.size = h.size := by
  induction l with
  | nil => exact fun h _ => ⟨h, rfl, le_rfl, rfl⟩
  | cons t l ih =>
    intro h hmem
    obtain ⟨x, hx⟩ := (h.mem_keys_iff t).1 (hmem t mem_cons_self)
    obtain ⟨y, hok, hle, -⟩ := potential_rehome localeCompare hc hx
    have hkeys : ∀ s ∈ l, s ∈ keys ((h.delete t).set t y) := by
      intro s hs
      rw [mem_keys_set, mem_keys_delete]
      tauto
    obtain ⟨h', hfold, hle', hsize⟩ := ih _ hkeys
    refine ⟨h', ?_, hle'.trans hle, hsize.trans (size_move hx y)⟩
    rw [foldlM_cons, hok]
    exact hfold

variable {strategy}

lemma mem_keys_of_mem_shardsOf {a : JsString} (ht : t ∈ h.currentShards.shardsOf a) :
    h.get? t = some a := by
  rw [shardsOf_currentShards] at ht
  have ht' : t ∈ h.keysWhere fun b => decide (b = a) := ht
  obtain ⟨b, hb, heq⟩ := (mem_keysWhere_iff _ h t).1 ht'
  rw [hb, of_decide_eq_true heq]

lemma mem_keys_of_mem_proposed (ht : t ∈ proposed strategy candidates h) : t ∈ h.keys := by
  obtain ⟨a, ha⟩ := LeastShardAllocationStrategy.mem_rebalance strategy OrderedSet.empty ht
  exact (h.mem_keys_iff t).2 ⟨a, mem_keys_of_mem_shardsOf ha⟩

lemma pass_ok (strategy : LeastShardAllocationStrategy) (hc : candidates ≠ []) (h : Assignment) :
    ∃ h', pass localeCompare strategy candidates h = .ok h' ∧
      potential candidates h' ≤ potential candidates h ∧ h'.size = h.size :=
  foldlM_rehome localeCompare hc _ h fun _ ht => mem_keys_of_mem_proposed ht

/-- A pass that begins with a move that lowers the potential lowers it. -/
lemma pass_lt (hc : candidates ≠ []) {rest : List ShardId}
    (hproposed : proposed strategy candidates h = t :: rest) (ht : h.get? t = some x)
    (hx : x ∉ addresses candidates ∨ ∃ z ∈ addresses candidates, h.load z + 2 ≤ h.load x) :
    ∃ h', pass localeCompare strategy candidates h = .ok h' ∧
      potential candidates h' < potential candidates h ∧ h'.size = h.size := by
  obtain ⟨y, hok, -, hlt⟩ := potential_rehome localeCompare hc ht
  have hkeys : ∀ s ∈ rest, s ∈ keys ((h.delete t).set t y) := by
    intro s hs
    rw [mem_keys_set, mem_keys_delete]
    have hmem : s ∈ proposed strategy candidates h := hproposed ▸ mem_cons_of_mem t hs
    have hkey := mem_keys_of_mem_proposed hmem
    tauto
  obtain ⟨h', hfold, hle, hsize⟩ := foldlM_rehome localeCompare hc rest _ hkeys
  refine ⟨h', ?_, hle.trans_lt (hlt hx), hsize.trans (size_move ht y)⟩
  rw [pass, hproposed, foldlM_cons, hok]
  exact hfold

/-- Where shards share out evenly, loads within one of each other are all alike. -/
lemma load_eq_of_dvd {z : JsString} (hz : z ∈ addresses candidates)
    (hoff : off candidates h = 0) (hdvd : (addresses candidates).card ∣ h.size)
    (hle : ∀ a ∈ addresses candidates, h.load z ≤ h.load a ∧ h.load a ≤ h.load z + 1) :
    ∀ a ∈ addresses candidates, h.load a = h.load z := by
  refine Loads.eq_of_card_dvd_sum hz hle ?_
  rwa [← sum_load candidates h, hoff, add_zero] at hdvd

lemma off_eq_zero (hno : ∀ a, a ∉ candidates.map toString →
    ∀ t, t ∉ h.currentShards.shardsOf a) : off candidates h = 0 := by
  rw [off, length_eq_zero_iff, eq_nil_iff_forall_not_mem]
  intro t ht
  obtain ⟨a, ha, hmem⟩ := (mem_keysWhere_iff _ h t).1 ht
  have hmem' : a ∉ candidates.map toString := by
    simpa [addresses] using hmem
  refine hno a hmem' t ?_
  rw [shardsOf_currentShards]
  have hkey : t ∈ h.keysWhere fun b => decide (b = a) :=
    (mem_keysWhere_iff _ h t).2 ⟨a, ha, decide_eq_true rfl⟩
  exact hkey

lemma forall_addresses {P : JsString → Prop} :
    (∀ a ∈ addresses candidates, P a) ↔ ∀ c ∈ candidates, P c.toString := by
  simp [addresses]

/-- As long as something is proposed, a pass lowers the potential: the threshold keeps the
loads it moves between two apart, or else an even share does. -/
lemma pass_lowers (hthreshold : 1 ≤ strategy.rebalanceThreshold)
    (hmax : 1 ≤ strategy.maxSimultaneousRebalance) (hc : candidates ≠ [])
    (hsettles : 1 < strategy.rebalanceThreshold ∨ (addresses candidates).card ∣ h.size)
    (hproposed : proposed strategy candidates h ≠ []) :
    ∃ h', pass localeCompare strategy candidates h = .ok h' ∧
      potential candidates h' < potential candidates h ∧ h'.size = h.size := by
  obtain ⟨t, rest, a, hcons, ha, ht⟩ | ⟨hno, ⟨hnil, -⟩ | ⟨t, rest, hcons, c, hcmem, ht, z, hz,
      hspread, hbounds⟩⟩ :=
    LeastShardAllocationStrategy.rebalance_cases strategy (m := h.currentShards)
      (lt_of_lt_of_le one_pos hthreshold) hmax hc
  · refine pass_lt localeCompare hc hcons (mem_keys_of_mem_shardsOf ht) (.inl ?_)
    rwa [addresses, List.mem_toFinset]
  · exact absurd hnil hproposed
  · have hzmem : z.toString ∈ addresses candidates :=
      mem_toFinset.2 (mem_map_of_mem hz)
    have hcmem' : c.toString ∈ addresses candidates :=
      mem_toFinset.2 (mem_map_of_mem hcmem)
    simp only [load_currentShards] at hspread hbounds
    refine pass_lt localeCompare hc hcons (mem_keys_of_mem_shardsOf ht) (.inr ⟨z.toString, hzmem, ?_⟩)
    have hone : h.load z.toString + 1 ≤ h.load c.toString := by
      have hcast : (h.load z.toString : ℚ) + 1 ≤ h.load c.toString := by linarith
      exact_mod_cast hcast
    rcases hsettles with hgt | hdvd
    · have hcast : (h.load z.toString : ℚ) + 1 < h.load c.toString := by linarith
      have hlt : h.load z.toString + 1 < h.load c.toString := by exact_mod_cast hcast
      omega
    · by_contra hclose
      have hall := load_eq_of_dvd hzmem (off_eq_zero hno) hdvd
        (forall_addresses.2 fun c' hc' => ⟨(hbounds c' hc').1, by
          have hle := (hbounds c' hc').2
          omega⟩) c.toString hcmem'
      omega

lemma settles_of (hthreshold : 1 ≤ strategy.rebalanceThreshold)
    (hmax : 1 ≤ strategy.maxSimultaneousRebalance) (hc : candidates ≠ []) (k : ℕ) :
    ∀ h : Assignment, (1 < strategy.rebalanceThreshold ∨ (addresses candidates).card ∣ h.size) →
      potential candidates h ≤ k → Settles localeCompare strategy candidates h := by
  induction k with
  | zero =>
    intro h hsettles hk
    by_cases hproposed : proposed strategy candidates h = []
    · exact ⟨0, h, rfl, hproposed⟩
    · obtain ⟨h', -, hlt, -⟩ := pass_lowers localeCompare hthreshold hmax hc hsettles hproposed
      omega
  | succ k ih =>
    intro h hsettles hk
    by_cases hproposed : proposed strategy candidates h = []
    · exact ⟨0, h, rfl, hproposed⟩
    · obtain ⟨h', hpass, hlt, hsize⟩ := pass_lowers localeCompare hthreshold
        hmax hc hsettles hproposed
      obtain ⟨n, last, hpasses, hnil⟩ := ih h' (by rwa [hsize]) (by omega)
      refine ⟨n + 1, last, ?_, hnil⟩
      rw [passes, hpass]
      exact hpasses

lemma size_of_passes (hc : candidates ≠ []) (n : ℕ) :
    ∀ h h' : Assignment, passes localeCompare strategy candidates n h = .ok h' →
      h'.size = h.size := by
  induction n with
  | zero =>
    intro h h' hok
    cases hok
    rfl
  | succ n ih =>
    intro h h' hok
    obtain ⟨mid, hpass, -, hsize⟩ := pass_ok localeCompare strategy hc h
    rw [passes, hpass] at hok
    exact (ih mid h' hok).trans hsize

/-- With a threshold of 1 an assignment is settled only if its shards share out evenly. -/
lemma dvd_of_settled (hthreshold : strategy.rebalanceThreshold = 1)
    (hmax : 1 ≤ strategy.maxSimultaneousRebalance) (hc : candidates ≠ [])
    (hnil : proposed strategy candidates h = []) : (addresses candidates).card ∣ h.size := by
  obtain ⟨t, rest, a, hcons, -⟩ | ⟨hno, ⟨-, hclose⟩ | ⟨t, rest, hcons, -⟩⟩ :=
    LeastShardAllocationStrategy.rebalance_cases strategy (m := h.currentShards)
      (hthreshold ▸ one_pos) hmax hc
  · exact nomatch hnil.symm.trans hcons
  · simp only [load_currentShards, hthreshold] at hclose
    obtain ⟨c, hcmem⟩ := exists_mem_of_ne_nil candidates hc
    have heq : ∀ a ∈ addresses candidates, h.load a = h.load c.toString := by
      refine forall_addresses.2 fun c' hc' => ?_
      have h1 : h.load c.toString < h.load c'.toString + 1 := by
        exact_mod_cast hclose c hcmem c' hc'
      have h2 : h.load c'.toString < h.load c.toString + 1 := by
        exact_mod_cast hclose c' hc' c hcmem
      omega
    rw [← sum_load candidates h, off_eq_zero hno, add_zero, sum_const_nat heq]
    exact Dvd.intro _ rfl
  · exact nomatch hnil.symm.trans hcons

lemma not_settles (hthreshold : strategy.rebalanceThreshold = 1)
    (hmax : 1 ≤ strategy.maxSimultaneousRebalance) (hc : candidates ≠ [])
    (hdvd : ¬ (addresses candidates).card ∣ h.size) :
    ¬ Settles localeCompare strategy candidates h := by
  rintro ⟨n, last, hpasses, hnil⟩
  refine hdvd ?_
  rw [← size_of_passes localeCompare hc n h last hpasses]
  exact dvd_of_settled hthreshold hmax hc hnil

variable (strategy) (candidates) (h)

/-- Passes come to an end exactly where the threshold is above 1 or the shards share out
evenly among the nodes of the candidates. -/
theorem settles_iff (hthreshold : 1 ≤ strategy.rebalanceThreshold)
    (hmax : 1 ≤ strategy.maxSimultaneousRebalance) (hc : candidates ≠ []) :
    Settles localeCompare strategy candidates h ↔
      1 < strategy.rebalanceThreshold ∨ (addresses candidates).card ∣ h.size := by
  constructor
  · intro hsettles
    by_contra hno
    push Not at hno
    exact not_settles localeCompare (le_antisymm hno.1 hthreshold) hmax hc hno.2 hsettles
  · exact fun hsettles => settles_of localeCompare hthreshold hmax hc _ h hsettles le_rfl

/-- The nodes of the runs below. -/
def node (port : ℕ) : NodeAddress := ⟨"app", "host", port, none⟩

theorem settles_iff_three : Settles (fun _ _ => 0) {} [node 1, node 2, node 3]
    (OrderedMap.empty.set 0 (node 1).toString) ↔
      1 < ({} : LeastShardAllocationStrategy).rebalanceThreshold ∨
        (addresses [node 1, node 2, node 3]).card ∣
          (OrderedMap.empty.set 0 (node 1).toString : Assignment).size :=
  settles_iff _ _ _ _ (by decide +kernel) (by decide +kernel) (by simp)

/-- With the threshold that is the default one shard goes back and forth between two nodes. -/
theorem not_settles_two : ¬ Settles (fun _ _ => 0) {} [node 1, node 2]
    (OrderedMap.empty.set 0 (node 1).toString) :=
  not_settles _ rfl (by decide +kernel) (by simp) (by decide +kernel)

end Assignment

end ActorTs.Cluster.Sharding
