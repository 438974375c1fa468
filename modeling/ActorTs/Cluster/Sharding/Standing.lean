import ActorTs.Cluster.Sharding.ShardRegion

/-!
# What a region knows of one shard

`Standing` is all that a placement says of one shard. Every update of a placement is about
one shard, or does the same to each, so there is one lemma for each update that says what
becomes of a standing.
-/

open List OrderedMap OrderedSet

namespace ActorTs.Cluster.Sharding

structure Standing where
  state : Option ShardState
  home : Option JsString
  homeNode : Option NodeAddress
  isLocal : Bool
  hasActor : Bool
  handingOff : Bool
  passivating : Bool
  releasing : Bool
  deriving DecidableEq

namespace Standing

variable (x : Standing)

def cannotTakeMessages : Bool :=
  x.state.any fun state => state = .handingOff ∨ state = .passivating ∨ state = .backingOff

def isStopping : Bool := x.handingOff || x.releasing || x.passivating

def withActor : Standing := { x with hasActor := true }

def filed (region : JsString) (node : NodeAddress) : Standing :=
  { x with home := some region, homeNode := some node }

def inState (state : ShardState) : Standing := { x with state := some state }

def here : Standing := { x with isLocal := true }

def away : Standing := { x with isLocal := false, state := none }

def startingHandOff : Standing := { x with handingOff := true }

def startingPassivation : Standing := { x with passivating := true, state := some .passivating }

def passivated : Standing :=
  { x with
    passivating := false, hasActor := false
    state := if x.isLocal then some .owned else none }

def declined : Standing :=
  { x with passivating := false, state := if x.isLocal then some .owned else x.state }

def backedOff : Standing :=
  { x with hasActor := false, state := if x.isLocal then some .backingOff else x.state }

/-- Nothing is known of where the shard is. -/
def withoutHome : Standing := { x with state := none, home := none, homeNode := none }

def forgotten : Standing :=
  { x with
    state := none, home := none, homeNode := none, isLocal := false, hasActor := false
    handingOff := false, passivating := false }

/-- The shard is given up, and stops if it has an actor. -/
def givenUp : Standing :=
  { x with
    state := none, home := none, homeNode := none, isLocal := false
    handingOff := x.handingOff && !x.hasActor, passivating := x.passivating && !x.hasActor
    releasing := x.releasing || x.hasActor }

def released : Standing := { x with releasing := false, hasActor := false }

end Standing

namespace Placement

variable (p : Placement) (k j : ShardId)

def standing : Standing where
  state := p.shardState.get? k
  home := p.shardHomes.get? k
  homeNode := p.shardHomeNodes.get? k
  isLocal := p.localShards.has k
  hasActor := p.shards.has k
  handingOff := p.handingOff.has k
  passivating := p.passivatingShards.has k
  releasing := p.releasingShards.has k

lemma cannotTakeMessages_standing :
    (p.standing k).cannotTakeMessages = p.shardCannotTakeMessages k := rfl

lemma isStopping_standing : (p.standing k).isStopping = p.isStopping k := rfl

variable (s : OrderedSet ShardId)

lemma has_add : (s.add k).has j = (decide (k = j) || s.has j) := by
  rw [Bool.eq_iff_iff, Bool.or_eq_true, decide_eq_true_iff, has_iff, has_iff, mem_add, eq_comm]

lemma has_delete : (s.delete k).has j = (s.has j && !decide (k = j)) := by
  rw [Bool.eq_iff_iff, Bool.and_eq_true, Bool.not_eq_true', decide_eq_false_iff_not,
    has_iff, has_iff, OrderedSet.mem_delete, ne_comm]

lemma has_addAll (l : List ShardId) : (s.addAll l).has j = (s.has j || decide (j ∈ l)) := by
  rw [Bool.eq_iff_iff]
  simp

lemma has_deleteAll (l : List ShardId) :
    (l.foldl OrderedSet.delete s).has j = (s.has j && !decide (j ∈ l)) := by
  induction l generalizing s with
  | nil => simp
  | cons i l ih =>
    rw [foldl_cons, ih, has_delete]
    by_cases h : i = j <;> simp [h, eq_comm (a := j)]

/-- From `p` to `q` the standing of one shard changed so. -/
def Updates (k : ShardId) (f : Standing → Standing) (p q : Placement) : Prop :=
  ∀ j, q.standing j = if k = j then f (p.standing j) else p.standing j

section Updates

variable {p : Placement} {k : ShardId} {q r : Placement} {f g : Standing → Standing}

lemma Updates.self (h : Updates k f p q) : q.standing k = f (p.standing k) :=
  (h k).trans (if_pos rfl)

lemma Updates.other (h : Updates k f p q) {j : ShardId} (hj : j ≠ k) :
    q.standing j = p.standing j := (h j).trans (if_neg (Ne.symm hj))

lemma Updates.trans (hpq : Updates k f p q) (hqr : Updates k g q r) :
    Updates k (fun x => g (f x)) p r := by
  intro j
  rw [hqr j, hpq j]
  split <;> rfl

end Updates

lemma updates_ensureShard : Updates k Standing.withActor p (p.ensureShard k) := by
  intro j
  by_cases h : k = j <;> simp [standing, ensureShard, Standing.withActor, has_add, h]

lemma updates_fileHome (region : JsString) (node : NodeAddress) :
    Updates k (Standing.filed · region node) p (p.fileHome k region node) := by
  intro j
  by_cases h : k = j <;> simp [standing, fileHome, Standing.filed, get?_set, h]

lemma updates_setState (state : ShardState) :
    Updates k (Standing.inState · state) p (p.setState k state) := by
  intro j
  by_cases h : k = j <;> simp [standing, setState, Standing.inState, get?_set, h]

lemma updates_addLocal : Updates k Standing.here p (p.addLocal k) := by
  intro j
  by_cases h : k = j <;> simp [standing, addLocal, Standing.here, has_add, h]

lemma updates_placed (region : JsString) (node : NodeAddress) (state : ShardState) :
    Updates k (fun x => ((x.filed region node).here).inState state) p
      (((p.fileHome k region node).addLocal k).setState k state) :=
  ((updates_fileHome p k region node).trans (updates_addLocal _ k)).trans (updates_setState _ k state)

lemma updates_leave : Updates k Standing.away p (p.leave k) := by
  intro j
  by_cases h : k = j <;> simp [standing, leave, Standing.away, dropShardFailure, has_delete,
    get?_delete, h]

lemma updates_startHandOff : Updates k Standing.startingHandOff p (p.startHandOff k) := by
  intro j
  by_cases h : k = j <;> simp [standing, startHandOff, Standing.startingHandOff, has_add, h]

lemma updates_forgetShard : Updates k Standing.forgotten p (p.forgetShard k) := by
  intro j
  by_cases h : k = j <;>
    simp [standing, forgetShard, Standing.forgotten, has_delete, get?_delete, h]

lemma updates_startPassivation :
    Updates k Standing.startingPassivation p (p.startPassivation k) := by
  intro j
  by_cases h : k = j <;> simp [standing, startPassivation, setState, Standing.startingPassivation,
    has_add, get?_set, h]

lemma updates_endPassivation : Updates k Standing.passivated p (p.endPassivation k) := by
  intro j
  unfold endPassivation
  dsimp only
  split
  · rename_i hlocal
    by_cases h : k = j
    · subst h
      simp [standing, setState, Standing.passivated, has_delete, hlocal]
    · simp [standing, setState, has_delete, get?_set, h]
  · rename_i hlocal
    by_cases h : k = j
    · subst h
      simp [standing, Standing.passivated, has_delete, get?_delete, hlocal]
    · simp [standing, has_delete, get?_delete, h]

lemma updates_declinePassivation : Updates k Standing.declined p (p.declinePassivation k) := by
  intro j
  unfold declinePassivation
  dsimp only
  split
  · rename_i hlocal
    by_cases h : k = j
    · subst h
      simp [standing, setState, Standing.declined, has_delete, hlocal]
    · simp [standing, setState, has_delete, get?_set, h]
  · rename_i hlocal
    by_cases h : k = j
    · subst h
      simp [standing, Standing.declined, has_delete, hlocal]
    · simp [standing, has_delete, h]

lemma updates_endRelease : Updates k Standing.released p (p.endRelease k) := by
  intro j
  by_cases h : k = j <;> simp [standing, endRelease, Standing.released, has_delete, h]

lemma standing_dropShardFailure : (p.dropShardFailure k).standing j = p.standing j := rfl

lemma updates_backOffShard : Updates k Standing.backedOff p (p.backOffShard k) := by
  intro j
  unfold backOffShard
  dsimp only
  split
  · rename_i hlocal
    rw [standing_dropShardFailure]
    by_cases h : k = j
    · subst h
      simp_all [standing, Standing.backedOff, has_delete]
    · simp [standing, has_delete, h]
  · rename_i hlocal
    rw [updates_setState, apply_ite fun q : Placement => q.standing j]
    by_cases h : k = j
    · subst h
      simp_all [standing, Standing.backedOff, Standing.inState, has_delete]
    · simp [standing, has_delete, h]

lemma standing_releaseEverything :
    p.releaseEverything.standing j = (p.standing j).givenUp := by
  simp only [standing, releaseEverything, Standing.givenUp, has_addAll, has_deleteAll]
  rfl

lemma standing_invalidateHomesOnNode (node : NodeAddress) :
    (p.invalidateHomesOnNode node).standing j =
      if (p.standing j).homeNode.any fun home => home.equals node then (p.standing j).withoutHome
      else p.standing j := by
  have hfold : ∀ (entries : List (ShardId × NodeAddress)) (q : Placement),
      (entries.foldl (fun p entry =>
        if entry.2.equals node then
          { p with
            shardHomes := p.shardHomes.delete entry.1
            shardHomeNodes := p.shardHomeNodes.delete entry.1
            shardState := p.shardState.delete entry.1 }
        else p) q).standing j =
      if entries.any fun entry => decide (entry.1 = j) && entry.2.equals node then
        (q.standing j).withoutHome
      else q.standing j := by
    intro entries
    induction entries with
    | nil => simp
    | cons entry entries ih =>
      intro q
      rw [foldl_cons, ih, any_cons]
      by_cases hnode : entry.2.equals node = true
      · by_cases hkey : entry.1 = j
        · simp [hnode, hkey, standing, get?_delete, Standing.withoutHome]
        · rw [decide_eq_false hkey, Bool.false_and, Bool.false_or, if_pos hnode]
          simp [hkey, standing, get?_delete]
      · rw [Bool.eq_false_iff.2 hnode, Bool.and_false, Bool.false_or]
        rfl
  have hany : (p.shardHomeNodes.entries.any fun entry =>
      decide (entry.1 = j) && entry.2.equals node) =
      ((p.standing j).homeNode.any fun home => home.equals node) := by
    rw [Bool.eq_iff_iff]
    simp only [standing, any_eq_true, Option.any_eq_true, get?_eq_some_iff,
      Bool.and_eq_true, decide_eq_true_iff]
    constructor
    · rintro ⟨⟨_, home⟩, hmem, rfl, hequals⟩
      exact ⟨home, hmem, hequals⟩
    · rintro ⟨home, hmem, hequals⟩
      exact ⟨(j, home), hmem, rfl, hequals⟩
  rw [invalidateHomesOnNode, hfold, hany]

end Placement

end ActorTs.Cluster.Sharding
