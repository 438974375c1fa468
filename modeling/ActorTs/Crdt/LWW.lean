import ActorTs.Library.JsonString
import ActorTs.Library.MergeLaws
import ActorTs.Crdt.ORSet
import Mathlib

/-!
# The last-writer-wins register and the map of such registers

A register is a value with the stamp of the write that put it there, a timestamp
and the id of the writing replica. A merge keeps one of the two registers: the
one with the larger stamp, where a timestamp of zero counts as no write at all.

On registers no two of which carry the same stamp with different values, and of which at most one is
stamped zero, the merge is a semilattice operation, and so is the merge of maps, read key by key.
-/

namespace ActorTs

open MergeTree

/-- The value `none` is `null`: the empty register and, in a map, a tombstone. -/
@[ext] structure LWWRegister (V : Type*) where
  value : Option V
  timestamp : ℚ
  replica : ReplicaId
  deriving DecidableEq

namespace LWWRegister

variable {V : Type*}

def empty : LWWRegister V := ⟨none, 0, []⟩

/-- The register after a write, whatever it held before. -/
def assign (_ : LWWRegister V) (replica : ReplicaId) (value : Option V) (timestamp : ℚ) :
    LWWRegister V :=
  ⟨value, timestamp, replica⟩

def merge (r other : LWWRegister V) : LWWRegister V :=
  if r.timestamp = 0 then other
  else if other.timestamp = 0 then r
  else if other.timestamp > r.timestamp then other
  else if other.timestamp < r.timestamp then r
  else if other.replica > r.replica then other else r

/-- `stringify` is the JSON text of a value, `none` where there is none. -/
def equals (stringify : Option V → Option JsString) (r other : LWWRegister V) : Bool :=
  r.timestamp = other.timestamp && r.replica = other.replica &&
    stringify r.value = stringify other.value

/-- The JSON form, less its `kind`. -/
structure Json (V : Type*) where
  value : Option V
  timestamp : ℚ
  replica : ReplicaId

def toJSON (r : LWWRegister V) : Json V := ⟨r.value, r.timestamp, r.replica⟩

/-- A timestamp has to be plausible: not negative, and not beyond `latest`, the
present and some allowance for skew. -/
def fromJSON (latest : ℚ) (json : Json V) : Option (LWWRegister V) :=
  if json.timestamp < 0 ∨ json.timestamp > latest then none
  else some ⟨json.value, json.timestamp, json.replica⟩

variable {r : LWWRegister V}

lemma fromJSON_toJSON {latest : ℚ} (hlow : 0 ≤ r.timestamp) (hhigh : r.timestamp ≤ latest) :
    fromJSON latest r.toJSON = some r := by
  have hplausible : ¬ (r.toJSON.timestamp < 0 ∨ r.toJSON.timestamp > latest) :=
    not_or.2 ⟨not_lt.2 hlow, not_lt.2 hhigh⟩
  rw [fromJSON, if_neg hplausible]
  rfl

@[simp] lemma equals_self (stringify : Option V → Option JsString) (r : LWWRegister V) :
    r.equals stringify r = true := by
  simp [equals]

/-- No two registers of the set are stamped alike and differ, where the stamps
with timestamp zero are all alike. -/
def TieFree (S : Set (LWWRegister V)) : Prop :=
  ∀ r ∈ S, ∀ other ∈ S, r.timestamp = other.timestamp →
    r.timestamp = 0 ∨ r.replica = other.replica → r = other

/-- The stamp by which writes are ordered: the timestamp, then the replica, and
below all of them the timestamp zero. -/
def stamp (r : LWWRegister V) : WithBot (ℚ ×ₗ ReplicaId) :=
  if r.timestamp = 0 then ⊥ else ↑(toLex (r.timestamp, r.replica))

lemma merge_eq_or (r other : LWWRegister V) : r.merge other = r ∨ r.merge other = other := by
  unfold merge
  split_ifs <;> simp

lemma stamp_merge (r other : LWWRegister V) :
    (r.merge other).stamp = max r.stamp other.stamp := by
  by_cases hr : r.timestamp = 0
  · have hbot : r.stamp = ⊥ := if_pos hr
    rw [merge, if_pos hr, hbot, max_eq_right bot_le]
  by_cases ho : other.timestamp = 0
  · have hbot : other.stamp = ⊥ := if_pos ho
    rw [merge, if_neg hr, if_pos ho, hbot, max_eq_left bot_le]
  have hrs : r.stamp = ↑(toLex (r.timestamp, r.replica)) := if_neg hr
  have hos : other.stamp = ↑(toLex (other.timestamp, other.replica)) := if_neg ho
  rw [merge, if_neg hr, if_neg ho]
  rcases lt_trichotomy r.timestamp other.timestamp with hlt | heq | hgt
  · rw [if_pos hlt, max_eq_right]
    rw [hrs, hos, WithBot.coe_le_coe, Prod.Lex.toLex_le_toLex]
    exact .inl hlt
  · rw [if_neg (not_lt.2 heq.ge), if_neg (not_lt.2 heq.le)]
    by_cases hreplica : other.replica > r.replica
    · rw [if_pos hreplica, max_eq_right]
      rw [hrs, hos, WithBot.coe_le_coe, Prod.Lex.toLex_le_toLex]
      exact .inr ⟨heq, le_of_lt hreplica⟩
    · rw [if_neg hreplica, max_eq_left]
      rw [hrs, hos, WithBot.coe_le_coe, Prod.Lex.toLex_le_toLex]
      exact .inr ⟨heq.symm, le_of_not_gt hreplica⟩
  · rw [if_neg (not_lt.2 hgt.le), if_pos hgt, max_eq_left]
    rw [hrs, hos, WithBot.coe_le_coe, Prod.Lex.toLex_le_toLex]
    exact .inl hgt

variable {S : Set (LWWRegister V)}

lemma TieFree.eq_of_stamp (hS : TieFree S) {other : LWWRegister V} (hr : r ∈ S) (ho : other ∈ S)
    (h : r.stamp = other.stamp) : r = other := by
  unfold stamp at h
  by_cases hzero : r.timestamp = 0
  · by_cases hzero' : other.timestamp = 0
    · exact hS r hr other ho (hzero.trans hzero'.symm) (.inl hzero)
    · rw [if_pos hzero, if_neg hzero'] at h
      exact absurd h WithBot.bot_ne_coe
  · by_cases hzero' : other.timestamp = 0
    · rw [if_neg hzero, if_pos hzero'] at h
      exact absurd h WithBot.coe_ne_bot
    · rw [if_neg hzero, if_neg hzero', WithBot.coe_inj, toLex_inj, Prod.mk.injEq] at h
      exact hS r hr other ho h.1 (.inr h.2)

lemma merge_mem {other : LWWRegister V} (hr : r ∈ S) (ho : other ∈ S) : r.merge other ∈ S := by
  rcases merge_eq_or r other with h | h
  · rwa [h]
  · rwa [h]

lemma TieFree.semilatticeOn (hS : TieFree S) : SemilatticeOn (· ∈ S) Eq merge :=
  SemilatticeOn.of_rank (fun _ _ => merge_mem) stamp_merge fun _ _ hr ho => hS.eq_of_stamp hr ho

end LWWRegister

structure LWWMapEntry (K V : Type*) where
  key : K
  register : LWWRegister V

structure LWWMap (K V : Type*) where
  entries : OrderedMap JsString (LWWMapEntry K V)
  identity : K → JsString

namespace LWWMap

variable {K V : Type*}

def empty (identity : K → JsString) : LWWMap K V := ⟨OrderedMap.empty, identity⟩

/-- A write to the register of a key, whose first instance is kept. -/
def write (m : LWWMap K V) (replica : ReplicaId) (key : K) (value : Option V) (timestamp : ℚ) :
    LWWMap K V :=
  let id := m.identity key
  let existing := m.entries.get? id
  let register := ((existing.map LWWMapEntry.register).getD LWWRegister.empty).assign
    replica value timestamp
  { m with entries := m.entries.set id ⟨(existing.map LWWMapEntry.key).getD key, register⟩ }

def put (m : LWWMap K V) (replica : ReplicaId) (key : K) (value : V) (timestamp : ℚ) :
    LWWMap K V :=
  m.write replica key (some value) timestamp

/-- A remove is a write of `null`. -/
def remove (m : LWWMap K V) (replica : ReplicaId) (key : K) (timestamp : ℚ) : LWWMap K V :=
  m.write replica key none timestamp

def get (m : LWWMap K V) (key : K) : Option V :=
  match m.entries.get? (m.identity key) with
  | none => none
  | some entry => entry.register.value

def has (m : LWWMap K V) (key : K) : Bool := (m.get key).isSome

def mergeLWWMapEntry (ours theirs : LWWMapEntry K V) : LWWMapEntry K V :=
  ⟨ours.key, ours.register.merge theirs.register⟩

def merge (m other : LWWMap K V) : LWWMap K V :=
  { m with entries := m.entries.mergeInto mergeLWWMapEntry other.entries }

def equals (stringify : Option V → Option JsString) (m other : LWWMap K V) : Bool :=
  m.entries.equalsBy (fun entry otherEntry =>
    entry.register.equals stringify otherEntry.register) other.entries

/-- The register filed under an id. -/
def registerAt (id : JsString) (m : LWWMap K V) : Option (LWWRegister V) :=
  (m.entries.get? id).map LWWMapEntry.register

lemma registerAt_merge (id : JsString) (m other : LWWMap K V) :
    registerAt id (m.merge other) =
      Option.merge LWWRegister.merge (registerAt id m) (registerAt id other) := by
  rw [registerAt, merge, OrderedMap.get?_mergeInto, registerAt, registerAt]
  cases m.entries.get? id with
  | none => simp
  | some ours =>
    cases other.entries.get? id with
    | none => simp
    | some theirs => simp [mergeLWWMapEntry]

lemma get_eq_registerAt (m : LWWMap K V) (key : K) :
    m.get key = (registerAt (m.identity key) m).bind LWWRegister.value := by
  unfold get registerAt
  cases m.entries.get? (m.identity key) with
  | none => rfl
  | some entry => rfl

lemma equals_of_registerAt (stringify : Option V → Option JsString) {m other : LWWMap K V}
    (h : ∀ id, registerAt id m = registerAt id other) : m.equals stringify other = true := by
  refine (OrderedMap.equalsBy_iff _ _ _).2 fun id => ?_
  have hid := h id
  unfold registerAt at hid
  cases hm : m.entries.get? id with
  | none =>
    rw [hm, Option.map_none, eq_comm, Option.map_eq_none_iff] at hid
    exact .inl ⟨rfl, hid⟩
  | some entry =>
    rw [hm, Option.map_some, eq_comm, Option.map_eq_some_iff] at hid
    obtain ⟨otherEntry, hother, hregister⟩ := hid
    exact .inr ⟨entry, otherEntry, rfl, hother, by simp [hregister]⟩

variable {identity : K → JsString} {t : MergeTree (LWWMap K V)}

lemma identity_eval (h : ∀ m ∈ t.leaves, m.identity = identity) :
    (t.eval merge).identity = identity := by
  have hclosed : ∀ a b : LWWMap K V, a.identity = identity → b.identity = identity →
      (a.merge b).identity = identity := fun _ _ ha _ => ha
  exact eval_mem hclosed h

/-- The registers that some of the maps file under an id. -/
def registersAt (maps : Set (LWWMap K V)) (id : JsString) : Set (LWWRegister V) :=
  { r | ∃ m ∈ maps, registerAt id m = some r }

/-- Maps on one identity function whose writes to a key are told apart by their
stamps. -/
structure Compatible (identity : K → JsString) (maps : Set (LWWMap K V)) : Prop where
  identity_eq : ∀ m ∈ maps, m.identity = identity
  tieFree : ∀ id, LWWRegister.TieFree (registersAt maps id)

variable {maps : Set (LWWMap K V)}

lemma registerAt_eval (h : Compatible identity maps) {u : MergeTree (LWWMap K V)}
    (ht : ∀ m ∈ t.leaves, m ∈ maps) (hsame : ∀ m, m ∈ t.leaves ↔ m ∈ u.leaves) (id : JsString) :
    registerAt id (t.eval merge) = registerAt id (u.eval merge) := by
  rw [eval_map (registerAt_merge id), eval_map (registerAt_merge id)]
  refine eval_eq_of_leaves (h.tieFree id).semilatticeOn.option ?_ ?_ ?_
  · rintro (_ | a) (_ | b) ha hb r hr
    · cases hr
    · exact hb r hr
    · exact ha r hr
    · rw [Option.merge_some_some, Option.mem_some] at hr
      exact hr ▸ LWWRegister.merge_mem (ha a rfl) (hb b rfl)
  · intro o ho r hr
    rw [leaves_map] at ho
    obtain ⟨m, hm, rfl⟩ := List.mem_map.1 ho
    exact ⟨m, ht m hm, hr⟩
  · intro o
    rw [leaves_map, leaves_map]
    simp only [List.mem_map, hsame]

lemma equals_eval (h : Compatible identity maps) (stringify : Option V → Option JsString)
    {u : MergeTree (LWWMap K V)} (ht : ∀ m ∈ t.leaves, m ∈ maps)
    (hsame : ∀ m, m ∈ t.leaves ↔ m ∈ u.leaves) :
    (t.eval merge).equals stringify (u.eval merge) = true :=
  equals_of_registerAt stringify (registerAt_eval h ht hsame)

lemma Compatible.semilatticeOn (h : Compatible identity maps)
    (stringify : Option V → Option JsString) :
    SemilatticeOn (· ∈ maps) (fun m other => m.equals stringify other = true) merge := by
  refine ⟨?_, ?_, ?_, ?_⟩
  · intro a _
    exact equals_of_registerAt stringify fun _ => rfl
  · intro a ha
    have htree : ∀ m ∈ (MergeTree.node (.leaf a) (.leaf a)).leaves, m ∈ maps := by
      simpa [leaves] using ha
    exact equals_eval h stringify (u := .leaf a) htree (by simp [leaves])
  · intro a b ha hb
    have htree : ∀ m ∈ (MergeTree.node (.leaf a) (.leaf b)).leaves, m ∈ maps := by
      simpa [leaves] using ⟨ha, hb⟩
    exact equals_eval h stringify (u := .node (.leaf b) (.leaf a)) htree (by simp [leaves, or_comm])
  · intro a b c ha hb hc
    have htree : ∀ m ∈ (MergeTree.node (.node (.leaf a) (.leaf b)) (.leaf c)).leaves, m ∈ maps := by
      simpa [leaves] using ⟨ha, hb, hc⟩
    exact equals_eval h stringify (u := .node (.leaf a) (.node (.leaf b) (.leaf c))) htree
      (by simp [leaves])

lemma registerAt_put_empty {replica : ReplicaId} {key : K} {value : V} {timestamp : ℚ}
    {id : JsString} {r : LWWRegister V}
    (h : registerAt id ((empty identity).put replica key value timestamp) = some r) :
    r = ⟨some value, timestamp, replica⟩ := by
  simp only [registerAt, put, write, OrderedMap.get?_set, LWWRegister.assign] at h
  split at h
  · simpa [eq_comm] using h
  · simp [empty] at h

end LWWMap

end ActorTs
