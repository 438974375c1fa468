import ActorTs.Library.JsonString
import ActorTs.Library.MergeLaws
import ActorTs.Crdt.ORSetRuns

/-!
# The observed-remove map

Which keys are live is decided by an `ORSet` of their ids; the values are kept
beside it, one entry for every id ever put, and merged by their own merge. A
remove touches only the set of ids: the entry stays, invisible, so that a later
merge that revives the key still has the value to merge with.

The runs of maps are read as runs of their keysets. What the map adds is one invariant, that every
live id has an entry, filed under its own id.
-/

open List Option OrderedMap JsonText

namespace ActorTs

open ORSet

/-- What the map asks of its values: a merge, and a comparison that is their
`equals` where they have one, and otherwise compares what `toJSON` writes. -/
class Crdt (V : Type*) where
  merge : V → V → V
  equals? : Option (V → V → Bool)
  jsonText : V → JsString

namespace Crdt

variable {V : Type*} [Crdt V]

def same (a b : V) : Bool :=
  match (equals? : Option (V → V → Bool)) with
  | some equals => equals a b
  | none => jsonText a == jsonText b

end Crdt

structure MapEntry (K V : Type*) where
  key : K
  value : V

structure ORMap (K V : Type*) where
  keyset : ORSet JsString
  entries : OrderedMap JsString (MapEntry K V)
  identity : K → JsString

namespace ORMap

variable {K V : Type*}

/-- The keyset is on the default identity, the JSON text of the id. -/
def empty (identity : K → JsString) : ORMap K V :=
  ⟨ORSet.empty JsonText.quote, OrderedMap.empty, identity⟩

/-- The map after a `put` whose keyset came out as `nextKeyset`. -/
def putEntry (m : ORMap K V) (nextKeyset : ORSet JsString) (key : K) (value : V) : ORMap K V :=
  { m with
    keyset := nextKeyset
    entries := m.entries.set (m.identity key) ⟨key, value⟩ }

def put (m : ORMap K V) (replica : ReplicaId) (key : K) (value : V) (draws : ℕ → JsString) :
    Option (ORMap K V) :=
  (m.keyset.add replica (m.identity key) draws).map fun nextKeyset =>
    m.putEntry nextKeyset key value

def get (m : ORMap K V) (key : K) : Option V :=
  let id := m.identity key
  if !m.keyset.has id then none else (m.entries.get? id).map MapEntry.value

def update (m : ORMap K V) (replica : ReplicaId) (key : K) (factory : Unit → V)
    (mutator : V → V) (draws : ℕ → JsString) : Option (ORMap K V) :=
  let current := (m.get key).getD (factory ())
  m.put replica key (mutator current) draws

def remove (m : ORMap K V) (key : K) : ORMap K V :=
  { m with keyset := m.keyset.remove (m.identity key) }

def has (m : ORMap K V) (key : K) : Bool := m.keyset.has (m.identity key)

/-- The entries whose id the keyset reports as live. -/
def liveEntries (m : ORMap K V) : List (JsString × MapEntry K V) :=
  m.entries.entries.filter fun p => m.keyset.has p.1

def keys (m : ORMap K V) : List K := m.liveEntries.map fun p => p.2.key

def entriesArray (m : ORMap K V) : List (K × V) :=
  m.liveEntries.map fun p => (p.2.key, p.2.value)

def size (m : ORMap K V) : ℕ := m.liveEntries.length

variable [Crdt V]

def mergeMapEntry (ours theirs : MapEntry K V) : MapEntry K V :=
  ⟨ours.key, Crdt.merge ours.value theirs.value⟩

def merge (m other : ORMap K V) : ORMap K V :=
  let allIds := (OrderedSet.empty.addAll m.entries.keys).addAll other.entries.keys
  { keyset := m.keyset.merge other.keyset
    entries := OrderedMap.collect allIds.elems fun id =>
      Option.merge mergeMapEntry (m.entries.get? id) (other.entries.get? id)
    identity := m.identity }

/-- The walk over the live ids. An id with an entry on neither side ends it with success, on one
side only with failure. -/
def entriesEqual (ours theirs : OrderedMap JsString (MapEntry K V)) : List JsString → Bool
  | [] => true
  | id :: ids =>
    match ours.get? id, theirs.get? id with
    | some entry, some otherEntry =>
      if Crdt.same entry.value otherEntry.value then entriesEqual ours theirs ids else false
    | none, none => true
    | _, _ => false

def equals (m other : ORMap K V) : Bool :=
  m.keyset.equals other.keyset && entriesEqual m.entries other.entries m.keyset.value

/-- A map whose keyset and entries agree: both are filed by identity, no live id
is without an entry. -/
structure Covered (identity : K → JsString) (m : ORMap K V) : Prop where
  identity_eq : m.identity = identity
  keyset_identity : m.keyset.identity = JsonText.quote
  keyset_filed : m.keyset.Filed
  filed : ∀ id entry, m.entries.get? id = some entry → identity entry.key = id
  live : ∀ id, m.keyset.has id = true → ∃ entry, m.entries.get? id = some entry

variable {identity : K → JsString}

omit [Crdt V] in
lemma covered_empty : Covered identity (empty identity : ORMap K V) where
  identity_eq := rfl
  keyset_identity := rfl
  keyset_filed := filed_empty _
  filed := by simp [empty]
  live := by
    intro id h
    simp [has_iff, empty] at h

variable {m : ORMap K V}

omit [Crdt V] in
lemma covered_putEntry (h : Covered identity m) (tag : JsString) (key : K) (value : V) :
    Covered identity (m.putEntry (m.keyset.addTag (m.identity key) tag) key value) where
  identity_eq := h.identity_eq
  keyset_identity := h.keyset_identity
  keyset_filed := filed_addTag h.keyset_filed _ _
  filed := by
    intro id entry hentry
    simp only [putEntry, get?_set] at hentry
    split at hentry
    · rename_i hid
      rw [some.injEq] at hentry
      rw [← hentry, ← hid, h.identity_eq]
    · exact h.filed id entry hentry
  live := by
    intro id hhas
    simp only [putEntry, get?_set]
    rcases (has_addTag _ _ _ _).1 hhas with hhas | hid
    · split
      · exact ⟨_, rfl⟩
      · exact h.live id hhas
    · rw [h.keyset_identity] at hid
      rw [if_pos (quote_injective hid).symm]
      exact ⟨_, rfl⟩

omit [Crdt V] in
lemma covered_remove (h : Covered identity m) (key : K) :
    Covered identity (m.remove key) where
  identity_eq := h.identity_eq
  keyset_identity := by rw [remove, identity_remove, h.keyset_identity]
  keyset_filed := filed_remove h.keyset_filed _
  filed := h.filed
  live id hhas := h.live id (has_of_has_remove hhas)

lemma get?_entries_merge (m other : ORMap K V) (id : JsString) :
    (m.merge other).entries.get? id =
      Option.merge mergeMapEntry (m.entries.get? id) (other.entries.get? id) := by
  simp only [merge, get?_collect]
  by_cases hmem : id ∈ ((OrderedSet.empty.addAll m.entries.keys).addAll other.entries.keys).elems
  · rw [if_pos hmem]
  · rw [if_neg hmem]
    have hnone := (not_congr (OrderedSet.mem_addAll _ _ _)).1 hmem
    rw [not_or, OrderedSet.mem_addAll, not_or, ← get?_eq_none_iff, ← get?_eq_none_iff] at hnone
    rw [hnone.1.2, hnone.2]
    rfl

lemma covered_merge {other : ORMap K V} (hm : Covered identity m) (ho : Covered identity other) :
    Covered identity (m.merge other) where
  identity_eq := hm.identity_eq
  keyset_identity := hm.keyset_identity
  keyset_filed := filed_merge hm.keyset_filed ho.keyset_filed
    (ho.keyset_identity.trans hm.keyset_identity.symm)
  filed := by
    intro id entry hentry
    rw [get?_entries_merge] at hentry
    cases hours : m.entries.get? id with
    | none =>
      rw [hours, merge_none_left] at hentry
      exact ho.filed id entry hentry
    | some ours =>
      have hkey : entry.key = ours.key := by
        cases htheirs : other.entries.get? id with
        | none =>
          rw [hours, htheirs, merge_none_right, some.injEq] at hentry
          rw [← hentry]
        | some theirs =>
          rw [hours, htheirs, merge_some_some, some.injEq] at hentry
          rw [← hentry, mergeMapEntry]
      rw [hkey]
      exact hm.filed id ours hours
  live := by
    intro id hhas
    rw [get?_entries_merge]
    rcases has_of_has_merge (ho.keyset_identity.trans hm.keyset_identity.symm) hhas with hhas | hhas
    · obtain ⟨entry, hentry⟩ := hm.live id hhas
      rw [hentry]
      cases other.entries.get? id with
      | none => exact ⟨_, rfl⟩
      | some theirs => exact ⟨_, rfl⟩
    · obtain ⟨entry, hentry⟩ := ho.live id hhas
      rw [hentry]
      cases m.entries.get? id with
      | none => exact ⟨_, rfl⟩
      | some ours => exact ⟨_, rfl⟩

lemma entriesEqual_of_forall {ours theirs : OrderedMap JsString (MapEntry K V)}
    {ids : List JsString}
    (h : ∀ id ∈ ids, ∃ entry otherEntry, ours.get? id = some entry ∧
      theirs.get? id = some otherEntry ∧ Crdt.same entry.value otherEntry.value = true) :
    entriesEqual ours theirs ids = true := by
  induction ids with
  | nil => rfl
  | cons id ids ih =>
    obtain ⟨entry, otherEntry, hours, htheirs, hsame⟩ := h id mem_cons_self
    rw [entriesEqual]
    simp only [hours, htheirs, hsame, if_true]
    exact ih fun id' hid' => h id' (mem_cons_of_mem _ hid')

/-- The value kept for an id, live or not. -/
def valueAt (m : ORMap K V) (id : JsString) : Option V :=
  (m.entries.get? id).map MapEntry.value

lemma valueAt_merge (m other : ORMap K V) (id : JsString) :
    (m.merge other).valueAt id = Option.merge Crdt.merge (m.valueAt id) (other.valueAt id) := by
  rw [valueAt, get?_entries_merge, valueAt, valueAt]
  cases m.entries.get? id with
  | none => simp
  | some ours =>
    cases other.entries.get? id with
    | none => simp
    | some theirs => simp [mergeMapEntry]

lemma equals_of_valueAt {other : ORMap K V} (hm : Covered identity m)
    (ho : Covered identity other) (hmt : m.keyset.Trim) (hot : other.keyset.Trim)
    (hkeyset : m.keyset.equals other.keyset = true)
    (hvalues : ∀ id v v', m.valueAt id = some v → other.valueAt id = some v' →
      Crdt.same v v' = true) : m.equals other = true := by
  rw [equals, hkeyset, Bool.true_and]
  apply entriesEqual_of_forall
  intro id hid
  have hinj : Function.Injective m.keyset.identity :=
    hm.keyset_identity ▸ JsonText.quote_injective
  have hhas := (mem_value_iff hm.keyset_filed hinj id).1 hid
  have hhas' := has_of_equals hmt hot
    (ho.keyset_identity.trans hm.keyset_identity.symm) hkeyset hhas
  obtain ⟨entry, hentry⟩ := hm.live id hhas
  obtain ⟨otherEntry, hother⟩ := ho.live id hhas'
  refine ⟨entry, otherEntry, hentry, hother, hvalues id _ _ ?_ ?_⟩
  · rw [valueAt, hentry, map_some]
  · rw [valueAt, hother, map_some]

section MergeLaws

variable (hV : SemilatticeOn (fun _ : V => True) (fun a b => Crdt.same a b = true) Crdt.merge)
  {m : ORMap K V}
include hV

lemma equals_refl_of_laws (hm : Covered identity m) (ht : m.keyset.Trim) : m.equals m = true := by
  refine equals_of_valueAt hm hm ht ht (equals_refl ht) ?_
  intro id v v' hv hv'
  rw [hv, some.injEq] at hv'
  exact hv' ▸ hV.refl v trivial

lemma merge_self_of_laws (hm : Covered identity m) (ht : m.keyset.Trim)
    (hdisjoint : ∀ key key' tag, m.keyset.Live key tag → ¬ m.keyset.Removed key' tag) :
    (m.merge m).equals m = true := by
  refine equals_of_valueAt (covered_merge hm hm) hm (trim_merge _ _) ht
    (merge_self_equals ht hdisjoint) ?_
  intro id v v' hv hv'
  rw [valueAt_merge, hv', merge_some_some, some.injEq] at hv
  exact hv ▸ hV.idem v' trivial

lemma merge_comm_of_laws {m other : ORMap K V} (hm : Covered identity m)
    (ho : Covered identity other) : (m.merge other).equals (other.merge m) = true := by
  refine equals_of_valueAt (covered_merge hm ho) (covered_merge ho hm) (trim_merge _ _)
    (trim_merge _ _) (merge_comm_equals _ _) ?_
  intro id v v' hv hv'
  rw [valueAt_merge] at hv hv'
  cases hours : m.valueAt id with
  | none =>
    rw [hours, merge_none_left] at hv
    rw [hours, merge_none_right, hv, some.injEq] at hv'
    exact hv' ▸ hV.refl v trivial
  | some a =>
    cases htheirs : other.valueAt id with
    | none =>
      rw [hours, htheirs, merge_none_right] at hv
      rw [hours, htheirs, merge_none_left, hv, some.injEq] at hv'
      exact hv' ▸ hV.refl v trivial
    | some b =>
      rw [hours, htheirs, merge_some_some, some.injEq] at hv hv'
      exact hv ▸ hv' ▸ hV.comm a b trivial trivial

lemma merge_assoc_of_laws {a b c : ORMap K V} (ha : Covered identity a)
    (hb : Covered identity b) (hc : Covered identity c) :
    ((a.merge b).merge c).equals (a.merge (b.merge c)) = true := by
  refine equals_of_valueAt (covered_merge (covered_merge ha hb) hc)
    (covered_merge ha (covered_merge hb hc)) (trim_merge _ _) (trim_merge _ _)
    (merge_assoc_equals _ _ _) ?_
  intro id v v' hv hv'
  rw [valueAt_merge, valueAt_merge] at hv hv'
  -- With one of the three values missing, both sides are the same merge.
  have hmissing : ∀ x y z : Option V, x = none ∨ y = none ∨ z = none →
      Option.merge Crdt.merge (Option.merge Crdt.merge x y) z =
        Option.merge Crdt.merge x (Option.merge Crdt.merge y z) := by
    rintro x y z (rfl | rfl | rfl)
    · rw [merge_none_left, merge_none_left]
    · rw [merge_none_left, merge_none_right]
    · rw [merge_none_right, merge_none_right]
  by_cases hnone : a.valueAt id = none ∨ b.valueAt id = none ∨ c.valueAt id = none
  · rw [← hmissing _ _ _ hnone, hv, Option.some.injEq] at hv'
    exact hv' ▸ hV.refl v trivial
  · simp only [not_or, ne_none_iff_exists'] at hnone
    obtain ⟨⟨x, hx⟩, ⟨y, hy⟩, z, hz⟩ := hnone
    rw [hx, hy, hz, merge_some_some, merge_some_some, Option.some.injEq] at hv hv'
    exact hv ▸ hv' ▸ hV.assoc x y z trivial trivial trivial

end MergeLaws

section Reads

omit [Crdt V]

variable {m : ORMap K V}

lemma keys_map_identity (h : Covered identity m) :
    m.keys.map identity = m.liveEntries.map Prod.fst := by
  rw [keys, List.map_map]
  refine List.map_congr_left fun p hp => ?_
  exact h.filed p.1 p.2 ((get?_eq_some_iff _ _ _).2 (List.mem_of_mem_filter hp))

lemma keys_perm_value (h : Covered identity m) :
    (m.keys.map identity).Perm m.keyset.value := by
  have hinj : Function.Injective m.keyset.identity :=
    h.keyset_identity ▸ quote_injective
  rw [keys_map_identity h]
  refine (perm_ext_iff_of_nodup ?_ (nodup_value h.keyset_filed)).2 ?_
  · exact m.entries.nodupKeys.sublist (List.Sublist.map Prod.fst filter_sublist)
  · intro id
    rw [mem_value_iff h.keyset_filed hinj]
    constructor
    · intro hid
      obtain ⟨p, hp, rfl⟩ := mem_map.1 hid
      exact (mem_filter.1 hp).2
    · intro hhas
      obtain ⟨entry, hentry⟩ := h.live id hhas
      have hmem := (get?_eq_some_iff _ _ _).1 hentry
      exact mem_map.2 ⟨(id, entry), mem_filter.2 ⟨hmem, hhas⟩, rfl⟩

lemma get_of_mem_entriesArray (h : Covered identity m) {p : K × V}
    (hp : p ∈ m.entriesArray) : m.get p.1 = some p.2 := by
  obtain ⟨q, hq, rfl⟩ := List.mem_map.1 hp
  obtain ⟨hmem, hhas⟩ := List.mem_filter.1 hq
  have hentry := (get?_eq_some_iff _ _ _).2 hmem
  have hid : m.identity q.2.key = q.1 := h.identity_eq ▸ h.filed q.1 q.2 hentry
  simp only [get, hid, hhas, hentry, Bool.not_true, Bool.false_eq_true, if_false, map_some]

lemma isSome_get (h : Covered identity m) (key : K) : (m.get key).isSome = m.has key := by
  unfold get has
  cases hhas : m.keyset.has (m.identity key) with
  | false => simp [hhas]
  | true =>
    obtain ⟨entry, hentry⟩ := h.live _ hhas
    simp [hhas, hentry]

end Reads

end ORMap

open CausalRun

/-- The updates of a run; one that adds a tag to the keyset is logged with it. -/
inductive ORMapOperation (K V : Type*) where
  | put (replica : ReplicaId) (key : K) (value : V) (tag : JsString)
  | update (replica : ReplicaId) (key : K) (factory : Unit → V) (mutator : V → V)
      (tag : JsString)
  | remove (key : K)

namespace ORMapOperation

variable {K V : Type*}

/-- What an update of the map does to its keyset. -/
def onKeyset (identity : K → JsString) : ORMapOperation K V → ORSetOperation JsString
  | put replica key _ tag => .add replica (identity key) tag
  | update replica key _ _ tag => .add replica (identity key) tag
  | remove key => .remove (identity key)

def tag? : ORMapOperation K V → Option JsString
  | put _ _ _ tag => some tag
  | update _ _ _ _ tag => some tag
  | remove _ => none

lemma tag?_of_onKeyset {identity : K → JsString} {op : ORMapOperation K V}
    {replica : ReplicaId} {id tag : JsString} (h : op.onKeyset identity = .add replica id tag) :
    op.tag? = some tag := by
  cases op with
  | put replica' key value tag' =>
    cases h
    rfl
  | update replica' key factory mutator tag' =>
    cases h
    rfl
  | remove key => cases h

end ORMapOperation

namespace ORMap

variable {ι K V : Type*}

def Fresh (log : List (Update ι (ORMapOperation K V))) (tag : JsString) : Prop :=
  ∀ u ∈ log, u.op.tag? ≠ some tag

/-- One update of a replica that holds `m`. -/
def Performs (log : List (Update ι (ORMapOperation K V))) (_ : ι) (m : ORMap K V) :
    ORMapOperation K V → ORMap K V → Prop
  | .put replica key value tag, m' => Fresh log tag ∧
      ∃ draws, m.keyset.mintTag replica (m.identity key) draws = some tag ∧
        m.put replica key value draws = some m'
  | .update replica key factory mutator tag, m' => Fresh log tag ∧
      ∃ draws, m.keyset.mintTag replica (m.identity key) draws = some tag ∧
        m.update replica key factory mutator draws = some m'
  | .remove key, m' => m' = m.remove key

variable [DecidableEq ι] [Crdt V] {identity : K → JsString}
  {w : World ι (ORMapOperation K V) (ORMap K V)} {log : List (Update ι (ORMapOperation K V))}
  {op : ORMapOperation K V} {i : ι}

def Reaches (identity : K → JsString) : World ι (ORMapOperation K V) (ORMap K V) → Prop :=
  Reachable Performs merge (empty identity)

omit [DecidableEq ι] [Crdt V] in
lemma put_eq_some {m m' : ORMap K V} {replica : ReplicaId} {key : K} {value : V}
    {draws : ℕ → JsString} {tag : JsString}
    (hmint : m.keyset.mintTag replica (m.identity key) draws = some tag)
    (h : m.put replica key value draws = some m') :
    m' = m.putEntry (m.keyset.addTag (m.identity key) tag) key value := by
  rw [put, add, hmint, map_some, map_some, some.injEq] at h
  exact h.symm

omit [DecidableEq ι] [Crdt V] in
lemma Performs.cases {m m' : ORMap K V} (h : Performs log i m op m') :
    (∃ replica key value tag draws, Fresh log tag ∧
        op.onKeyset m.identity = .add replica (m.identity key) tag ∧
        m.keyset.mintTag replica (m.identity key) draws = some tag ∧
        m' = m.putEntry (m.keyset.addTag (m.identity key) tag) key value) ∨
      ∃ key, op = .remove key ∧ m' = m.remove key := by
  cases op with
  | put replica key value tag =>
    obtain ⟨hfresh, draws, hmint, hput⟩ := h
    exact .inl ⟨replica, key, value, tag, draws, hfresh, rfl, hmint, put_eq_some hmint hput⟩
  | update replica key factory mutator tag =>
    obtain ⟨hfresh, draws, hmint, hput⟩ := h
    exact .inl ⟨replica, key, _, tag, draws, hfresh, rfl, hmint, put_eq_some hmint hput⟩
  | remove key => exact .inr ⟨key, rfl, h⟩

omit [DecidableEq ι] [Crdt V] in
lemma Performs.covered {m m' : ORMap K V} (hm : Covered identity m) (h : Performs log i m op m') :
    Covered identity m' := by
  rcases h.cases with ⟨replica, key, value, tag, draws, -, -, -, rfl⟩ | ⟨key, -, rfl⟩
  · exact covered_putEntry hm tag key value
  · exact covered_remove hm key

lemma Reaches.covered (hw : Reaches identity w) :
    ∀ h ∈ w.archive, Covered identity h.state :=
  Reachable.states covered_empty (fun _ _ _ _ _ hm hp => hp.covered hm)
    (fun _ _ ha hb => covered_merge ha hb) hw

lemma Reaches.keyset (hw : Reaches identity w) :
    ORSet.Reaches quote (w.map ORMap.keyset (ORMapOperation.onKeyset identity)) := by
  have hmerge : ∀ a b : ORMap K V, (a.merge b).keyset = a.keyset.merge b.keyset :=
    fun _ _ => rfl
  refine Reachable.map (I := Covered identity) covered_empty
    (fun _ _ _ _ _ hm hp => hp.covered hm) (fun _ _ ha hb => covered_merge ha hb)
    ?_ hmerge hw
  intro log i m op m' hm hp
  rcases hp.cases with ⟨replica, key, value, tag, draws, hfresh, hop, hmint, rfl⟩ | ⟨key, rfl, rfl⟩
  · rw [← hm.identity_eq, hop]
    refine ⟨?_, draws, hmint, ?_⟩
    · intro u hu replica' element hadd
      obtain ⟨v, hv, rfl⟩ := mem_map.1 hu
      exact hfresh v hv (ORMapOperation.tag?_of_onKeyset hadd)
    · rw [add, hmint, map_some]
      rfl
  · rw [← hm.identity_eq]
    rfl

/-- Over values whose merge is a semilattice up to their comparison, so is the
merge of the maps of a run; and in each of them the read operations list exactly
the live keys. -/
theorem merge_semilattice
    (hV : SemilatticeOn (fun _ : V => True) (fun a b => Crdt.same a b = true) Crdt.merge)
    (identity : K → JsString) (w : World ι (ORMapOperation K V) (ORMap K V))
    (hw : Reaches identity w) :
    SemilatticeOn (fun m => ∃ h ∈ w.archive, h.state = m)
        (fun m other => m.equals other = true) merge ∧
      ∀ h ∈ w.archive,
        (∀ id, h.state.keyset.has id = true → ∃ entry, h.state.entries.get? id = some entry) ∧
        (∀ id, id ∈ h.state.keyset.value ↔ h.state.keyset.has id = true) ∧
        h.state.keyset.value.Nodup ∧
        (h.state.keys.map identity).Perm h.state.keyset.value ∧
        h.state.entriesArray.map Prod.fst = h.state.keys ∧
        (∀ p ∈ h.state.entriesArray, h.state.get p.1 = some p.2) ∧
        h.state.size = h.state.keyset.value.length ∧
        ∀ key, (h.state.get key).isSome = h.state.has key := by
  have hcovered := hw.covered
  have hrealizes := hw.keyset.realizes
  have hkeyset : ∀ h ∈ w.archive, ORSet.Realizes quote
      (w.map ORMap.keyset (ORMapOperation.onKeyset identity)).log (h.map ORMap.keyset) :=
    fun h hh => hrealizes.2 _ (mem_map_of_mem hh)
  refine ⟨⟨?_, ?_, ?_, ?_⟩, ?_⟩
  · rintro _ ⟨h, hh, rfl⟩
    exact equals_refl_of_laws hV (hcovered h hh) (hkeyset h hh).trim
  · rintro _ ⟨h, hh, rfl⟩
    exact merge_self_of_laws hV (hcovered h hh) (hkeyset h hh).trim
      ((hkeyset h hh).disjoint hrealizes.1)
  · rintro _ _ ⟨a, ha, rfl⟩ ⟨b, hb, rfl⟩
    exact merge_comm_of_laws hV (hcovered a ha) (hcovered b hb)
  · rintro _ _ _ ⟨a, ha, rfl⟩ ⟨b, hb, rfl⟩ ⟨c, hc, rfl⟩
    exact merge_assoc_of_laws hV (hcovered a ha) (hcovered b hb) (hcovered c hc)
  · intro h hh
    have hc := hcovered h hh
    have hinj : Function.Injective h.state.keyset.identity :=
      hc.keyset_identity ▸ quote_injective
    have hperm := keys_perm_value hc
    refine ⟨hc.live, ORSet.mem_value_iff hc.keyset_filed hinj, ORSet.nodup_value hc.keyset_filed,
      hperm, ?_, ?_, ?_, isSome_get hc⟩
    · rw [entriesArray, keys, List.map_map]
      rfl
    · intro p hp
      exact get_of_mem_entriesArray hc hp
    · rw [← hperm.length_eq, keys, size, length_map, length_map]

lemma Reaches.issue_remove (hw : Reaches identity w) (i : ι) (key : K) :
    Reaches identity (w.issue i (.remove key) ((w.held i).state.remove key)) :=
  Reachable.issue hw rfl

/-- A flag that is only ever raised. -/
@[reducible] def raisedFlag : Crdt Bool where
  merge := or
  equals? := some (· == ·)
  jsonText flag := if flag then "true" else "false"

/-- One replica raises the flag of a key, the other absorbs that and removes the
key. -/
theorem merge_semilattice_raisedFlag :
    ∃ w : World Bool (ORMapOperation JsString Bool) (ORMap JsString Bool),
      w.log.length = 2 ∧ w.archive.length = 4 ∧
      SemilatticeOn (fun m => ∃ h ∈ w.archive, h.state = m)
        (fun m other => @equals _ _ raisedFlag m other = true) (@merge _ _ raisedFlag) := by
  let := raisedFlag
  have hV : SemilatticeOn (fun _ : Bool => True) (fun a b => Crdt.same a b = true) Crdt.merge := by
    refine ⟨?_, ?_, ?_, ?_⟩ <;> decide
  have hput : Performs ([] : List (Update Bool (ORMapOperation JsString Bool))) true
      (empty id) (.put "a" "k" true "a#0")
      ((empty id).putEntry ((ORSet.empty quote).addTag "k" "a#0") "k" true) := by
    refine ⟨by simp [Fresh], fun _ => "0", by decide, rfl⟩
  have h₁ : Reaches id _ := Reachable.issue Reachable.initial hput
  have h₂ : Reaches id _ := Reachable.absorb (i := false) h₁ (h₁.held_mem_archive true)
  have h₃ := h₂.issue_remove false "k"
  exact ⟨_, rfl, rfl, (merge_semilattice hV id _ h₃).1⟩

end ORMap

end ActorTs
