import Mathlib.Data.Set.Card

/-!
# Maps and sets that remember insertion order

`OrderedMap κ α` lists its bindings in the order their keys were first bound:
binding a key that is already there replaces the value and leaves the position
alone, and deleting a key and binding it again moves it to the end. That no key
is listed twice is a field of the structure, so every map that can be built
has the invariant. `OrderedSet α` is the same collection without values.

Reading a map never depends on the order, so most lemmas are about `get?`. `equalsBy` and
`OrderedSet.equals` check the sizes first and then walk one side.
-/

@[ext] structure OrderedMap (κ α : Type*) where
  entries : List (κ × α)
  nodupKeys : (entries.map Prod.fst).Nodup
  deriving DecidableEq

open List Nat

namespace OrderedMap

variable {κ α β : Type*}

def empty : OrderedMap κ α := ⟨[], List.nodup_nil⟩

def keys (m : OrderedMap κ α) : List κ := m.entries.map Prod.fst

def values (m : OrderedMap κ α) : List α := m.entries.map Prod.snd

def size (m : OrderedMap κ α) : ℕ := m.entries.length

@[simp] lemma entries_empty : (empty : OrderedMap κ α).entries = [] := rfl

@[simp] lemma keys_empty : (empty : OrderedMap κ α).keys = [] := rfl

variable (m : OrderedMap κ α)

lemma nodup_keys : m.keys.Nodup := m.nodupKeys

lemma length_keys : m.keys.length = m.size := by
  simp [keys, size]

lemma ncard_keys : { k | k ∈ m.keys }.ncard = m.size := by
  classical
  rw [← length_keys, ← toFinset_card_of_nodup m.nodup_keys, ← Set.ncard_coe_finset]
  congr
  simp

lemma size_eq_of_keys {m : OrderedMap κ α} {m' : OrderedMap κ β}
    (h : ∀ k, k ∈ m.keys ↔ k ∈ m'.keys) : m.size = m'.size := by
  have hperm : m.keys.Perm m'.keys :=
    (perm_ext_iff_of_nodup m.nodup_keys m'.nodup_keys).2 h
  rw [← length_keys, ← length_keys, hperm.length_eq]

section Lookup

variable [DecidableEq κ]

/-- The value a list of bindings gives a key: the first one listed. -/
def lookup (k : κ) : List (κ × α) → Option α
  | [] => none
  | (k', a) :: l => if k' = k then some a else lookup k l

def get? (m : OrderedMap κ α) (k : κ) : Option α := lookup k m.entries

def has (m : OrderedMap κ α) (k : κ) : Bool := (m.get? k).isSome

@[simp] lemma get?_empty (k : κ) : (empty : OrderedMap κ α).get? k = none := rfl

variable {l : List (κ × α)} {k : κ}

lemma lookup_eq_some_of_mem (hl : (l.map Prod.fst).Nodup) {a : α} (h : (k, a) ∈ l) :
    lookup k l = some a := by
  induction l with
  | nil => simp at h
  | cons p l ih =>
    obtain ⟨k', a'⟩ := p
    rw [map_cons, nodup_cons] at hl
    rcases mem_cons.1 h with h | h
    · rw [Prod.mk.injEq] at h
      simp [lookup, h.1, h.2]
    · have hne : k' ≠ k := by
        rintro rfl
        exact hl.1 (mem_map.2 ⟨_, h, rfl⟩)
      simpa [lookup, hne] using ih hl.2 h

lemma mem_of_lookup_eq_some {a : α} (h : lookup k l = some a) : (k, a) ∈ l := by
  induction l with
  | nil => simp [lookup] at h
  | cons p l ih =>
    obtain ⟨k', a'⟩ := p
    by_cases hk : k' = k
    · simp only [lookup, hk, if_true, Option.some.injEq] at h
      simp [hk, h]
    · simp only [lookup, hk, if_false] at h
      exact mem_cons_of_mem _ (ih h)

lemma lookup_eq_none_of_notMem (h : k ∉ l.map Prod.fst) : lookup k l = none := by
  cases hlook : lookup k l with
  | none => rfl
  | some a =>
    have hmem : k ∈ l.map Prod.fst := mem_map.2 ⟨(k, a), mem_of_lookup_eq_some hlook, rfl⟩
    exact absurd hmem h

lemma exists_lookup_of_mem (h : k ∈ l.map Prod.fst) : ∃ a, lookup k l = some a := by
  induction l with
  | nil => cases h
  | cons p l ih =>
    by_cases hk : p.1 = k
    · exact ⟨p.2, if_pos hk⟩
    · rw [map_cons, mem_cons] at h
      obtain ⟨a, ha⟩ := ih (h.resolve_left (Ne.symm hk))
      exact ⟨a, (if_neg hk).trans ha⟩

variable (m : OrderedMap κ α)

lemma get?_eq_some_iff (k : κ) (a : α) : m.get? k = some a ↔ (k, a) ∈ m.entries :=
  ⟨mem_of_lookup_eq_some, lookup_eq_some_of_mem m.nodupKeys⟩

lemma mem_keys_iff (k : κ) : k ∈ m.keys ↔ ∃ a, m.get? k = some a := by
  simp [keys, get?_eq_some_iff]

lemma get?_eq_none_iff (k : κ) : m.get? k = none ↔ k ∉ m.keys := by
  rw [mem_keys_iff]
  cases m.get? k with
  | none => simp
  | some a => simp

lemma has_iff (k : κ) : m.has k = true ↔ k ∈ m.keys := by
  rw [mem_keys_iff, has, Option.isSome_iff_exists]

end Lookup

section Update

variable [DecidableEq κ]

/-- Bind a key in a list of bindings, in place when the key is listed. -/
def bind (k : κ) (a : α) : List (κ × α) → List (κ × α)
  | [] => [(k, a)]
  | (k', a') :: l => if k' = k then (k, a) :: l else (k', a') :: bind k a l

lemma mem_keys_bind (k k' : κ) (a : α) (l : List (κ × α)) :
    k' ∈ (bind k a l).map Prod.fst ↔ k' = k ∨ k' ∈ l.map Prod.fst := by
  induction l with
  | nil => simp [bind]
  | cons p l ih =>
    by_cases hk : p.1 = k
    · simp [bind, hk]
    · simp only [bind, hk, if_false, map_cons, mem_cons, ih]
      tauto

variable {l : List (κ × α)}

lemma eq_or_mem_of_mem_bind {k : κ} {a : α} {p : κ × α} (h : p ∈ bind k a l) :
    p = (k, a) ∨ p ∈ l := by
  induction l with
  | nil => exact .inl (mem_singleton.1 h)
  | cons q l ih =>
    rw [bind] at h
    split at h
    · rcases mem_cons.1 h with h | h
      · exact .inl h
      · exact .inr (mem_cons_of_mem _ h)
    · rcases mem_cons.1 h with h | h
      · exact .inr (h ▸ mem_cons_self)
      · exact (ih h).imp_right (mem_cons_of_mem _)

lemma nodup_bind (k : κ) (a : α) (hl : (l.map Prod.fst).Nodup) :
    ((bind k a l).map Prod.fst).Nodup := by
  induction l with
  | nil => simp [bind]
  | cons p l ih =>
    rw [map_cons, nodup_cons] at hl
    by_cases hk : p.1 = k
    · rw [bind, if_pos hk, map_cons, nodup_cons]
      exact ⟨hk ▸ hl.1, hl.2⟩
    · rw [bind, if_neg hk, map_cons, nodup_cons, mem_keys_bind]
      exact ⟨not_or.2 ⟨hk, hl.1⟩, ih hl.2⟩

lemma bind_of_notMem {k : κ} (a : α) (hk : k ∉ l.map Prod.fst) : bind k a l = l ++ [(k, a)] := by
  induction l with
  | nil => rfl
  | cons p l ih =>
    rw [map_cons, mem_cons, not_or] at hk
    rw [bind, if_neg (Ne.symm hk.1), ih hk.2, cons_append]

lemma lookup_bind (k k' : κ) (a : α) (l : List (κ × α)) :
    lookup k' (bind k a l) = if k = k' then some a else lookup k' l := by
  induction l with
  | nil => simp [bind, lookup]
  | cons p l ih =>
    by_cases hk : p.1 = k
    · by_cases hk' : k = k' <;> simp [bind, lookup, hk, hk']
    · by_cases hk' : p.1 = k'
      · have hne : k ≠ k' := fun h => hk (hk'.trans h.symm)
        rw [bind, if_neg hk, lookup, if_pos hk', if_neg hne, lookup, if_pos hk']
      · rw [bind, if_neg hk, lookup, if_neg hk', ih, lookup, if_neg hk']

def set (m : OrderedMap κ α) (k : κ) (a : α) : OrderedMap κ α :=
  ⟨bind k a m.entries, nodup_bind k a m.nodupKeys⟩

def delete (m : OrderedMap κ α) (k : κ) : OrderedMap κ α :=
  ⟨m.entries.filter (fun p => p.1 ≠ k),
    m.nodupKeys.sublist (List.Sublist.map Prod.fst List.filter_sublist)⟩

variable (m : OrderedMap κ α)

lemma get?_set (k k' : κ) (a : α) : (m.set k a).get? k' = if k = k' then some a else m.get? k' :=
  lookup_bind k k' a m.entries

variable (k : κ) (a : α)

@[simp] lemma get?_set_self : (m.set k a).get? k = some a := by
  simp [get?_set]

lemma mem_keys_set (k k' : κ) (a : α) : k' ∈ (m.set k a).keys ↔ k' = k ∨ k' ∈ m.keys :=
  mem_keys_bind k k' a m.entries

lemma size_set_le : (m.set k a).size ≤ m.size + 1 := by
  have hsub : (m.set k a).keys ⊆ k :: m.keys := by
    intro k' hk'
    exact mem_cons.2 ((mem_keys_set m k k' a).1 hk')
  have hlen := (subperm_of_subset (m.set k a).nodup_keys hsub).length_le
  rwa [length_cons, length_keys, length_keys] at hlen

lemma size_set_of_mem {m : OrderedMap κ α} {k : κ} (h : k ∈ m.keys) (a : α) :
    (m.set k a).size = m.size := by
  refine size_eq_of_keys fun k' => ?_
  rw [mem_keys_set]
  constructor
  · rintro (rfl | hk')
    · exact h
    · exact hk'
  · exact .inr

lemma get?_delete (k k' : κ) : (m.delete k).get? k' = if k = k' then none else m.get? k' := by
  by_cases hk : k = k'
  · subst hk
    rw [if_pos rfl, get?_eq_none_iff]
    simp [keys, delete]
  · rw [if_neg hk]
    ext a
    have hne : k' ≠ k := fun h => hk h.symm
    simp [get?_eq_some_iff, delete, hne]

lemma mem_keys_delete (k k' : κ) : k' ∈ (m.delete k).keys ↔ k' ∈ m.keys ∧ k ≠ k' := by
  simp only [mem_keys_iff, get?_delete]
  split <;> simp [*]

lemma delete_of_notMem {m : OrderedMap κ α} {k : κ} (h : k ∉ m.keys) : m.delete k = m := by
  ext1
  refine filter_eq_self.2 fun p hp => decide_eq_true ?_
  exact fun hk => h (hk ▸ mem_map_of_mem hp)

/-- What a map is found to bind behind a `set` is the new binding or an old one. -/
lemma get?_set_cases {m : OrderedMap κ α} {k k' : κ} {a b : α}
    (h : (m.set k a).get? k' = some b) : k' = k ∧ b = a ∨ m.get? k' = some b := by
  rw [get?_set] at h
  split at h
  · next hk => exact .inl ⟨hk.symm, (Option.some.inj h).symm⟩
  · exact .inr h

lemma get?_of_get?_delete {m : OrderedMap κ α} {k k' : κ} {b : α}
    (h : (m.delete k).get? k' = some b) : m.get? k' = some b := by
  rw [get?_delete] at h
  split at h
  · cases h
  · exact h

/-! ### The keys of the values that are so -/

/-- The keys under which the map holds a value that is so, in the order of the map. -/
def keysWhere (p : α → Bool) (m : OrderedMap κ α) : List κ :=
  (m.entries.filter fun q => p q.2).map Prod.fst

variable (p : α → Bool)

lemma mem_keysWhere_iff (m : OrderedMap κ α) (k : κ) :
    k ∈ m.keysWhere p ↔ ∃ a, m.get? k = some a ∧ p a = true := by
  simp only [keysWhere, mem_map, mem_filter, Prod.exists, exists_and_right,
    exists_eq_right, get?_eq_some_iff]

/-- Where a value is so exactly if the one before it was, its key stays where it is. -/
lemma keysWhere_set {p : α → Bool} {m : OrderedMap κ α} {k : κ} {a : α}
    (h : (m.get? k).any p = p a) : (m.set k a).keysWhere p = m.keysWhere p := by
  obtain ⟨l, hl⟩ := m
  unfold keysWhere set
  simp only [get?] at h ⊢
  clear hl
  induction l with
  | nil =>
    have hno : p a = false := h.symm
    simp [bind, hno]
  | cons q l ih =>
    rw [bind]
    split
    · rename_i hk
      rw [lookup, if_pos hk, Option.any_some] at h
      simp only [filter_cons, h]
      split <;> simp [hk]
    · rename_i hk
      rw [lookup, if_neg hk] at h
      simp only [filter_cons]
      split <;> simp [ih h]

lemma keysWhere_delete {p : α → Bool} {m : OrderedMap κ α} {k : κ}
    (h : (m.get? k).any p = false) : (m.delete k).keysWhere p = m.keysWhere p := by
  unfold keysWhere delete
  simp only [filter_filter]
  congr 1
  refine List.filter_congr fun q hq => ?_
  by_cases hk : q.1 = k
  · have hget : m.get? k = some q.2 := (m.get?_eq_some_iff k q.2).2 (hk ▸ hq)
    rw [hget, Option.any_some] at h
    rw [h, Bool.false_and]
  · simp [hk]

omit [DecidableEq κ] in
lemma length_keysWhere_add_not (m : OrderedMap κ α) :
    (m.keysWhere p).length + (m.keysWhere fun a => !p a).length = m.size := by
  rw [keysWhere, keysWhere, length_map, length_map, size]
  exact (length_eq_length_filter_add _).symm

/-- What the values of a map come to. -/
def total (f : α → ℕ) (m : OrderedMap κ α) : ℕ := (m.entries.map fun q => f q.2).sum

variable (f : α → ℕ)

lemma sum_bind (l : List (κ × α)) (k : κ) (a : α) :
    ((bind k a l).map fun q => f q.2).sum + (lookup k l).elim 0 f =
      (l.map fun q => f q.2).sum + f a := by
  induction l with
  | nil => simp [bind, lookup]
  | cons q l ih =>
    by_cases hk : q.1 = k
    · simp only [bind, if_pos hk, lookup, Option.elim_some, map_cons, sum_cons]
      omega
    · simp only [bind, if_neg hk, lookup, map_cons, sum_cons]
      omega

lemma total_set (m : OrderedMap κ α) (k : κ) (a : α) :
    (m.set k a).total f + (m.get? k).elim 0 f = m.total f + f a :=
  sum_bind f m.entries k a

lemma sum_without (hl : (l.map Prod.fst).Nodup) (k : κ) :
    ((l.filter fun q => q.1 ≠ k).map fun q => f q.2).sum + (lookup k l).elim 0 f =
      (l.map fun q => f q.2).sum := by
  induction l with
  | nil => simp [lookup]
  | cons q l ih =>
    rw [map_cons, nodup_cons] at hl
    by_cases hk : q.1 = k
    · have hrest : (l.filter fun x => x.1 ≠ k) = l := by
        refine filter_eq_self.2 fun x hx => ?_
        have hne : x.1 ≠ k := fun hx' => hl.1 ((hk.trans hx'.symm) ▸ mem_map_of_mem hx)
        exact decide_eq_true hne
      rw [lookup, if_pos hk, Option.elim_some, filter_cons_of_neg (by simp [hk]), hrest,
        map_cons, sum_cons, add_comm]
    · have h := ih hl.2
      rw [lookup, if_neg hk, filter_cons_of_pos (by simp [hk]), map_cons,
        map_cons, sum_cons, sum_cons]
      omega

lemma total_delete (m : OrderedMap κ α) (k : κ) :
    (m.delete k).total f + (m.get? k).elim 0 f = m.total f :=
  sum_without f m.nodupKeys k

omit [DecidableEq κ] in
lemma length_keysWhere (m : OrderedMap κ α) :
    (m.keysWhere p).length = m.total fun a => if p a then 1 else 0 := by
  rw [keysWhere, length_map, total]
  induction m.entries with
  | nil => rfl
  | cons q l ih => cases hq : p q.2 <;> simp [hq, ih, Nat.add_comm]

lemma elim_any (o : Option α) :
    (o.elim 0 fun a => if p a then 1 else 0) = if o.any p then 1 else 0 := by
  cases o <;> rfl

lemma length_keysWhere_set (m : OrderedMap κ α) (k : κ) (a : α) :
    ((m.set k a).keysWhere p).length + (if (m.get? k).any p then 1 else 0) =
      (m.keysWhere p).length + (if p a then 1 else 0) := by
  rw [length_keysWhere, length_keysWhere, ← elim_any]
  exact total_set _ m k a

lemma length_keysWhere_delete (m : OrderedMap κ α) (k : κ) :
    ((m.delete k).keysWhere p).length + (if (m.get? k).any p then 1 else 0) =
      (m.keysWhere p).length := by
  rw [length_keysWhere, length_keysWhere, ← elim_any]
  exact total_delete _ m k

lemma size_delete_le : (m.delete k).size ≤ m.size :=
  length_filter_le _ _

omit [DecidableEq κ] in
lemma total_one : m.total (fun _ => 1) = m.size := by
  simp [total, size]

lemma size_delete : (m.delete k).size + (m.get? k).elim 0 (fun _ => 1) = m.size := by
  rw [← total_one, ← total_one, total_delete]

lemma size_set : (m.set k a).size + (m.get? k).elim 0 (fun _ => 1) = m.size + 1 := by
  rw [← total_one, ← total_one, total_set]

lemma flatMap_ite (f : α → List β) (m : OrderedMap κ α) (k : κ) :
    (m.entries.flatMap fun e => if e.1 = k then f e.2 else []) = (m.get? k).elim [] f := by
  obtain ⟨entries, hnodup⟩ := m
  unfold get?
  induction entries with
  | nil => rfl
  | cons e entries ih =>
    rw [map_cons, nodup_cons] at hnodup
    rw [flatMap_cons, ih hnodup.2]
    by_cases hk : e.1 = k
    · rw [if_pos hk, lookup, if_pos hk, lookup_eq_none_of_notMem (hk ▸ hnodup.1)]
      exact append_nil _
    · rw [if_neg hk, lookup, if_neg hk]
      rfl

/-- The entries that satisfy a predicate, in the order of the map. -/
def filter (p : κ × α → Bool) (m : OrderedMap κ α) : OrderedMap κ α :=
  ⟨m.entries.filter p, m.nodupKeys.sublist (List.filter_sublist.map Prod.fst)⟩

omit [DecidableEq κ] in
lemma size_filter_le (p : κ × α → Bool) (m : OrderedMap κ α) : (m.filter p).size ≤ m.size :=
  length_filter_le _ _

variable {p : κ × α → Bool}

lemma get?_of_get?_filter {m : OrderedMap κ α} {k : κ} {a : α} (h : (m.filter p).get? k = some a) :
    m.get? k = some a :=
  (m.get?_eq_some_iff k a).2 (filter_sublist.mem (((m.filter p).get?_eq_some_iff k a).1 h))

lemma filter_bind {p : κ → Bool} (l : List (κ × α)) :
    (bind k a l).filter (fun q => p q.1) =
      if p k then bind k a (l.filter fun q => p q.1) else l.filter fun q => p q.1 := by
  induction l with
  | nil => cases hk : p k <;> simp [bind, hk]
  | cons q l ih =>
    by_cases hq : q.1 = k
    · subst hq
      cases hk : p q.1 <;> simp [bind, hk]
    · cases hp : p q.1 <;> cases hk : p k <;> simp [bind, hq, hp, hk, ih]

lemma filter_set {p : κ → Bool} :
    (m.set k a).filter (fun q => p q.1) =
      if p k then (m.filter fun q => p q.1).set k a else m.filter fun q => p q.1 := by
  ext1
  refine (filter_bind k a m.entries).trans ?_
  split <;> rfl

/-- The entries from the first one on that does not satisfy a predicate. -/
def dropWhile (p : κ × α → Bool) (m : OrderedMap κ α) : OrderedMap κ α :=
  ⟨m.entries.dropWhile p, m.nodupKeys.sublist ((List.dropWhile_sublist p).map Prod.fst)⟩

lemma get?_of_get?_dropWhile {m : OrderedMap κ α} {k : κ} {a : α}
    (h : (m.dropWhile p).get? k = some a) : m.get? k = some a :=
  (m.get?_eq_some_iff k a).2
    ((dropWhile_sublist p).mem (((m.dropWhile p).get?_eq_some_iff k a).1 h))

lemma get?_dropWhile {m : OrderedMap κ α} {k : κ} {a : α} (h : m.get? k = some a)
    (hp : p (k, a) = false) : (m.dropWhile p).get? k = some a := by
  rw [get?_eq_some_iff] at h ⊢
  rw [← takeWhile_append_dropWhile (p := p) (l := m.entries), mem_append] at h
  refine h.resolve_left fun hmem => ?_
  exact nomatch hp.symm.trans (all_eq_true.1 all_takeWhile _ hmem)

omit [DecidableEq κ] in
lemma total_dropWhile {f : α → ℕ} (hp : ∀ e, p e = true → f e.2 = 0) (m : OrderedMap κ α) :
    (m.dropWhile p).total f = m.total f := by
  unfold dropWhile total
  dsimp only
  induction m.entries with
  | nil => rfl
  | cons e entries ih =>
    rw [dropWhile_cons]
    split
    · next he => rw [map_cons, sum_cons, hp e he, zero_add, ih]
    · rfl

/-- Going through the entries of a map while changing no other entry than the one at hand
keeps what each such step keeps. -/
lemma foldl_entries {σ : Type*} (view : σ → OrderedMap κ α) {f : σ → κ × α → σ} {P : σ → Prop}
    (hstep : ∀ s k a, P s → (view s).get? k = some a →
      P (f s (k, a)) ∧ ∀ k', k' ≠ k → (view (f s (k, a))).get? k' = (view s).get? k')
    {s : σ} (hs : P s) : P ((view s).entries.foldl f s) := by
  have hheld : ∀ q ∈ (view s).entries, (view s).get? q.1 = some q.2 :=
    fun q hq => ((view s).get?_eq_some_iff q.1 q.2).2 hq
  have hnodup := (view s).nodupKeys
  generalize (view s).entries = l at hheld hnodup
  induction l generalizing s with
  | nil => exact hs
  | cons q l ih =>
    rw [map_cons, nodup_cons] at hnodup
    obtain ⟨hP, hrest⟩ := hstep s q.1 q.2 hs (hheld q mem_cons_self)
    refine ih hP (fun x hx => ?_) hnodup.2
    have hne : x.1 ≠ q.1 := fun h => hnodup.1 (h ▸ mem_map.2 ⟨x, hx, rfl⟩)
    rw [hrest x.1 hne]
    exact hheld x (mem_cons_of_mem _ hx)

end Update

section Collect

variable [DecidableEq κ]

/-- Build a map by walking a list of keys and binding those that get a value. -/
def collect (l : List κ) (f : κ → Option α) : OrderedMap κ α :=
  l.foldl (fun m k => match f k with
    | none => m
    | some a => m.set k a) empty

lemma get?_collect (l : List κ) (f : κ → Option α) (k : κ) :
    (collect l f).get? k = if k ∈ l then f k else none := by
  have hfold : ∀ m : OrderedMap κ α, (l.foldl (fun m k => match f k with
      | none => m
      | some a => m.set k a) m).get? k =
        if k ∈ l then (f k).or (m.get? k) else m.get? k := by
    induction l with
    | nil => simp
    | cons k' l ih =>
      intro m
      rw [foldl_cons, ih]
      cases hf : f k' with
      | none =>
        by_cases hk : k = k'
        · subst hk
          simp [hf]
        · simp [hk]
      | some a =>
        by_cases hk : k = k'
        · subst hk
          simp [hf]
        · have hne : k' ≠ k := fun h => hk h.symm
          simp [hk, get?_set, hne]
  have h := hfold empty
  simpa [collect] using h

end Collect

section MergeInto

variable [DecidableEq κ]

/-- Walk the bindings of `other` and bind each in `m`, combining it with what
`m` binds there already. -/
def mergeInto (f : α → α → α) (m other : OrderedMap κ α) : OrderedMap κ α :=
  other.entries.foldl (fun next p => match next.get? p.1 with
    | none => next.set p.1 p.2
    | some ours => next.set p.1 (f ours p.2)) m

variable (f : α → α → α)

lemma get?_mergeInto (m other : OrderedMap κ α) (k : κ) :
    (mergeInto f m other).get? k = Option.merge f (m.get? k) (other.get? k) := by
  have hfold : ∀ (l : List (κ × α)), (l.map Prod.fst).Nodup → ∀ m : OrderedMap κ α,
      (l.foldl (fun next p => match next.get? p.1 with
        | none => next.set p.1 p.2
        | some ours => next.set p.1 (f ours p.2)) m).get? k =
          Option.merge f (m.get? k) (lookup k l) := by
    intro l
    induction l with
    | nil => simp [lookup]
    | cons p l ih =>
      intro hl m
      rw [map_cons, nodup_cons] at hl
      rw [foldl_cons, ih hl.2, lookup]
      by_cases hk : p.1 = k
      · -- No later binding of the walk is for this key.
        have hnone : lookup k l = none := lookup_eq_none_of_notMem (hk ▸ hl.1)
        rw [if_pos hk, hnone, Option.merge_none_right, ← hk]
        cases m.get? p.1 with
        | none => simp
        | some ours => simp
      · rw [if_neg hk]
        cases m.get? p.1 with
        | none => simp [get?_set, hk]
        | some ours => simp [get?_set, hk]
  exact hfold other.entries other.nodupKeys m

lemma mem_keys_mergeInto (m other : OrderedMap κ α) (k : κ) :
    k ∈ (mergeInto f m other).keys ↔ k ∈ m.keys ∨ k ∈ other.keys := by
  simp only [mem_keys_iff, get?_mergeInto]
  cases m.get? k <;> cases other.get? k <;> simp

/-- A bound value of a merge has what the values of both maps have and every combination
keeps. -/
lemma forall_get?_mergeInto {f : α → α → α} {P : α → Prop} {m other : OrderedMap κ α}
    (hm : ∀ k a, m.get? k = some a → P a) (ho : ∀ k a, other.get? k = some a → P a)
    (hf : ∀ a b, P a → P b → P (f a b)) {k : κ} {a : α}
    (h : (mergeInto f m other).get? k = some a) : P a := by
  rw [get?_mergeInto] at h
  cases hours : m.get? k with
  | none =>
    rw [hours, Option.merge_none_left] at h
    exact ho k a h
  | some ours =>
    cases htheirs : other.get? k with
    | none =>
      rw [hours, htheirs, Option.merge_none_right, Option.some.injEq] at h
      exact h ▸ hm k ours hours
    | some theirs =>
      rw [hours, htheirs, Option.merge_some_some, Option.some.injEq] at h
      exact h ▸ hf ours theirs (hm k ours hours) (ho k theirs htheirs)

end MergeInto

section MapValues

/-- The bindings with another value each. -/
def mapValues (f : κ → α → β) (m : OrderedMap κ α) : OrderedMap κ β :=
  ⟨m.entries.map fun p => (p.1, f p.1 p.2), by
    simpa only [List.map_map, Function.comp_def] using m.nodupKeys⟩

variable (f : κ → α → β) (m : OrderedMap κ α)

@[simp] lemma entries_mapValues :
    (m.mapValues f).entries = m.entries.map fun p => (p.1, f p.1 p.2) := rfl

lemma mapValues_id : (m.mapValues fun _ a => a) = m := by
  ext1
  exact map_id m.entries

lemma size_mapValues : (m.mapValues f).size = m.size := by
  simp [size]

variable [DecidableEq κ]

lemma get?_mapValues (k : κ) : (m.mapValues f).get? k = (m.get? k).map (f k) := by
  ext b
  simp only [get?_eq_some_iff, entries_mapValues, mem_map, Option.map_eq_some_iff, Prod.mk.injEq]
  constructor
  · rintro ⟨⟨k', a⟩, hmem, rfl, rfl⟩
    exact ⟨a, hmem, rfl⟩
  · rintro ⟨a, hmem, rfl⟩
    exact ⟨(k, a), hmem, rfl, rfl⟩

lemma mem_keys_mapValues (k : κ) : k ∈ (m.mapValues f).keys ↔ k ∈ m.keys := by
  rw [mem_keys_iff, mem_keys_iff, get?_mapValues]
  simp

end MapValues

section Gather

variable [DecidableEq κ]

/-- Bind the pairs of a list one after the other; a key that is bound already gets the
old value combined with the new. -/
def gather (f : α → α → α) (l : List (κ × α)) : OrderedMap κ α :=
  l.foldl (fun next p => next.set p.1 (match next.get? p.1 with
    | none => p.2
    | some ours => f ours p.2)) empty

/-- What a list of pairs binds a key to: all its values, combined from the left. -/
def gathered (f : α → α → α) (l : List (κ × α)) (k : κ) : Option α :=
  l.foldl (fun o p => if p.1 = k then Option.merge f o (some p.2) else o) none

lemma get?_gather (f : α → α → α) (l : List (κ × α)) (k : κ) :
    (gather f l).get? k = gathered f l k := by
  have hfold : ∀ m : OrderedMap κ α, (l.foldl (fun next p => next.set p.1 (match next.get? p.1 with
        | none => p.2
        | some ours => f ours p.2)) m).get? k =
      l.foldl (fun o p => if p.1 = k then Option.merge f o (some p.2) else o) (m.get? k) := by
    induction l with
    | nil => exact fun _ => rfl
    | cons p l ih =>
      intro m
      rw [foldl_cons, foldl_cons, ih, get?_set]
      by_cases hk : p.1 = k
      · subst hk
        cases m.get? p.1 <;> simp
      · simp [hk]
  exact hfold empty

/-- What holds of a combination exactly where it holds of a part holds of a bound value
where it holds of one of the pairs it was gathered from. -/
lemma exists_get?_gather {f : α → α → α} {P : α → Prop} (hf : ∀ a b, P (f a b) ↔ P a ∨ P b)
    (l : List (κ × α)) (k : κ) :
    (∃ a, (gather f l).get? k = some a ∧ P a) ↔ ∃ a, (k, a) ∈ l ∧ P a := by
  have hfold : ∀ o : Option α,
      (∃ a, l.foldl (fun o p => if p.1 = k then Option.merge f o (some p.2) else o) o = some a ∧
        P a) ↔ (∃ a, o = some a ∧ P a) ∨ ∃ a, (k, a) ∈ l ∧ P a := by
    induction l with
    | nil => simp
    | cons p l ih =>
      intro o
      rw [List.foldl_cons, ih]
      obtain ⟨k', b⟩ := p
      by_cases hk : k' = k
      · subst hk
        cases o with
        | none => simp [or_and_right, exists_or]
        | some a => simp [hf, or_and_right, exists_or, or_assoc]
      · have hne : ¬ k = k' := fun h => hk h.symm
        simp [hk, hne]
  rw [get?_gather, gathered, hfold]
  simp

lemma forall_get?_gather {f : α → α → α} {P : κ → α → Prop} {l : List (κ × α)}
    (hl : ∀ k a, (k, a) ∈ l → P k a) (hf : ∀ k a b, P k a → P k b → P k (f a b)) {k : κ} {a : α}
    (h : (gather f l).get? k = some a) : P k a := by
  have hfold : ∀ o : Option α, (∀ b, o = some b → P k b) → ∀ b,
      l.foldl (fun o p => if p.1 = k then Option.merge f o (some p.2) else o) o = some b →
        P k b := by
    clear h
    induction l with
    | nil => exact fun o ho => ho
    | cons p l ih =>
      intro o ho
      rw [foldl_cons]
      refine ih (fun k a hmem => hl k a (mem_cons_of_mem _ hmem)) _ ?_
      intro b hb
      split at hb
      · next hk =>
        have hp : P k p.2 := hk ▸ hl p.1 p.2 mem_cons_self
        cases o with
        | none => exact Option.some.inj hb ▸ hp
        | some c => exact Option.some.inj hb ▸ hf k c p.2 (ho c rfl) hp
      · exact ho b hb
  rw [get?_gather] at h
  exact hfold none (by simp) a h

lemma entries_gather {l : List (κ × α)} (h : (l.map Prod.fst).Nodup) (f : α → α → α) :
    (gather f l).entries = l := by
  have hfold : ∀ m : OrderedMap κ α, (m.entries ++ l).map Prod.fst |>.Nodup →
      (l.foldl (fun next p => next.set p.1 (match next.get? p.1 with
        | none => p.2
        | some ours => f ours p.2)) m).entries = m.entries ++ l := by
    clear h
    induction l with
    | nil => simp
    | cons p l ih =>
      intro m hm
      have hnew : p.1 ∉ m.entries.map Prod.fst := by
        rw [map_append, map_cons] at hm
        exact fun hmem => (nodup_append.1 hm).2.2 _ hmem _ mem_cons_self rfl
      have hnone : m.get? p.1 = none := (get?_eq_none_iff m p.1).2 hnew
      have hset : (m.set p.1 p.2).entries = m.entries ++ [p] := bind_of_notMem p.2 hnew
      rw [foldl_cons, hnone, ih, hset, append_assoc, singleton_append]
      rw [hset, append_assoc, singleton_append]
      exact hm
  exact hfold empty h

end Gather

section Equals

variable [DecidableEq κ]

/-- The comparison that checks the sizes and then looks every binding of one
map up in the other. -/
def equalsBy (r : α → β → Bool) (m : OrderedMap κ α) (m' : OrderedMap κ β) : Bool :=
  m.size == m'.size && m.entries.all fun p =>
    match m'.get? p.1 with
    | none => false
    | some b => r p.2 b

/-- The comparison succeeds exactly when the two maps bind the same keys, to related values. -/
lemma equalsBy_iff (r : α → β → Bool) (m : OrderedMap κ α) (m' : OrderedMap κ β) :
    m.equalsBy r m' = true ↔
      ∀ k, (m.get? k = none ∧ m'.get? k = none) ∨
        ∃ a b, m.get? k = some a ∧ m'.get? k = some b ∧ r a b = true := by
  have hall : (m.entries.all fun p =>
        match m'.get? p.1 with
        | none => false
        | some b => r p.2 b) = true ↔
      ∀ k a, m.get? k = some a → ∃ b, m'.get? k = some b ∧ r a b = true := by
    rw [all_eq_true]
    constructor
    · intro h k a hk
      have hp := h (k, a) ((get?_eq_some_iff m k a).1 hk)
      cases hm' : m'.get? k with
      | none => simp [hm'] at hp
      | some b => exact ⟨b, rfl, by simpa [hm'] using hp⟩
    · rintro h ⟨k, a⟩ hp
      obtain ⟨b, hb, hr⟩ := h k a ((get?_eq_some_iff m k a).2 hp)
      simpa [hb] using hr
  rw [equalsBy, Bool.and_eq_true, beq_iff_eq, hall]
  constructor
  · rintro ⟨hsize, h⟩ k
    cases hk : m.get? k with
    | some a =>
      obtain ⟨b, hb, hr⟩ := h k a hk
      exact .inr ⟨a, b, rfl, hb, hr⟩
    | none =>
      refine .inl ⟨rfl, ?_⟩
      have hsub : m.keys ⊆ m'.keys := by
        intro k' hk'
        obtain ⟨a, ha⟩ := (mem_keys_iff m k').1 hk'
        obtain ⟨b, hb, -⟩ := h k' a ha
        exact (mem_keys_iff m' k').2 ⟨b, hb⟩
      have hperm : m.keys.Perm m'.keys :=
        (subperm_of_subset m.nodup_keys hsub).perm_of_length_le
          (by rw [length_keys, length_keys, hsize])
      rw [get?_eq_none_iff] at hk ⊢
      exact fun hk' => hk (hperm.mem_iff.2 hk')
  · intro h
    constructor
    · apply size_eq_of_keys
      intro k
      rw [mem_keys_iff, mem_keys_iff]
      rcases h k with ⟨hm, hm'⟩ | ⟨a, b, hm, hm', -⟩ <;> simp [hm, hm']
    · intro k a hk
      rcases h k with ⟨hm, -⟩ | ⟨a', b, hm, hm', hr⟩
      · simp [hm] at hk
      · rw [hm, Option.some.injEq] at hk
        exact ⟨b, hm', hk ▸ hr⟩

end Equals

section Alike

variable [DecidableEq κ]

/-- The maps bind the same keys, to related values. -/
def Alike (R : α → β → Prop) (m : OrderedMap κ α) (m' : OrderedMap κ β) : Prop :=
  ∀ k, Option.Rel R (m.get? k) (m'.get? k)

variable {R : α → β → Prop} {m : OrderedMap κ α} {m' : OrderedMap κ β} {f : α → α → α}

lemma Alike.refl {R : α → α → Prop} (hR : ∀ a, R a a) (m : OrderedMap κ α) : Alike R m m := by
  intro k
  cases m.get? k with
  | none => exact .none
  | some a => exact .some (hR a)

lemma rel_merge {R : α → α → Prop} (hf : ∀ a a' b, R a a' → R (f a b) (f a' b))
    (hrefl : ∀ b, R b b) {o o' : Option α} (h : Option.Rel R o o') (x : Option α) :
    Option.Rel R (Option.merge f o x) (Option.merge f o' x) := by
  cases h with
  | none =>
    cases x with
    | none => exact .none
    | some b => exact .some (hrefl b)
  | some hR =>
    cases x with
    | none => exact .some hR
    | some b => exact .some (hf _ _ b hR)

lemma Alike.mergeInto {R : α → α → Prop} {m' : OrderedMap κ α}
    (hf : ∀ a a' b, R a a' → R (f a b) (f a' b)) (hrefl : ∀ b, R b b) (h : Alike R m m')
    (other : OrderedMap κ α) : Alike R (m.mergeInto f other) (m'.mergeInto f other) := by
  intro k
  rw [get?_mergeInto, get?_mergeInto]
  exact rel_merge hf hrefl (h k) _

lemma Alike.equalsBy {r : α → β → Bool} (h : Alike R m m') (hr : ∀ a b, R a b → r a b = true) :
    m.equalsBy r m' = true := by
  refine (equalsBy_iff r m m').2 fun k => ?_
  have hrel := h k
  revert hrel
  cases m.get? k with
  | none =>
    cases m'.get? k with
    | some a' => rintro ⟨⟩
    | none => simp
  | some a =>
    cases m'.get? k with
    | none => rintro ⟨⟩
    | some b =>
      rintro ⟨hR⟩
      exact .inr ⟨a, b, rfl, rfl, hr a b hR⟩

end Alike

end OrderedMap

@[ext] structure OrderedSet (α : Type*) where
  elems : List α
  nodup : elems.Nodup
  deriving DecidableEq

namespace OrderedSet

variable {α : Type*}

def empty : OrderedSet α := ⟨[], List.nodup_nil⟩

def size (s : OrderedSet α) : ℕ := s.elems.length

instance : Membership α (OrderedSet α) := ⟨fun s a => a ∈ s.elems⟩

variable (s : OrderedSet α) (a : α)

lemma mem_def : a ∈ s ↔ a ∈ s.elems := Iff.rfl

@[simp] lemma not_mem_empty : a ∉ (empty : OrderedSet α) := not_mem_nil

lemma size_pos_iff : 0 < s.size ↔ ∃ a, a ∈ s :=
  length_pos_iff_exists_mem

lemma ncard_mem : { a | a ∈ s }.ncard = s.size := by
  classical
  rw [size, ← toFinset_card_of_nodup s.nodup, ← Set.ncard_coe_finset]
  congr
  simp [mem_def]

variable [DecidableEq α]

instance (s : OrderedSet α) (a : α) : Decidable (a ∈ s) :=
  inferInstanceAs (Decidable (a ∈ s.elems))

def has (s : OrderedSet α) (a : α) : Bool := decide (a ∈ s)

@[simp] lemma has_iff : s.has a = true ↔ a ∈ s := by
  simp [has]

def add (s : OrderedSet α) (a : α) : OrderedSet α :=
  if h : a ∈ s.elems then s
  else ⟨s.elems ++ [a], by simpa [List.nodup_append] using ⟨s.nodup, fun b hb => fun he => h (he ▸ hb)⟩⟩

def delete (s : OrderedSet α) (a : α) : OrderedSet α :=
  ⟨s.elems.filter (· ≠ a), s.nodup.filter _⟩

@[simp] lemma mem_add (b : α) : b ∈ s.add a ↔ b = a ∨ b ∈ s := by
  by_cases h : a ∈ s.elems
  · rw [add, dif_pos h]
    constructor
    · exact .inr
    · rintro (rfl | hb)
      · exact h
      · exact hb
  · rw [add, dif_neg h]
    simp [mem_def, or_comm]

@[simp] lemma mem_delete (b : α) : b ∈ s.delete a ↔ b ∈ s ∧ b ≠ a := by
  simp [delete, mem_def]

/-- The members, without their order. -/
def toFinset (s : OrderedSet α) : Finset α := s.elems.toFinset

@[simp] lemma mem_toFinset : a ∈ s.toFinset ↔ a ∈ s :=
  List.mem_toFinset

@[simp] lemma card_toFinset : s.toFinset.card = s.size :=
  toFinset_card_of_nodup s.nodup

@[simp] lemma toFinset_add : (s.add a).toFinset = insert a s.toFinset := by
  ext b
  simp

@[simp] lemma toFinset_delete : (s.delete a).toFinset = s.toFinset.erase a := by
  ext b
  simp [and_comm]

/-- Add the elements of a list one after the other. -/
def addAll (s : OrderedSet α) (l : List α) : OrderedSet α := l.foldl add s

@[simp] lemma mem_addAll (l : List α) (b : α) : b ∈ s.addAll l ↔ b ∈ s ∨ b ∈ l := by
  induction l generalizing s with
  | nil => simp [addAll]
  | cons a l ih =>
    have hstep : s.addAll (a :: l) = (s.add a).addAll l := rfl
    rw [hstep, ih, mem_add, mem_cons]
    tauto

lemma addAll_empty : empty.addAll s.elems = s := by
  have hfold : ∀ (l : List α) (t : OrderedSet α), (t.elems ++ l).Nodup →
      (t.addAll l).elems = t.elems ++ l := by
    intro l
    induction l with
    | nil =>
      intro t _
      exact (append_nil _).symm
    | cons a l ih =>
      intro t hnodup
      have hnew : a ∉ t.elems := by
        intro hmem
        exact (nodup_append.1 hnodup).2.2 a hmem a mem_cons_self rfl
      have hadd : (t.add a).elems = t.elems ++ [a] := by rw [add, dif_neg hnew]
      have hstep : t.addAll (a :: l) = (t.add a).addAll l := rfl
      rw [hstep, ih, hadd, append_assoc, singleton_append]
      rwa [hadd, append_assoc, singleton_append]
  ext1
  exact hfold s.elems empty s.nodup

/-- The comparison that checks the sizes and then looks every element of one
set up in the other. -/
def equals (s t : OrderedSet α) : Bool :=
  s.size == t.size && s.elems.all t.has

lemma equals_iff (t : OrderedSet α) : s.equals t = true ↔ ∀ a, a ∈ s ↔ a ∈ t := by
  rw [equals, Bool.and_eq_true, beq_iff_eq, all_eq_true]
  constructor
  · rintro ⟨hsize, h⟩ a
    have hsub : s.elems ⊆ t.elems := fun b hb => (has_iff t b).1 (h b hb)
    have hperm : s.elems.Perm t.elems :=
      (List.subperm_of_subset s.nodup hsub).perm_of_length_le (Nat.le_of_eq hsize.symm)
    exact hperm.mem_iff
  · intro h
    have hperm : s.elems.Perm t.elems :=
      (List.perm_ext_iff_of_nodup s.nodup t.nodup).2 h
    exact ⟨hperm.length_eq, fun b hb => (has_iff t b).2 ((h b).1 hb)⟩

end OrderedSet

/-- Comparing two maps of non-empty sets key by key is comparing what belongs to which key. -/
lemma OrderedMap.equalsBy_members_iff {κ α τ : Type*} [DecidableEq κ] [DecidableEq τ]
    (members : α → OrderedSet τ) {m m' : OrderedMap κ α}
    (hm : ∀ k a, m.get? k = some a → ∃ t, t ∈ members a)
    (hm' : ∀ k a, m'.get? k = some a → ∃ t, t ∈ members a) :
    m.equalsBy (fun a b => (members a).equals (members b)) m' = true ↔
      ∀ k t, (∃ a, m.get? k = some a ∧ t ∈ members a) ↔
        ∃ a, m'.get? k = some a ∧ t ∈ members a := by
  rw [OrderedMap.equalsBy_iff]
  constructor
  · intro h k t
    rcases h k with ⟨h1, h2⟩ | ⟨a, b, h1, h2, heq⟩
    · simp [h1, h2]
    · simpa [h1, h2] using (OrderedSet.equals_iff _ _).1 heq t
  · intro h k
    cases h1 : m.get? k with
    | none =>
      cases h2 : m'.get? k with
      | none => simp
      | some b =>
        obtain ⟨t, ht⟩ := hm' k b h2
        obtain ⟨a, ha, -⟩ := (h k t).2 ⟨b, h2, ht⟩
        rw [h1] at ha
        cases ha
    | some a =>
      obtain ⟨t, ht⟩ := hm k a h1
      obtain ⟨b, h2, -⟩ := (h k t).1 ⟨a, h1, ht⟩
      refine .inr ⟨a, b, rfl, h2, (OrderedSet.equals_iff _ _).2 ?_⟩
      intro t'
      simpa [h1, h2] using h k t'
