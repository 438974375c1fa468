import Mathlib.Data.Option.Basic
import Mathlib.Data.List.Basic
import Mathlib.Order.MinMax

/-!
# Merge operations that form a semilattice

A state-based replicated type is a type with a merge that is idempotent, commutative and associative
up to a comparison. The laws are asked for only of the states that satisfy a predicate.

`MergeTree` is any way of merging states together: in any order, with any
repetitions, merging what was merged before. Where the laws hold as equations,
the outcome depends on nothing but which states went in.
-/

/-- On the states that satisfy `p`, `merge` is a semilattice operation up to
`same`. -/
structure SemilatticeOn {σ : Type*} (p : σ → Prop) (same : σ → σ → Prop)
    (merge : σ → σ → σ) : Prop where
  refl : ∀ a, p a → same a a
  idem : ∀ a, p a → same (merge a a) a
  comm : ∀ a b, p a → p b → same (merge a b) (merge b a)
  assoc : ∀ a b c, p a → p b → p c → same (merge (merge a b) c) (merge a (merge b c))

/-- A merge that ends up at the larger of two ranks is a semilattice operation on
states that their rank identifies. -/
lemma SemilatticeOn.of_rank {σ L : Type*} [LinearOrder L] {p : σ → Prop}
    {merge : σ → σ → σ} {rank : σ → L} (hclosed : ∀ a b, p a → p b → p (merge a b))
    (hrank : ∀ a b, rank (merge a b) = max (rank a) (rank b))
    (hinj : ∀ a b, p a → p b → rank a = rank b → a = b) : SemilatticeOn p Eq merge where
  refl _ _ := rfl
  idem a ha := by
    refine hinj _ _ (hclosed a a ha ha) ha ?_
    rw [hrank, max_self]
  comm a b ha hb := by
    refine hinj _ _ (hclosed a b ha hb) (hclosed b a hb ha) ?_
    rw [hrank, hrank, max_comm]
  assoc a b c ha hb hc := by
    refine hinj _ _ (hclosed _ c (hclosed a b ha hb) hc) (hclosed a _ ha (hclosed b c hb hc)) ?_
    rw [hrank, hrank, hrank, hrank, max_assoc]

/-- A way of merging states together. -/
inductive MergeTree (σ : Type*) where
  | leaf (s : σ)
  | node (l r : MergeTree σ)

open List

namespace MergeTree

variable {σ τ : Type*}

def eval (merge : σ → σ → σ) : MergeTree σ → σ
  | leaf s => s
  | node l r => merge (l.eval merge) (r.eval merge)

/-- The states that go in, from left to right and with their repetitions. -/
def leaves : MergeTree σ → List σ
  | leaf s => [s]
  | node l r => l.leaves ++ r.leaves

def map (f : σ → τ) : MergeTree σ → MergeTree τ
  | leaf s => leaf (f s)
  | node l r => node (l.map f) (r.map f)

@[simp] lemma leaves_map (f : σ → τ) (t : MergeTree σ) :
    (t.map f).leaves = t.leaves.map f := by
  induction t with
  | leaf s => rfl
  | node l r ihl ihr => simp [map, leaves, ihl, ihr]

/-- A reading of the states that commutes with the merges commutes with every
way of merging. -/
lemma eval_map {merge : σ → σ → σ} {merge' : τ → τ → τ} {f : σ → τ}
    (hf : ∀ a b, f (merge a b) = merge' (f a) (f b)) (t : MergeTree σ) :
    f (t.eval merge) = (t.map f).eval merge' := by
  induction t with
  | leaf s => rfl
  | node l r ihl ihr => rw [eval, hf, ihl, ihr, map, eval]

variable {p : σ → Prop} {merge : σ → σ → σ}

variable {t : MergeTree σ}

lemma eval_mem (hclosed : ∀ a b, p a → p b → p (merge a b)) (ht : ∀ s ∈ t.leaves, p s) :
    p (t.eval merge) := by
  induction t with
  | leaf s => exact ht s (by simp [leaves])
  | node l r ihl ihr =>
    refine hclosed _ _ (ihl fun s hs => ht s ?_) (ihr fun s hs => ht s ?_)
    · exact mem_append_left _ hs
    · exact mem_append_right _ hs

lemma merge_leaf_eval (h : SemilatticeOn p Eq merge) (hclosed : ∀ a b, p a → p b → p (merge a b))
    (ht : ∀ s ∈ t.leaves, p s) {s : σ} (hs : s ∈ t.leaves) :
    merge s (t.eval merge) = t.eval merge := by
  induction t with
  | leaf s' =>
    obtain rfl : s = s' := by simpa [leaves] using hs
    exact h.idem s (ht s (by simp [leaves]))
  | node l r ihl ihr =>
    have hl : ∀ s ∈ l.leaves, p s := fun s hs => ht s (mem_append_left _ hs)
    have hr : ∀ s ∈ r.leaves, p s := fun s hs => ht s (mem_append_right _ hs)
    have hpl := eval_mem hclosed hl
    have hpr := eval_mem hclosed hr
    rcases mem_append.1 hs with hs | hs
    · rw [eval, ← h.assoc s _ _ (hl s hs) hpl hpr, ihl hl hs]
    · rw [eval, h.comm _ _ hpl hpr, ← h.assoc s _ _ (hr s hs) hpr hpl, ihr hr hs]

lemma merge_eval_of_leaves (h : SemilatticeOn p Eq merge)
    (hclosed : ∀ a b, p a → p b → p (merge a b)) (ht : ∀ s ∈ t.leaves, p s) {b : σ} (hb : p b)
    (habsorb : ∀ s ∈ t.leaves, merge s b = b) : merge (t.eval merge) b = b := by
  induction t with
  | leaf s => exact habsorb s (by simp [leaves])
  | node l r ihl ihr =>
    have hl : ∀ s ∈ l.leaves, p s := fun s hs => ht s (mem_append_left _ hs)
    have hr : ∀ s ∈ r.leaves, p s := fun s hs => ht s (mem_append_right _ hs)
    rw [eval, h.assoc _ _ _ (eval_mem hclosed hl) (eval_mem hclosed hr) hb,
      ihr hr fun s hs => habsorb s (mem_append_right _ hs),
      ihl hl fun s hs => habsorb s (mem_append_left _ hs)]

lemma eval_eq_of_leaves (h : SemilatticeOn p Eq merge)
    (hclosed : ∀ a b, p a → p b → p (merge a b)) {t' : MergeTree σ} (ht : ∀ s ∈ t.leaves, p s)
    (hsame : ∀ s, s ∈ t.leaves ↔ s ∈ t'.leaves) : t.eval merge = t'.eval merge := by
  have ht' : ∀ s ∈ t'.leaves, p s := fun s hs => ht s ((hsame s).2 hs)
  have hle : merge (t.eval merge) (t'.eval merge) = t'.eval merge :=
    merge_eval_of_leaves h hclosed ht (eval_mem hclosed ht') fun s hs =>
      merge_leaf_eval h hclosed ht' ((hsame s).1 hs)
  have hge : merge (t'.eval merge) (t.eval merge) = t.eval merge :=
    merge_eval_of_leaves h hclosed ht' (eval_mem hclosed ht) fun s hs =>
      merge_leaf_eval h hclosed ht ((hsame s).2 hs)
  rw [← hge, h.comm _ _ (eval_mem hclosed ht') (eval_mem hclosed ht), hle]

end MergeTree

lemma SemilatticeOn.option {σ : Type*} {p : σ → Prop} {merge : σ → σ → σ}
    (h : SemilatticeOn p Eq merge) :
    SemilatticeOn (fun o : Option σ => ∀ a ∈ o, p a) Eq (Option.merge merge) := by
  refine ⟨fun _ _ => rfl, ?_, ?_, ?_⟩
  · rintro (_ | a) ha
    · rfl
    · exact congrArg some (h.idem a (ha a rfl))
  · rintro (_ | a) (_ | b) ha hb
    · rfl
    · rfl
    · rfl
    · exact congrArg some (h.comm a b (ha a rfl) (hb b rfl))
  · rintro (_ | a) (_ | b) (_ | c) ha hb hc
    all_goals first
      | rfl
      | exact congrArg some (h.assoc a b c (ha a rfl) (hb b rfl) (hc c rfl))

/-- A semilattice operation whose comparison is an equivalence that the merge
respects, on states that the merge does not leave. -/
structure MergeOrderOn {σ : Type*} (p : σ → Prop) (same : σ → σ → Prop)
    (merge : σ → σ → σ) : Prop extends SemilatticeOn p same merge where
  symm : ∀ a b, p a → p b → same a b → same b a
  trans : ∀ a b c, p a → p b → p c → same a b → same b c → same a c
  closed : ∀ a b, p a → p b → p (merge a b)
  congr : ∀ a a' b, p a → p a' → p b → same a a' → same (merge a b) (merge a' b)

lemma SemilatticeOn.mergeOrderOn {σ : Type*} {p : σ → Prop} {merge : σ → σ → σ}
    (h : SemilatticeOn p Eq merge) (hclosed : ∀ a b, p a → p b → p (merge a b)) :
    MergeOrderOn p Eq merge where
  toSemilatticeOn := h
  symm _ _ _ _ := Eq.symm
  trans _ _ _ _ _ _ := Eq.trans
  closed := hclosed
  congr _ _ b _ _ _ heq := congrArg (merge · b) heq

/-- The first state absorbs the second: merging it in changes nothing. -/
def AbsorbsState {σ : Type*} (same : σ → σ → Prop) (merge : σ → σ → σ) (a b : σ) : Prop :=
  same (merge a b) a

/-- The order of absorption, with a bottom for the state that is not there. -/
def Below {σ : Type*} (same : σ → σ → Prop) (merge : σ → σ → σ) : Option σ → Option σ → Prop
  | none, _ => True
  | some _, none => False
  | some a, some b => AbsorbsState same merge b a

instance {σ : Type*} (same : σ → σ → Prop) [DecidableRel same] (merge : σ → σ → σ)
    (x y : Option σ) : Decidable (Below same merge x y) :=
  match x, y with
  | none, _ => isTrue trivial
  | some _, none => isFalse id
  | some a, some b => inferInstanceAs (Decidable (same (merge b a) b))

namespace MergeOrderOn

variable {σ : Type*} {p : σ → Prop} {same : σ → σ → Prop} {merge : σ → σ → σ}
  (h : MergeOrderOn p same merge) {a b c : σ}

include h

lemma absorbs_refl (ha : p a) : AbsorbsState same merge a a := h.idem a ha

lemma absorbs_merge_right (ha : p a) (hb : p b) : AbsorbsState same merge (merge a b) b := by
  have hbb := h.closed b b hb hb
  have hab := h.closed a b ha hb
  have hassoc := h.assoc a b b ha hb hb
  refine h.trans _ _ _ (h.closed _ _ hab hb) (h.closed _ _ ha hbb) hab hassoc ?_
  -- the merge respects the comparison on its other side too, by commutativity
  refine h.trans _ _ _ (h.closed _ _ ha hbb) (h.closed _ _ hbb ha) hab (h.comm _ _ ha hbb) ?_
  refine h.trans _ _ _ (h.closed _ _ hbb ha) (h.closed _ _ hb ha) hab ?_ (h.comm _ _ hb ha)
  exact h.congr _ _ _ hbb hb ha (h.idem b hb)

lemma absorbs_merge_left (ha : p a) (hb : p b) : AbsorbsState same merge (merge a b) a := by
  have hab := h.closed a b ha hb
  have hba := h.closed b a hb ha
  refine h.trans _ _ _ (h.closed _ _ hab ha) (h.closed _ _ hba ha) hab ?_ ?_
  · exact h.congr _ _ _ hab hba ha (h.comm a b ha hb)
  · exact h.trans _ _ _ (h.closed _ _ hba ha) hba hab (h.absorbs_merge_right hb ha)
      (h.comm b a hb ha)

lemma absorbs_trans (ha : p a) (hb : p b) (hc : p c) (hcb : AbsorbsState same merge c b)
    (hba : AbsorbsState same merge b a) : AbsorbsState same merge c a := by
  have hcb' := h.closed c b hc hb
  have hba' := h.closed b a hb ha
  have hca := h.closed c a hc ha
  have hexpand : same (merge c a) (merge (merge c b) a) :=
    h.congr _ _ _ hc hcb' ha (h.symm _ _ hcb' hc hcb)
  have hregroup : same (merge (merge c b) a) (merge c (merge b a)) := h.assoc c b a hc hb ha
  have hinner : same (merge c (merge b a)) (merge c b) := by
    refine h.trans _ _ _ (h.closed _ _ hc hba') (h.closed _ _ hba' hc) hcb' (h.comm _ _ hc hba') ?_
    refine h.trans _ _ _ (h.closed _ _ hba' hc) (h.closed _ _ hb hc) hcb' ?_ (h.comm _ _ hb hc)
    exact h.congr _ _ _ hba' hb hc hba
  refine h.trans _ _ _ hca (h.closed _ _ hcb' ha) hc hexpand ?_
  refine h.trans _ _ _ (h.closed _ _ hcb' ha) (h.closed _ _ hc hba') hc hregroup ?_
  exact h.trans _ _ _ (h.closed _ _ hc hba') hcb' hc hinner hcb

lemma absorbs_of_same (ha : p a) (hb : p b) (hab : same a b) : AbsorbsState same merge a b := by
  refine h.trans _ _ _ (h.closed _ _ ha hb) (h.closed _ _ hb hb) ha ?_ ?_
  · exact h.congr _ _ _ ha hb hb hab
  · exact h.trans _ _ _ (h.closed _ _ hb hb) hb ha (h.idem b hb) (h.symm _ _ ha hb hab)

lemma below_refl {x : Option σ} (hx : ∀ a ∈ x, p a) : Below same merge x x := by
  cases x with
  | none => trivial
  | some a => exact h.absorbs_refl (hx a rfl)

lemma below_trans {x y z : Option σ} (hx : ∀ a ∈ x, p a) (hy : ∀ a ∈ y, p a)
    (hz : ∀ a ∈ z, p a) (hxy : Below same merge x y) (hyz : Below same merge y z) :
    Below same merge x z := by
  match x, y, z with
  | none, _, _ => trivial
  | some a, none, _ => exact hxy.elim
  | some a, some b, none => exact hyz.elim
  | some a, some b, some c => exact h.absorbs_trans (hx a rfl) (hy b rfl) (hz c rfl) hyz hxy

/-- Merging into a state, or putting one where there was none, goes up from both. -/
lemma below_of_join {x : Option σ} (hx : ∀ a ∈ x, p a) (hb : p b) (hc : c = match x with
      | none => b
      | some a => merge a b) :
    p c ∧ Below same merge x (some c) ∧ Below same merge (some b) (some c) := by
  subst hc
  cases x with
  | none => exact ⟨hb, trivial, h.absorbs_refl hb⟩
  | some a =>
    have ha := hx a rfl
    exact ⟨h.closed a b ha hb, h.absorbs_merge_left ha hb, h.absorbs_merge_right ha hb⟩

end MergeOrderOn
