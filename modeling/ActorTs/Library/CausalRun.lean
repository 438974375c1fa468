import Mathlib.Data.Finset.Basic

/-!
# Runs of replicas that exchange whole states

A run has any number of replicas, one state each. A replica issues an update of its own, or absorbs
a state that some replica held at some earlier moment: in any order, any number of times or not at
all.

Every held state carries the set of updates it has absorbed, its *causal
history*, and every update carries the history its issuer had when it was
issued. An update is named by its position in the log. The histories are
bookkeeping of the run: no operation reads them.

`Reachable.invariant` is the induction over runs. It hands every step what
holds in any run whatever the operations are: histories are closed under the
pasts of their updates, and a replica's own history contains all it issued.
-/

open List Finset

namespace CausalRun

variable {ι Op σ : Type*}

/-- One update of a run: its issuer, what it does, and the positions of the
updates its issuer had absorbed by then. -/
structure Update (ι Op : Type*) where
  issuer : ι
  op : Op
  past : Finset ℕ

/-- A state together with the positions of the updates it has absorbed. -/
structure Held (σ : Type*) where
  state : σ
  history : Finset ℕ

/-- The log of updates, what every replica holds now, and everything that any
replica has held so far. -/
structure World (ι Op σ : Type*) where
  log : List (Update ι Op)
  held : ι → Held σ
  archive : List (Held σ)

namespace World

def initial (s₀ : σ) : World ι Op σ := ⟨[], fun _ => ⟨s₀, ∅⟩, [⟨s₀, ∅⟩]⟩

variable [DecidableEq ι]

/-- Replica `i` moves to the state `h`, which is archived. -/
def hold (w : World ι Op σ) (i : ι) (h : Held σ) : World ι Op σ :=
  ⟨w.log, Function.update w.held i h, h :: w.archive⟩

/-- Replica `i` issues the update `op`, which brings it to the state `s`. -/
def issue (w : World ι Op σ) (i : ι) (op : Op) (s : σ) : World ι Op σ :=
  { w.hold i ⟨s, insert w.log.length (w.held i).history⟩ with
    log := w.log ++ [⟨i, op, (w.held i).history⟩] }

/-- Replica `i` absorbs a state, and with it the history of that state. -/
def absorb (merge : σ → σ → σ) (w : World ι Op σ) (i : ι) (other : Held σ) : World ι Op σ :=
  w.hold i ⟨merge (w.held i).state other.state, (w.held i).history ∪ other.history⟩

end World

/-- The worlds a run can reach. `perform log i s op s'` says that replica `i`
can issue `op` in the state `s`, with the outcome `s'`; it sees the log, so that
an assumption on the whole run such as the freshness of a name can be part of
it. -/
inductive Reachable [DecidableEq ι]
    (perform : List (Update ι Op) → ι → σ → Op → σ → Prop) (merge : σ → σ → σ) (s₀ : σ) :
    World ι Op σ → Prop
  | initial : Reachable perform merge s₀ (World.initial s₀)
  | issue {w : World ι Op σ} {i : ι} {op : Op} {s : σ} :
      Reachable perform merge s₀ w → perform w.log i (w.held i).state op s →
      Reachable perform merge s₀ (w.issue i op s)
  | absorb {w : World ι Op σ} {i : ι} {other : Held σ} :
      Reachable perform merge s₀ w → other ∈ w.archive →
      Reachable perform merge s₀ (w.absorb merge i other)

/-- A set of updates that lies in the log and contains the past of each of its
members. -/
structure ClosedIn (log : List (Update ι Op)) (s : Finset ℕ) : Prop where
  bounded : ∀ n ∈ s, n < log.length
  closed : ∀ n ∈ s, ∀ u, log[n]? = some u → u.past ⊆ s

/-- Every update of the log has an earlier past, itself closed. -/
def LogCausal (log : List (Update ι Op)) : Prop :=
  ∀ (n : ℕ) (u : Update ι Op), log[n]? = some u →
    (∀ m ∈ u.past, m < n) ∧ ClosedIn log u.past

/-- The history `s` contains every update replica `i` has issued. -/
def Own (log : List (Update ι Op)) (i : ι) (s : Finset ℕ) : Prop :=
  ∀ (n : ℕ) (u : Update ι Op), log[n]? = some u → u.issuer = i → n ∈ s

lemma getElem?_append_one {α : Type*} {l : List α} {a b : α} {n : ℕ}
    (h : (l ++ [a])[n]? = some b) : l[n]? = some b ∨ n = l.length ∧ b = a := by
  rcases lt_trichotomy n l.length with hn | hn | hn
  · exact .inl (by rwa [getElem?_append_left hn] at h)
  · subst hn
    exact .inr ⟨rfl, by simpa using h.symm⟩
  · have hlen : (l ++ [a]).length ≤ n := by
      simp only [length_append, length_singleton]
      omega
    rw [getElem?_eq_none hlen] at h
    cases h

lemma getElem?_append_of_some {α : Type*} {l : List α} {b : α} {n : ℕ} (l' : List α)
    (h : l[n]? = some b) : (l ++ l')[n]? = some b := by
  rw [List.getElem?_append_left (List.getElem?_eq_some_iff.1 h).1, h]

lemma ClosedIn.empty (log : List (Update ι Op)) : ClosedIn log ∅ :=
  ⟨by simp, by simp⟩

variable {log : List (Update ι Op)} {s : Finset ℕ} {t : Finset ℕ} {I : σ → Prop}

lemma ClosedIn.extend (h : ClosedIn log s) (u : Update ι Op) : ClosedIn (log ++ [u]) s := by
  constructor
  · intro n hn
    have hlt := h.bounded n hn
    simp only [length_append, length_singleton]
    omega
  · intro n hn v hv
    rw [getElem?_append_left (h.bounded n hn)] at hv
    exact h.closed n hn v hv

lemma ClosedIn.union (hs : ClosedIn log s) (ht : ClosedIn log t) : ClosedIn log (s ∪ t) := by
  constructor
  · intro n hn
    rcases mem_union.1 hn with hn | hn
    · exact hs.bounded n hn
    · exact ht.bounded n hn
  · intro n hn u hu
    rcases mem_union.1 hn with hn | hn
    · exact (hs.closed n hn u hu).trans subset_union_left
    · exact (ht.closed n hn u hu).trans subset_union_right

lemma ClosedIn.issue (h : ClosedIn log s) (i : ι) (op : Op) :
    ClosedIn (log ++ [⟨i, op, s⟩]) (insert log.length s) := by
  constructor
  · intro n hn
    rcases mem_insert.1 hn with rfl | hn
    · simp
    · exact (h.extend _).bounded n hn
  · intro n hn u hu
    rcases mem_insert.1 hn with rfl | hn
    · obtain rfl : u = ⟨i, op, s⟩ := by simpa using hu.symm
      exact subset_insert _ _
    · exact ((h.extend _).closed n hn u hu).trans (subset_insert _ _)

lemma LogCausal.extend (h : LogCausal log) (hs : ClosedIn log s) (i : ι) (op : Op) :
    LogCausal (log ++ [⟨i, op, s⟩]) := by
  intro n u hu
  rcases getElem?_append_one hu with hu | ⟨rfl, rfl⟩
  · exact ⟨(h n u hu).1, (h n u hu).2.extend _⟩
  · exact ⟨hs.bounded, hs.extend _⟩

/-- The updates of one replica are in one another's past. -/
def LogOwn (log : List (Update ι Op)) : Prop :=
  ∀ (n m : ℕ) (u v : Update ι Op), log[n]? = some u → log[m]? = some v → m < n →
    v.issuer = u.issuer → m ∈ u.past

lemma LogOwn.extend (h : LogOwn log) {i : ι} (hs : Own log i s) (op : Op) :
    LogOwn (log ++ [⟨i, op, s⟩]) := by
  intro n m u v hu hv hlt hissuer
  rcases getElem?_append_one hu with hu | ⟨rfl, rfl⟩
  · have hm : m < log.length := hlt.trans (List.getElem?_eq_some_iff.1 hu).1
    rw [getElem?_append_left hm] at hv
    exact h n m u v hu hv hlt hissuer
  · rw [getElem?_append_left hlt] at hv
    exact hs m v hv hissuer

lemma ClosedIn.nested (hlog : LogOwn log) (hs : ClosedIn log s) (ht : ClosedIn log t) (i : ι) :
    (∀ n u, log[n]? = some u → u.issuer = i → n ∈ s → n ∈ t) ∨
      ∀ n u, log[n]? = some u → u.issuer = i → n ∈ t → n ∈ s := by
  by_contra hcon
  push Not at hcon
  obtain ⟨⟨n, u, hu, hui, hns, hnt⟩, m, v, hv, hvi, hmt, hms⟩ := hcon
  rcases lt_trichotomy n m with hlt | rfl | hlt
  · exact hnt (ht.closed m hmt v hv (hlog m n v u hv hu hlt (hui.trans hvi.symm)))
  · exact hnt hmt
  · exact hms (hs.closed n hns u hu (hlog n m u v hu hv hlt (hvi.trans hui.symm)))

section Run

variable [DecidableEq ι] {perform : List (Update ι Op) → ι → σ → Op → σ → Prop}
  {merge : σ → σ → σ} {s₀ : σ} {w : World ι Op σ}

lemma Reachable.held_mem_archive (h : Reachable perform merge s₀ w) (i : ι) :
    w.held i ∈ w.archive := by
  induction h with
  | initial => simp [World.initial]
  | @issue w j op s _ _ ih =>
    by_cases hij : i = j
    · simp [World.issue, World.hold, hij]
    · simp [World.issue, World.hold, hij, ih]
  | @absorb w j other _ _ ih =>
    by_cases hij : i = j
    · simp [World.absorb, World.hold, hij]
    · simp [World.absorb, World.hold, hij, ih]

lemma Reachable.closedIn (h : Reachable perform merge s₀ w) :
    LogCausal w.log ∧ ∀ a ∈ w.archive, ClosedIn w.log a.history := by
  induction h with
  | initial =>
    refine ⟨by simp [LogCausal, World.initial], ?_⟩
    intro a ha
    rw [List.mem_singleton.1 ha]
    exact ClosedIn.empty _
  | @issue w i op s hw _ ih =>
    have hi := ih.2 _ (hw.held_mem_archive i)
    refine ⟨ih.1.extend hi i op, ?_⟩
    intro a ha
    rcases mem_cons.1 ha with rfl | ha
    · exact hi.issue i op
    · exact (ih.2 a ha).extend _
  | @absorb w i other hw hother ih =>
    refine ⟨ih.1, ?_⟩
    intro a ha
    rcases mem_cons.1 ha with rfl | ha
    · exact (ih.2 _ (hw.held_mem_archive i)).union (ih.2 other hother)
    · exact ih.2 a ha

lemma Reachable.own (h : Reachable perform merge s₀ w) (i : ι) :
    Own w.log i (w.held i).history := by
  induction h with
  | initial => simp [Own, World.initial]
  | @issue w j op s _ _ ih =>
    intro n u hu hi
    rcases getElem?_append_one hu with hu | ⟨rfl, rfl⟩
    · have hn := ih n u hu hi
      by_cases hij : i = j
      · subst hij
        simp [World.issue, World.hold, hn]
      · simp [World.issue, World.hold, hij, hn]
    · obtain rfl : j = i := hi
      simp [World.issue, World.hold]
  | @absorb w j other _ _ ih =>
    intro n u hu hi
    have hn := ih n u hu hi
    by_cases hij : i = j
    · subst hij
      simp [World.absorb, World.hold, hn]
    · simp [World.absorb, World.hold, hij, hn]

lemma Reachable.invariant {Q : List (Update ι Op) → Prop}
    {P : List (Update ι Op) → Held σ → Prop}
    (hQ : Q []) (hP : P [] ⟨s₀, ∅⟩)
    (hissue : ∀ log i h op s, LogCausal log → Q log → ClosedIn log h.history →
      Own log i h.history → P log h → perform log i h.state op s →
      Q (log ++ [⟨i, op, h.history⟩]) ∧
        P (log ++ [⟨i, op, h.history⟩]) ⟨s, insert log.length h.history⟩)
    (hextend : ∀ log u h, ClosedIn log h.history → P log h → P (log ++ [u]) h)
    (habsorb : ∀ log a b, LogCausal log → Q log → ClosedIn log a.history →
      ClosedIn log b.history → P log a → P log b →
      P log ⟨merge a.state b.state, a.history ∪ b.history⟩)
    (h : Reachable perform merge s₀ w) :
    Q w.log ∧ ∀ a ∈ w.archive, P w.log a := by
  induction h with
  | initial =>
    refine ⟨hQ, ?_⟩
    intro a ha
    rw [List.mem_singleton.1 ha]
    exact hP
  | @issue w i op s hw hperform ih =>
    have hclosed := hw.closedIn
    have hi := hw.held_mem_archive i
    have hnew := hissue w.log i (w.held i) op s hclosed.1 ih.1 (hclosed.2 _ hi) (hw.own i)
      (ih.2 _ hi) hperform
    refine ⟨hnew.1, ?_⟩
    intro a ha
    rcases mem_cons.1 ha with rfl | ha
    · exact hnew.2
    · exact hextend w.log _ a (hclosed.2 a ha) (ih.2 a ha)
  | @absorb w i other hw hother ih =>
    have hclosed := hw.closedIn
    have hi := hw.held_mem_archive i
    refine ⟨ih.1, ?_⟩
    intro a ha
    rcases mem_cons.1 ha with rfl | ha
    · exact habsorb w.log _ other hclosed.1 ih.1 (hclosed.2 _ hi) (hclosed.2 other hother)
        (ih.2 _ hi) (ih.2 other hother)
    · exact ih.2 a ha

lemma Reachable.states (hinit : I s₀)
    (hissue : ∀ log i s op s', I s → perform log i s op s' → I s')
    (habsorb : ∀ a b, I a → I b → I (merge a b)) (h : Reachable perform merge s₀ w) :
    ∀ a ∈ w.archive, I a.state := by
  refine (Reachable.invariant (Q := fun _ => True) (P := fun _ h => I h.state)
    trivial hinit ?_ ?_ ?_ h).2
  · intro log i h op s _ _ _ _ hI hperform
    exact ⟨trivial, hissue log i h.state op s hI hperform⟩
  · intro _ _ _ _ hI
    exact hI
  · intro _ a b _ _ _ _ ha hb
    exact habsorb a.state b.state ha hb

end Run

/-! ### Reading a run through its states

A reading of the states and the updates that respects what the operations do
turns a run into a run. -/

section Map

variable {Op' σ' : Type*}

def Update.map (g : Op → Op') (u : Update ι Op) : Update ι Op' := ⟨u.issuer, g u.op, u.past⟩

def Held.map (f : σ → σ') (h : Held σ) : Held σ' := ⟨f h.state, h.history⟩

def World.map (f : σ → σ') (g : Op → Op') (w : World ι Op σ) : World ι Op' σ' :=
  ⟨w.log.map (Update.map g), fun i => (w.held i).map f, w.archive.map (Held.map f)⟩

variable [DecidableEq ι] {perform : List (Update ι Op) → ι → σ → Op → σ → Prop}
  {merge : σ → σ → σ} {s₀ : σ} {perform' : List (Update ι Op') → ι → σ' → Op' → σ' → Prop}
  {merge' : σ' → σ' → σ'} {f : σ → σ'} {g : Op → Op'}

lemma World.map_hold (w : World ι Op σ) (i : ι) (h : Held σ) :
    (w.hold i h).map f g = (w.map f g).hold i (h.map f) := by
  have hheld : (fun j => (Function.update w.held i h j).map f) =
      Function.update (fun j => (w.held j).map f) i (h.map f) := by
    funext j
    by_cases hj : j = i
    · subst hj
      simp
    · simp [hj]
  simp only [World.map, World.hold, List.map_cons, hheld]

lemma World.map_issue (w : World ι Op σ) (i : ι) (op : Op) (s : σ) :
    (w.issue i op s).map f g = (w.map f g).issue i (g op) (f s) := by
  have hhold := w.map_hold (f := f) (g := g) i ⟨s, insert w.log.length (w.held i).history⟩
  simp only [World.map, World.hold, World.mk.injEq] at hhold
  simp only [World.map, World.issue, World.hold, World.mk.injEq, length_map]
  exact ⟨by simp [Update.map, Held.map], hhold.2.1, by simp [Held.map]⟩

lemma Reachable.map (hinit : I s₀) (hissue : ∀ log i s op s', I s → perform log i s op s' → I s')
    (habsorb : ∀ a b, I a → I b → I (merge a b))
    (hperform : ∀ log i s op s', I s → perform log i s op s' →
      perform' (log.map (Update.map g)) i (f s) (g op) (f s'))
    (hmerge : ∀ a b, f (merge a b) = merge' (f a) (f b)) {w : World ι Op σ}
    (h : Reachable perform merge s₀ w) : Reachable perform' merge' (f s₀) (w.map f g) := by
  induction h with
  | initial => exact Reachable.initial
  | @issue w i op s hw hp ih =>
    have hI := hw.states hinit hissue habsorb _ (hw.held_mem_archive i)
    rw [World.map_issue]
    exact ih.issue (hperform _ _ _ _ _ hI hp)
  | @absorb w i other _ hother ih =>
    have hstep : (w.absorb merge i other).map f g = (w.map f g).absorb merge' i (other.map f) := by
      rw [World.absorb, World.map_hold, Held.map, hmerge]
      rfl
    rw [hstep]
    exact ih.absorb (mem_map_of_mem hother)

end Map

end CausalRun
