import ActorTs.Library.CausalRun
import ActorTs.Library.MergeLaws
import ActorTs.Crdt.MVRegister

/-!
# The causally maximal writes over whole runs

Replicas with ids of their own assign and merge. A register holds exactly the
writes of its causal history that are in the history of no other write of it,
each once.

What carries the proof is that the clock of a write counts, for every replica, the writes of that
replica in the write's history, itself included. A replica's writes are in one another's past, so
the count tells which of them a history has. Hence one clock dominates another exactly when its
write has the other in its past.
-/

open List Option Nat Finset

namespace ActorTs.MVRegister

open CausalRun VectorClock

variable {ι V : Type*} (replica : ι → ReplicaId)

/-- One write of a replica; the log keeps the entry it made. -/
def Performs (_ : List (Update ι (MVEntry V))) (i : ι) (s : MVRegister V) (entry : MVEntry V)
    (s' : MVRegister V) : Prop :=
  s' = s.assign (replica i) entry.value ∧ s'.entries = [entry]

variable (log : List (Update ι (MVEntry V)))

/-- Update `n` of the log was written under the replica id `r`. -/
def writtenBy (r : ReplicaId) (n : ℕ) : Bool :=
  (log[n]?).any fun u => decide (replica u.issuer = r)

/-- The number of writes of `r` in a history. -/
def writes (s : Finset ℕ) (r : ReplicaId) : ℕ := (s.filter fun n => writtenBy replica log r n).card

/-- The write `n` is in the history and in the past of no write of it. -/
def Maximal (s : Finset ℕ) (n : ℕ) : Prop :=
  n ∈ s ∧ ∀ m ∈ s, ∀ u, log[m]? = some u → n ∉ u.past

/-- The writes of one replica are in one another's past. -/
def LogOwn : Prop :=
  ∀ (n m : ℕ) (u v : Update ι (MVEntry V)), log[n]? = some u → log[m]? = some v → m < n →
    v.issuer = u.issuer → m ∈ u.past

/-- Every clock counts the writes of the write's own history. -/
def Counts : Prop :=
  ∀ (n : ℕ) (u : Update ι (MVEntry V)), log[n]? = some u →
    ∀ r, u.op.vc.version r = writes replica log (insert n u.past) r

/-- What a run keeps true of its log. -/
structure LogFaithful : Prop where
  causal : LogCausal log
  own : LogOwn log
  counts : Counts replica log

variable {replica log}

variable {n : ℕ}

lemma writtenBy_iff {r : ReplicaId} :
    writtenBy replica log r n = true ↔ ∃ u, log[n]? = some u ∧ replica u.issuer = r := by
  simp [writtenBy, Option.any_eq_true]

variable {s : Finset ℕ}

lemma writes_mono {t : Finset ℕ} (h : s ⊆ t) (r : ReplicaId) :
    writes replica log s r ≤ writes replica log t r :=
  card_le_card (filter_subset_filter _ h)

lemma writes_append (hs : ∀ n ∈ s, n < log.length) (u : Update ι (MVEntry V)) (r : ReplicaId) :
    writes replica (log ++ [u]) s r = writes replica log s r := by
  rw [writes, writes]
  congr 1
  refine filter_congr fun n hn => ?_
  rw [writtenBy, writtenBy, getElem?_append_left (hs n hn)]

variable {u : Update ι (MVEntry V)}

lemma closedIn_insert (h : LogCausal log) (hn : log[n]? = some u) :
    ClosedIn log (insert n u.past) := by
  obtain ⟨-, hclosed⟩ := h n u hn
  constructor
  · intro m hm
    rcases mem_insert.1 hm with rfl | hm
    · exact (List.getElem?_eq_some_iff.1 hn).1
    · exact hclosed.bounded m hm
  · intro m hm v hv
    rcases mem_insert.1 hm with rfl | hm
    · rw [hn, some.injEq] at hv
      exact hv ▸ subset_insert _ _
    · exact (hclosed.closed m hm v hv).trans (subset_insert _ _)

lemma insert_subset_of_mem (hs : ClosedIn log s) (hn : log[n]? = some u) (h : n ∈ s) :
    insert n u.past ⊆ s :=
  insert_subset h (hs.closed n h u hn)

lemma mem_iff_writes (hinj : Function.Injective replica) (hlog : LogFaithful replica log)
    (hs : ClosedIn log s) (hn : log[n]? = some u) :
    n ∈ s ↔ writes replica log (insert n u.past) (replica u.issuer) ≤
      writes replica log s (replica u.issuer) := by
  constructor
  · intro h
    exact writes_mono (insert_subset_of_mem hs hn h) _
  · intro hle
    by_contra hnot
    -- The replica's writes in `s` all come before `n`, so `n` has them in its past.
    have hsub : (s.filter fun m => writtenBy replica log (replica u.issuer) m) ⊆
        u.past.filter fun m => writtenBy replica log (replica u.issuer) m := by
      intro m hm
      obtain ⟨hms, hby⟩ := mem_filter.1 hm
      obtain ⟨v, hv, hissuer⟩ := writtenBy_iff.1 hby
      refine mem_filter.2 ⟨?_, hby⟩
      rcases lt_trichotomy m n with hlt | heq | hgt
      · exact hlog.own n m u v hn hv hlt (hinj hissuer)
      · exact absurd (heq ▸ hms) hnot
      · exact absurd (hs.closed m hms v hv (hlog.own m n v u hv hn hgt (hinj hissuer).symm)) hnot
    have hself : n ∉ u.past := fun h => lt_irrefl n ((hlog.causal n u hn).1 n h)
    have hlt : (u.past.filter fun m => writtenBy replica log (replica u.issuer) m).card <
        writes replica log (insert n u.past) (replica u.issuer) := by
      rw [writes, filter_insert, if_pos (writtenBy_iff.2 ⟨u, hn, rfl⟩), card_insert_of_notMem]
      · exact lt_succ_self _
      · exact fun h => hself (mem_filter.1 h).1
    exact absurd (hle.trans (card_le_card hsub)) (not_le.2 hlt)

lemma dominates_iff_mem_past (hinj : Function.Injective replica) (hlog : LogFaithful replica log)
    {m : ℕ} {v : Update ι (MVEntry V)} (hn : log[n]? = some u) (hm : log[m]? = some v) :
    v.op.vc.Dominates u.op.vc ↔ n ∈ v.past := by
  have hclosed := closedIn_insert hlog.causal hm
  constructor
  · intro hdom
    have hle := hdom.1 (replica u.issuer)
    rw [hlog.counts n u hn, hlog.counts m v hm, ← mem_iff_writes hinj hlog hclosed hn] at hle
    rcases mem_insert.1 hle with heq | hmem
    · rw [heq, hm, some.injEq] at hn
      exact absurd (hn ▸ hdom) (not_dominates_self _)
    · exact hmem
  · intro hmem
    have hsub : insert n u.past ⊆ v.past :=
      insert_subset_of_mem (hlog.causal m v hm).2 hn hmem
    refine ⟨?_, replica v.issuer, ?_⟩
    · intro r
      rw [hlog.counts n u hn, hlog.counts m v hm]
      exact writes_mono (hsub.trans (subset_insert _ _)) r
    · rw [hlog.counts n u hn, hlog.counts m v hm]
      by_contra hnot
      have hle := (not_lt.1 hnot).trans (writes_mono hsub (replica v.issuer))
      rw [← mem_iff_writes hinj hlog (hlog.causal m v hm).2 hm] at hle
      exact lt_irrefl m ((hlog.causal m v hm).1 m hle)

lemma eq_of_version_eq (hinj : Function.Injective replica) (hlog : LogFaithful replica log)
    {m : ℕ} {v : Update ι (MVEntry V)} (hn : log[n]? = some u) (hm : log[m]? = some v)
    (h : u.op.vc.version = v.op.vc.version) : n = m := by
  have hcounts : writes replica log (insert n u.past) = writes replica log (insert m v.past) := by
    funext r
    rw [← hlog.counts n u hn, ← hlog.counts m v hm, h]
  have hnm : n ∈ insert m v.past :=
    (mem_iff_writes hinj hlog (closedIn_insert hlog.causal hm) hn).2 (by rw [hcounts])
  have hmn : m ∈ insert n u.past :=
    (mem_iff_writes hinj hlog (closedIn_insert hlog.causal hn) hm).2 (by rw [hcounts])
  rcases mem_insert.1 hnm with heq | hnm
  · exact heq
  rcases mem_insert.1 hmn with heq | hmn
  · exact heq.symm
  exact absurd ((hlog.causal m v hm).1 n hnm) (not_lt.2 ((hlog.causal n u hn).1 m hmn).le)

lemma exists_maximal (hcausal : LogCausal log) (hs : ClosedIn log s) (hn : n ∈ s) :
    ∃ m v, Maximal log s m ∧ log[m]? = some v ∧ n ∈ insert m v.past := by
  -- The last write of the history that has `n` in its history.
  let above := s.filter fun m => ∃ v, log[m]? = some v ∧ n ∈ insert m v.past
  have hmem : ∀ m, m ∈ above ↔ m ∈ s ∧ ∃ v, log[m]? = some v ∧ n ∈ insert m v.past :=
    fun m => mem_filter
  obtain ⟨u, hu⟩ : ∃ u, log[n]? = some u := ⟨_, getElem?_eq_getElem (hs.bounded n hn)⟩
  have hne : above.Nonempty := ⟨n, (hmem n).2 ⟨hn, u, hu, mem_insert_self _ _⟩⟩
  obtain ⟨hms, v, hv, hnv⟩ := (hmem _).1 (above.max'_mem hne)
  refine ⟨above.max' hne, v, ⟨hms, ?_⟩, hv, hnv⟩
  intro k hk w hw hpast
  have hclosed := closedIn_insert hcausal hw
  have hsub := insert_subset_of_mem hclosed hv (mem_insert_of_mem hpast)
  have hle := above.le_max' k ((hmem k).2 ⟨hk, w, hw, hsub hnv⟩)
  exact absurd ((hcausal k w hw).1 _ hpast) (not_lt.2 hle)

/-- The register holds exactly the maximal writes of its history, each once. -/
structure Realizes (log : List (Update ι (MVEntry V))) (h : Held (MVRegister V)) : Prop where
  sound : ∀ e ∈ h.state.entries, ∃ n u, Maximal log h.history n ∧ log[n]? = some u ∧ u.op = e
  complete : ∀ n u, Maximal log h.history n → log[n]? = some u → u.op ∈ h.state.entries
  clocks : h.state.entries.Pairwise fun a b => a.vc.version ≠ b.vc.version

lemma maximal_append (hs : ClosedIn log s) (u : Update ι (MVEntry V)) (n : ℕ) :
    Maximal (log ++ [u]) s n ↔ Maximal log s n := by
  refine and_congr_right fun _ => forall_congr' fun m => forall_congr' fun hm => ?_
  rw [getElem?_append_left (hs.bounded m hm)]

lemma Realizes.extend {h : Held (MVRegister V)} (hc : ClosedIn log h.history)
    (hr : Realizes log h) (u : Update ι (MVEntry V)) : Realizes (log ++ [u]) h := by
  refine ⟨?_, ?_, hr.clocks⟩
  · intro e he
    obtain ⟨n, v, hmax, hv, hop⟩ := hr.sound e he
    exact ⟨n, v, (maximal_append hc u n).2 hmax, getElem?_append_of_some _ hv, hop⟩
  · intro n v hmax hv
    rw [getElem?_append_left (hc.bounded n hmax.1)] at hv
    exact hr.complete n v ((maximal_append hc u n).1 hmax) hv

lemma Realizes.maxVersion_eq (hinj : Function.Injective replica)
    (hlog : LogFaithful replica log) {h : Held (MVRegister V)} (hc : ClosedIn log h.history)
    (hr : Realizes log h) (r : ReplicaId) :
    h.state.maxVersion r = writes replica log h.history r := by
  apply le_antisymm
  · rw [maxVersion_le_iff]
    intro e he
    obtain ⟨n, u, hmax, hu, rfl⟩ := hr.sound e he
    rw [hlog.counts n u hu]
    exact writes_mono (insert_subset_of_mem hc hu hmax.1) r
  · rcases (h.history.filter fun n => writtenBy replica log r n).eq_empty_or_nonempty with
      hempty | hne
    · rw [writes, hempty]
      exact zero_le _
    · -- The replica's last write, and a maximal write that has it in its history.
      obtain ⟨hk, hby⟩ := mem_filter.1 (max'_mem _ hne)
      obtain ⟨w, hw, hissuer⟩ := writtenBy_iff.1 hby
      obtain ⟨m, v, hmax, hv, hmem⟩ := exists_maximal hlog.causal hc hk
      have hclosed := closedIn_insert hlog.causal hv
      have hle := (maxVersion_le_iff h.state r _).1 le_rfl _ (hr.complete m v hmax hv)
      refine le_trans ?_ hle
      rw [hlog.counts m v hv]
      refine card_le_card fun j hj => ?_
      obtain ⟨hjs, hjby⟩ := mem_filter.1 hj
      obtain ⟨x, hx, hxissuer⟩ := writtenBy_iff.1 hjby
      refine mem_filter.2 ⟨?_, hjby⟩
      rcases (le_max' _ j hj).lt_or_eq with hlt | heq
      · have hpast := hlog.own _ j w x hw hx hlt (hinj (hxissuer.trans hissuer.symm))
        exact insert_subset_of_mem hclosed hw hmem (mem_insert_of_mem hpast)
      · exact heq ▸ hmem

lemma issue_faithful (hinj : Function.Injective replica) (hlog : LogFaithful replica log)
    {h : Held (MVRegister V)} (hc : ClosedIn log h.history) (hr : Realizes log h) {i : ι}
    (hown : Own log i h.history) (value : V) :
    LogFaithful replica (log ++ [⟨i, ⟨value, h.state.nextClock (replica i)⟩, h.history⟩]) ∧
      Realizes (log ++ [⟨i, ⟨value, h.state.nextClock (replica i)⟩, h.history⟩])
        ⟨h.state.assign (replica i) value, insert log.length h.history⟩ := by
  have hnot : log.length ∉ h.history := fun hmem => lt_irrefl _ (hc.bounded _ hmem)
  refine ⟨⟨hlog.causal.extend hc i _, ?_, ?_⟩, ?_, ?_, ?_⟩
  · intro n m u v hu hv hlt hissuer
    rcases getElem?_append_one hu with hu | ⟨rfl, rfl⟩
    · have hm : m < log.length := hlt.trans (List.getElem?_eq_some_iff.1 hu).1
      rw [getElem?_append_left hm] at hv
      exact hlog.own n m u v hu hv hlt hissuer
    · rw [getElem?_append_left hlt] at hv
      exact hown m v hv hissuer
  · intro n u hu r
    rcases getElem?_append_one hu with hu | ⟨rfl, rfl⟩
    · rw [hlog.counts n u hu, writes_append (closedIn_insert hlog.causal hu).bounded]
    · rw [version_nextClock, hr.maxVersion_eq hinj hlog hc, writes, writes, filter_insert]
      have hold : writes replica
          (log ++ [⟨i, ⟨value, h.state.nextClock (replica i)⟩, h.history⟩]) h.history r =
            writes replica log h.history r := writes_append hc.bounded _ r
      rw [writes, writes] at hold
      have hnew : writtenBy replica
          (log ++ [⟨i, ⟨value, h.state.nextClock (replica i)⟩, h.history⟩]) r log.length =
            decide (replica i = r) := by
        simp [writtenBy]
      rw [hnew]
      by_cases hir : replica i = r
      · rw [if_pos hir, if_pos (decide_eq_true hir), card_insert_of_notMem, hold]
        exact fun hmem => hnot (mem_filter.1 hmem).1
      · rw [if_neg hir, if_neg (by simpa using hir), hold, add_zero]
  · intro e he
    refine ⟨log.length, _, ⟨mem_insert_self _ _, ?_⟩, getElem?_concat_length,
      (List.mem_singleton.1 he).symm⟩
    intro m hm u hu hmem
    rcases mem_insert.1 hm with rfl | hm
    · rw [getElem?_concat_length, some.injEq] at hu
      exact hnot (by rwa [← hu] at hmem)
    · rw [getElem?_append_left (hc.bounded m hm)] at hu
      exact hnot (hc.closed m hm u hu hmem)
  · intro n u hmax hu
    rcases mem_insert.1 hmax.1 with rfl | hn
    · rw [getElem?_concat_length, some.injEq] at hu
      rw [← hu]
      exact List.mem_singleton_self _
    · exact absurd hn (hmax.2 _ (mem_insert_self _ _) _ getElem?_concat_length)
  · exact pairwise_singleton _ _

lemma Realizes.absorb (hinj : Function.Injective replica) (hlog : LogFaithful replica log)
    (toTree : V → Option Json) {a b : Held (MVRegister V)} (ha : ClosedIn log a.history)
    (hb : ClosedIn log b.history) (hra : Realizes log a) (hrb : Realizes log b) :
    Realizes log ⟨a.state.merge toTree b.state, a.history ∪ b.history⟩ := by
  -- Every entry at hand is the entry of a write in the joint history.
  have hall : ∀ e ∈ a.state.entries ++ b.state.entries, ∃ n u,
      n ∈ a.history ∪ b.history ∧ log[n]? = some u ∧ u.op = e := by
    intro e he
    rcases mem_append.1 he with he | he
    · obtain ⟨n, u, hmax, hu, hop⟩ := hra.sound e he
      exact ⟨n, u, mem_union_left _ hmax.1, hu, hop⟩
    · obtain ⟨n, u, hmax, hu, hop⟩ := hrb.sound e he
      exact ⟨n, u, mem_union_right _ hmax.1, hu, hop⟩
  -- A write with another above it has an entry at hand above it.
  have habove : ∀ n m v, m ∈ a.history ∪ b.history → log[m]? = some v → n ∈ v.past →
      ∃ (k : ℕ) (w : Update ι (MVEntry V)), log[k]? = some w ∧ n ∈ w.past ∧
        w.op ∈ a.state.entries ++ b.state.entries := by
    intro n m v hm hv hpast
    have hside : ∃ (k : ℕ) (w : Update ι (MVEntry V)), log[k]? = some w ∧
        m ∈ insert k w.past ∧ w.op ∈ a.state.entries ++ b.state.entries := by
      rcases mem_union.1 hm with hm | hm
      · obtain ⟨k, w, hmax, hw, hmw⟩ := exists_maximal hlog.causal ha hm
        exact ⟨k, w, hw, hmw, mem_append_left _ (hra.complete k w hmax hw)⟩
      · obtain ⟨k, w, hmax, hw, hmw⟩ := exists_maximal hlog.causal hb hm
        exact ⟨k, w, hw, hmw, mem_append_right _ (hrb.complete k w hmax hw)⟩
    obtain ⟨k, w, hw, hmw, hmem⟩ := hside
    refine ⟨k, w, hw, ?_, hmem⟩
    rcases mem_insert.1 hmw with rfl | hmw
    · rw [hv, some.injEq] at hw
      exact hw ▸ hpast
    · exact (hlog.causal k w hw).2.closed m hmw v hv hpast
  have hsame : ∀ e ∈ a.state.entries ++ b.state.entries,
      ∀ e' ∈ a.state.entries ++ b.state.entries, e.vc.version = e'.vc.version → e = e' := by
    intro e he e' he' hversion
    obtain ⟨n, u, -, hu, rfl⟩ := hall e he
    obtain ⟨m, v, -, hv, rfl⟩ := hall e' he'
    obtain rfl := eq_of_version_eq hinj hlog hu hv hversion
    rw [hu, some.injEq] at hv
    rw [hv]
  rw [merge_eq_mergeAllPairs]
  obtain ⟨hsound, hcomplete, hkeys⟩ := survivorsAllPairs_spec toTree
    (a.state.entries ++ b.state.entries) (a.state.entries ++ b.state.entries) OrderedSet.empty
  refine ⟨?_, ?_, ?_⟩
  · intro e he
    obtain ⟨hmem, hund, -⟩ := hsound e he
    obtain ⟨n, u, hn, hu, rfl⟩ := hall e hmem
    refine ⟨n, u, ⟨hn, ?_⟩, hu, rfl⟩
    intro m hm v hv hpast
    obtain ⟨k, w, hw, hnw, hwmem⟩ := habove n m v hm hv hpast
    exact hund w.op hwmem ((dominates_iff_mem_past hinj hlog hu hw).2 hnw)
  · intro n u hmax hu
    have hmem : u.op ∈ a.state.entries ++ b.state.entries := by
      rcases mem_union.1 hmax.1 with hn | hn
      · refine mem_append_left _ (hra.complete n u ⟨hn, fun m hm v hv => ?_⟩ hu)
        exact hmax.2 m (mem_union_left _ hm) v hv
      · refine mem_append_right _ (hrb.complete n u ⟨hn, fun m hm v hv => ?_⟩ hu)
        exact hmax.2 m (mem_union_right _ hm) v hv
    have hund : Undominated (a.state.entries ++ b.state.entries) u.op := by
      intro o ho hdom
      obtain ⟨m, v, hm, hv, rfl⟩ := hall o ho
      exact hmax.2 m hm v hv ((dominates_iff_mem_past hinj hlog hu hv).1 hdom)
    rcases hcomplete u.op hmem hund with hseen | ⟨e', he', hkey⟩
    · exact absurd hseen (OrderedSet.not_mem_empty _)
    · rw [← hsame e' (hsound e' he').1 u.op hmem (version_eq_of_dedupeKey hkey)]
      exact he'
  · refine hkeys.imp_of_mem ?_
    intro e e' he he' hne hversion
    exact hne (by rw [hsame e (hsound e he).1 e' (hsound e' he').1 hversion])

section Indices

variable {α β : Type*} {R : α → β → Prop} {l : List α}

lemma exists_forall₂ (h : ∀ a ∈ l, ∃ b, R a b) : ∃ l', List.Forall₂ R l l' := by
  induction l with
  | nil => exact ⟨[], .nil⟩
  | cons a l ih =>
    obtain ⟨b, hb⟩ := h a mem_cons_self
    obtain ⟨l', hl'⟩ := ih fun a' ha' => h a' (mem_cons_of_mem _ ha')
    exact ⟨b :: l', .cons hb hl'⟩

lemma exists_of_mem_forall₂ {l' : List β} (h : List.Forall₂ R l l') {b : β} (hb : b ∈ l') :
    ∃ a ∈ l, R a b := by
  induction h with
  | nil => simp at hb
  | cons hab _ ih =>
    rcases mem_cons.1 hb with rfl | hb
    · exact ⟨_, mem_cons_self, hab⟩
    · obtain ⟨a, ha, hR⟩ := ih hb
      exact ⟨a, mem_cons_of_mem _ ha, hR⟩

lemma nodup_of_forall₂ {S : α → α → Prop} {l' : List β} (h : List.Forall₂ R l l')
    (hS : l.Pairwise S) (hdiffer : ∀ a a' b, R a b → R a' b → ¬ S a a') : l'.Nodup := by
  induction h with
  | nil => exact nodup_nil
  | cons hab htail ih =>
    rw [List.pairwise_cons] at hS
    refine nodup_cons.2 ⟨?_, ih hS.2⟩
    intro hmem
    obtain ⟨a', ha', hR⟩ := exists_of_mem_forall₂ htail hmem
    exact hdiffer _ _ _ hab hR (hS.1 a' ha')

end Indices

/-- Write `n` of the log made the entry `e`. -/
def Made (log : List (Update ι (MVEntry V))) (e : MVEntry V) (n : ℕ) : Prop :=
  ∃ u, log[n]? = some u ∧ u.op = e

lemma made_unique {e e' : MVEntry V} {n : ℕ} (h : Made log e n) (h' : Made log e' n) :
    e = e' := by
  obtain ⟨u, hu, rfl⟩ := h
  obtain ⟨v, hv, rfl⟩ := h'
  rw [hu, some.injEq] at hv
  rw [hv]

lemma Realizes.indices (hinj : Function.Injective replica) (hlog : LogFaithful replica log)
    {h : Held (MVRegister V)} (hclosed : ClosedIn log h.history) (hr : Realizes log h) :
    ∃ ns : List ℕ, ns.Nodup ∧ (∀ n, n ∈ ns ↔ Maximal log h.history n) ∧
      List.Forall₂ (Made log) h.state.entries ns := by
  have hsound : ∀ e ∈ h.state.entries, ∃ n, Maximal log h.history n ∧ Made log e n := by
    intro e he
    obtain ⟨n, u, hmax, hu, hop⟩ := hr.sound e he
    exact ⟨n, hmax, u, hu, hop⟩
  obtain ⟨ns, hns⟩ := exists_forall₂ hsound
  refine ⟨ns, nodup_of_forall₂ hns hr.clocks ?_, ?_, hns.imp fun _ _ => And.right⟩
  · intro e e' n hn hn' hne
    exact hne (by rw [made_unique hn.2 hn'.2])
  · intro n
    constructor
    · intro hn
      obtain ⟨e, -, hmax, -⟩ := exists_of_mem_forall₂ hns hn
      exact hmax
    · intro hmax
      have hget := getElem?_eq_getElem (hclosed.bounded n hmax.1)
      obtain ⟨m, hm, -, v, hv, hop⟩ :=
        exists_of_mem_forall₂ hns.flip (hr.complete n _ hmax hget)
      rw [eq_of_version_eq hinj hlog hget hv (by rw [hop])]
      exact hm

lemma Realizes.equals (hinj : Function.Injective replica) (hlog : LogFaithful replica log)
    (toTree : V → Option Json) {s other : MVRegister V} {history : Finset ℕ}
    (hclosed : ClosedIn log history) (hs : Realizes log ⟨s, history⟩)
    (ho : Realizes log ⟨other, history⟩) : s.equals toTree other = true := by
  obtain ⟨ns, hnodup, hmem, hmade⟩ := hs.indices hinj hlog hclosed
  obtain ⟨ns', hnodup', hmem', hmade'⟩ := ho.indices hinj hlog hclosed
  have hperm : ns.Perm ns' :=
    (perm_ext_iff_of_nodup hnodup hnodup').2 fun n => (hmem n).trans (hmem' n).symm
  refine equals_of_subset toTree ?_ ?_
  · rw [hmade.length_eq, hmade'.length_eq, hperm.length_eq]
  · intro e he
    obtain ⟨n, u, hmax, hu, rfl⟩ := hs.sound e he
    exact ho.complete n u hmax hu

section Runs

variable [DecidableEq ι] {toTree : V → Option Json}
  {w : World ι (MVEntry V) (MVRegister V)}

def Reaches (toTree : V → Option Json) (replica : ι → ReplicaId) :
    World ι (MVEntry V) (MVRegister V) → Prop :=
  Reachable (Performs replica) (merge toTree) empty

lemma Reaches.realizes (hinj : Function.Injective replica) (hw : Reaches toTree replica w) :
    LogFaithful replica w.log ∧ ∀ h ∈ w.archive, Realizes w.log h := by
  refine Reachable.invariant (Q := LogFaithful replica) (P := Realizes) ?_ ?_ ?_ ?_ ?_ hw
  · exact ⟨by simp [LogCausal], by simp [LogOwn], by simp [Counts]⟩
  · exact ⟨by simp [empty], by simp [Maximal], List.Pairwise.nil⟩
  · intro log i h entry s _ hlog hc hown hr hperform
    obtain ⟨rfl, hentries⟩ := hperform
    obtain ⟨value, vc⟩ := entry
    obtain rfl : h.state.nextClock (replica i) = vc := by
      simpa [assign] using hentries
    exact issue_faithful hinj hlog hc hr hown value
  · intro log u h hc hr
    exact hr.extend hc u
  · intro log a b _ hlog ha hb hra hrb
    exact hra.absorb hinj hlog toTree ha hb hrb

/-- Every register of a run holds exactly the causally maximal writes of its
history, each once; its merge is a semilattice operation up to `equals`; and the
merge loop returns what comparing every pair returns. -/
theorem entries_causally_maximal (toTree : V → Option Json) (replica : ι → ReplicaId)
    (hinj : Function.Injective replica) (w : World ι (MVEntry V) (MVRegister V))
    (hw : Reaches toTree replica w) :
    (∀ h ∈ w.archive, ∃ ns : List ℕ, ns.Nodup ∧ (∀ n, n ∈ ns ↔ Maximal w.log h.history n) ∧
        List.Forall₂ (Made w.log) h.state.entries ns) ∧
      SemilatticeOn (fun s => ∃ h ∈ w.archive, h.state = s)
        (fun s other => s.equals toTree other = true) (merge toTree) ∧
      ∀ s other : MVRegister V, s.merge toTree other = s.mergeAllPairs toTree other := by
  obtain ⟨hlog, hrealizes⟩ := hw.realizes hinj
  have hclosed := hw.closedIn.2
  have hmerge : ∀ {a b : Held (MVRegister V)}, ClosedIn w.log a.history →
      ClosedIn w.log b.history → Realizes w.log a → Realizes w.log b →
      Realizes w.log ⟨a.state.merge toTree b.state, a.history ∪ b.history⟩ :=
    fun ha hb hra hrb => hra.absorb hinj hlog toTree ha hb hrb
  refine ⟨?_, ⟨?_, ?_, ?_, ?_⟩, merge_eq_mergeAllPairs toTree⟩
  · intro h hh
    exact (hrealizes h hh).indices hinj hlog (hclosed h hh)
  · rintro _ ⟨a, ha, rfl⟩
    exact Realizes.equals hinj hlog toTree (hclosed a ha) (hrealizes a ha) (hrealizes a ha)
  · rintro _ ⟨a, ha, rfl⟩
    have haa := hmerge (hclosed a ha) (hclosed a ha) (hrealizes a ha) (hrealizes a ha)
    rw [union_self] at haa
    exact Realizes.equals hinj hlog toTree (hclosed a ha) haa (hrealizes a ha)
  · rintro _ _ ⟨a, ha, rfl⟩ ⟨b, hb, rfl⟩
    have hab := hmerge (hclosed a ha) (hclosed b hb) (hrealizes a ha) (hrealizes b hb)
    have hba := hmerge (hclosed b hb) (hclosed a ha) (hrealizes b hb) (hrealizes a ha)
    rw [union_comm] at hba
    exact Realizes.equals hinj hlog toTree ((hclosed a ha).union (hclosed b hb)) hab hba
  · rintro _ _ _ ⟨a, ha, rfl⟩ ⟨b, hb, rfl⟩ ⟨c, hc, rfl⟩
    have hab := (hclosed a ha).union (hclosed b hb)
    have hbc := (hclosed b hb).union (hclosed c hc)
    have hleft := hmerge hab (hclosed c hc)
      (hmerge (hclosed a ha) (hclosed b hb) (hrealizes a ha) (hrealizes b hb)) (hrealizes c hc)
    have hright := hmerge (hclosed a ha) hbc (hrealizes a ha)
      (hmerge (hclosed b hb) (hclosed c hc) (hrealizes b hb) (hrealizes c hc))
    rw [← union_assoc] at hright
    exact Realizes.equals hinj hlog toTree (hab.union (hclosed c hc)) hleft hright

lemma Reaches.assign (hw : Reaches toTree replica w) (i : ι) (value : V) :
    Reaches toTree replica (w.issue i ⟨value, (w.held i).state.nextClock (replica i)⟩
      ((w.held i).state.assign (replica i) value)) :=
  Reachable.issue hw ⟨rfl, rfl⟩

end Runs

/-- Two replicas write without having seen each other, and one absorbs the
other's write. -/
theorem entries_causally_maximal_concurrent :
    ∃ w : World Bool (MVEntry JsString) (MVRegister JsString),
      (w.held true).state.values = ["red".toJs, "blue".toJs] ∧
      ∃ ns : List ℕ, ns.Nodup ∧ (∀ n, n ∈ ns ↔ Maximal w.log (w.held true).history n) ∧
        List.Forall₂ (Made w.log) (w.held true).state.entries ns := by
  let replica : Bool → ReplicaId := fun i => if i then "a".toJs else "b".toJs
  let toTree : JsString → Option Json := fun v => some (.str v)
  have hinj : Function.Injective replica := by decide
  have h₀ : Reaches toTree replica (World.initial empty) := Reachable.initial
  have h₂ := (h₀.assign true "red".toJs).assign false "blue".toJs
  have h₃ : Reaches toTree replica _ :=
    Reachable.absorb (i := true) h₂ (h₂.held_mem_archive false)
  refine ⟨_, ?_, (entries_causally_maximal toTree replica hinj _ h₃).1 _ (h₃.held_mem_archive true)⟩
  decide

end ActorTs.MVRegister
