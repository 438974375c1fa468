import ActorTs.Library.CausalRun
import ActorTs.Crdt.ORSet

/-!
# Add-wins over whole runs

Any number of replicas add, remove and merge. An element is in a replica's set
exactly when the replica's causal history contains an add of its key that no
remove of the key in that history had observed.

The invariant reads every set off the history it was built from: the live tags are those of the adds
no remove has observed, the tombstones those of the adds some remove has.
-/

open List Option Finset

namespace ActorTs

open CausalRun

/-- The updates of a run; an add is logged with the tag it minted. -/
inductive ORSetOperation (E : Type*) where
  | add (replica : ReplicaId) (element : E) (tag : JsString)
  | remove (element : E)

namespace ORSet

variable {ι E : Type*}

/-- No add of the log has minted `tag`. -/
def Fresh (log : List (Update ι (ORSetOperation E))) (tag : JsString) : Prop :=
  ∀ u ∈ log, ∀ replica element, u.op ≠ .add replica element tag

/-- One update of a replica that holds `s`. An add runs with some outcome of its
random draws, and its tag was never minted before. -/
def Performs (log : List (Update ι (ORSetOperation E))) (_ : ι) (s : ORSet E) :
    ORSetOperation E → ORSet E → Prop
  | .add replica element tag, s' => Fresh log tag ∧
      ∃ draws, s.mintTag replica element draws = some tag ∧
        s.add replica element draws = some s'
  | .remove element, s' => s' = s.remove element

/-- The worlds that replicas sharing an identity function can reach. -/
def Reaches [DecidableEq ι] (identity : E → JsString) :
    World ι (ORSetOperation E) (ORSet E) → Prop :=
  Reachable Performs merge (empty identity)

variable (identity : E → JsString) (log : List (Update ι (ORSetOperation E)))

/-- Update `n` of the log is an add of the key `key` that minted `tag`. -/
def MintsFor (n : ℕ) (key tag : JsString) : Prop :=
  ∃ u replica element, log[n]? = some u ∧ u.op = .add replica element tag ∧
    identity element = key

/-- Update `n` of the log is an add of the key `key`. -/
def AddsKey (n : ℕ) (key : JsString) : Prop :=
  ∃ u replica element tag, log[n]? = some u ∧ u.op = .add replica element tag ∧
    identity element = key

/-- Some remove of `key` in the history `s` had update `n` in its own history. -/
def RemoveObserved (s : Finset ℕ) (n : ℕ) (key : JsString) : Prop :=
  ∃ m ∈ s, ∃ u element, log[m]? = some u ∧ u.op = .remove element ∧
    identity element = key ∧ n ∈ u.past

variable {identity log} {s : Finset ℕ} (u : Update ι (ORSetOperation E))

lemma mintsFor_extend {n : ℕ} (key tag : JsString) (hn : n < log.length) :
    MintsFor identity (log ++ [u]) n key tag ↔ MintsFor identity log n key tag := by
  simp only [MintsFor, getElem?_append_left hn]

lemma mintsFor_length (key tag : JsString) :
    MintsFor identity (log ++ [u]) log.length key tag ↔
      ∃ replica element, u.op = .add replica element tag ∧ identity element = key := by
  simp [MintsFor]

lemma removeObserved_extend (hs : ClosedIn log s) (u : Update ι (ORSetOperation E)) (n : ℕ)
    (key : JsString) :
    RemoveObserved identity (log ++ [u]) s n key ↔ RemoveObserved identity log s n key := by
  refine exists_congr fun m => and_congr_right fun hm => ?_
  rw [getElem?_append_left (hs.bounded m hm)]

lemma mem_of_removeObserved (hs : ClosedIn log s) {n : ℕ} {key : JsString}
    (h : RemoveObserved identity log s n key) : n ∈ s := by
  obtain ⟨m, hm, u, element, hu, -, -, hn⟩ := h
  exact hs.closed m hm u hu hn

lemma removeObserved_union (s t : Finset ℕ) (n : ℕ) (key : JsString) :
    RemoveObserved identity log (s ∪ t) n key ↔
      RemoveObserved identity log s n key ∨ RemoveObserved identity log t n key := by
  simp only [RemoveObserved, mem_union, or_and_right, exists_or]

lemma removeObserved_issue (hs : ClosedIn log s) (i : ι) (op : ORSetOperation E) (n : ℕ)
    (key : JsString) :
    RemoveObserved identity (log ++ [⟨i, op, s⟩]) (insert log.length s) n key ↔
      RemoveObserved identity log s n key ∨
        ∃ element, op = .remove element ∧ identity element = key ∧ n ∈ s := by
  rw [← removeObserved_extend hs ⟨i, op, s⟩ n key]
  simp only [RemoveObserved, mem_insert, or_and_right, exists_or, exists_eq_left,
    getElem?_concat_length, some.injEq]
  rw [or_comm]
  refine or_congr Iff.rfl ?_
  constructor
  · rintro ⟨u, element, rfl, hop, hkey, hn⟩
    exact ⟨element, hop, hkey, hn⟩
  · rintro ⟨element, hop, hkey, hn⟩
    exact ⟨_, element, rfl, hop, hkey, hn⟩

/-- No tag is minted by two adds of the log. -/
def TagsUnique (identity : E → JsString) (log : List (Update ι (ORSetOperation E))) : Prop :=
  ∀ n m key key' tag, MintsFor identity log n key tag → MintsFor identity log m key' tag →
    n = m ∧ key = key'

/-- The set is the one its history prescribes. -/
structure Realizes (identity : E → JsString) (log : List (Update ι (ORSetOperation E)))
    (h : Held (ORSet E)) : Prop where
  identity_eq : h.state.identity = identity
  trim : h.state.Trim
  live : ∀ key tag, h.state.Live key tag ↔
    ∃ n ∈ h.history, MintsFor identity log n key tag ∧
      ¬ RemoveObserved identity log h.history n key
  removed : ∀ key tag, h.state.Removed key tag ↔
    ∃ n ∈ h.history, MintsFor identity log n key tag ∧
      RemoveObserved identity log h.history n key

lemma Realizes.extend {h : Held (ORSet E)} (hc : ClosedIn log h.history)
    (hr : Realizes identity log h) (u : Update ι (ORSetOperation E)) :
    Realizes identity (log ++ [u]) h := by
  refine ⟨hr.identity_eq, hr.trim, ?_, ?_⟩
  · intro key tag
    rw [hr.live]
    refine exists_congr fun n => and_congr_right fun hn => ?_
    rw [mintsFor_extend u key tag (hc.bounded n hn), removeObserved_extend hc]
  · intro key tag
    rw [hr.removed]
    refine exists_congr fun n => and_congr_right fun hn => ?_
    rw [mintsFor_extend u key tag (hc.bounded n hn), removeObserved_extend hc]

lemma Realizes.disjoint {h : Held (ORSet E)} (hu : TagsUnique identity log)
    (hr : Realizes identity log h) (key key' tag : JsString)
    (hlive : h.state.Live key tag) : ¬ h.state.Removed key' tag := by
  intro hremoved
  obtain ⟨n, -, hn, hnot⟩ := (hr.live key tag).1 hlive
  obtain ⟨m, -, hm, hobs⟩ := (hr.removed key' tag).1 hremoved
  obtain ⟨rfl, rfl⟩ := hu n m key key' tag hn hm
  exact hnot hobs

lemma tagsUnique_extend (hu : TagsUnique identity log) {i : ι} {op : ORSetOperation E}
    {s s' : ORSet E} (hperform : Performs log i s op s') (past : Finset ℕ) :
    TagsUnique identity (log ++ [⟨i, op, past⟩]) := by
  -- A minting update of the longer log is an old one, or the new one.
  have hcases : ∀ n key tag, MintsFor identity (log ++ [⟨i, op, past⟩]) n key tag →
      MintsFor identity log n key tag ∨ n = log.length ∧
        ∃ replica element, op = .add replica element tag ∧ identity element = key := by
    rintro n key tag ⟨u, replica, element, hget, hop, hkey⟩
    rcases getElem?_append_one hget with hget | ⟨rfl, rfl⟩
    · exact .inl ⟨u, replica, element, hget, hop, hkey⟩
    · exact .inr ⟨rfl, replica, element, hop, hkey⟩
  have hfresh : ∀ n key tag replica element, op = .add replica element tag →
      ¬ MintsFor identity log n key tag := by
    rintro n key tag replica element rfl ⟨u, replica', element', hget, hop, -⟩
    exact hperform.1 u (mem_of_getElem? hget) replica' element' hop
  intro n m key key' tag hn hm
  rcases hcases n key tag hn with hn | ⟨rfl, replica, element, hop, rfl⟩
  · rcases hcases m key' tag hm with hm | ⟨rfl, replica, element, hop, rfl⟩
    · exact hu n m key key' tag hn hm
    · exact absurd hn (hfresh n key tag replica element hop)
  · rcases hcases m key' tag hm with hm | ⟨rfl, replica', element', hop', rfl⟩
    · exact absurd hm (hfresh m key' tag replica element hop)
    · rw [hop] at hop'
      cases hop'
      exact ⟨rfl, rfl⟩

lemma Realizes.issue_add {h : Held (ORSet E)} (hc : ClosedIn log h.history)
    (hr : Realizes identity log h) (i : ι) (replica : ReplicaId) (element : E) (tag : JsString) :
    Realizes identity (log ++ [⟨i, .add replica element tag, h.history⟩])
      ⟨h.state.addTag element tag, insert log.length h.history⟩ := by
  have hobs : ∀ n key, RemoveObserved identity
      (log ++ [⟨i, .add replica element tag, h.history⟩]) (insert log.length h.history) n key ↔
        RemoveObserved identity log h.history n key := by
    intro n key
    rw [removeObserved_issue hc]
    simp
  have hnew : ∀ key, ¬ RemoveObserved identity log h.history log.length key := by
    intro key hlen
    exact absurd (hc.bounded _ (mem_of_removeObserved hc hlen)) (lt_irrefl _)
  refine ⟨hr.identity_eq, trim_addTag hr.trim _ _, ?_, ?_⟩
  · intro key t
    rw [live_addTag, hr.live, hr.identity_eq]
    constructor
    · rintro (⟨n, hn, hmint, hnot⟩ | ⟨rfl, rfl⟩)
      · refine ⟨n, mem_insert_of_mem hn, ?_, fun h' => hnot ((hobs n key).1 h')⟩
        exact (mintsFor_extend _ key t (hc.bounded n hn)).2 hmint
      · refine ⟨log.length, mem_insert_self _ _, ?_, fun h' => hnew _ ((hobs _ _).1 h')⟩
        exact (mintsFor_length _ _ _).2 ⟨replica, element, rfl, rfl⟩
    · rintro ⟨n, hn, hmint, hnot⟩
      rcases mem_insert.1 hn with rfl | hn
      · obtain ⟨_, _, hop, rfl⟩ := (mintsFor_length _ _ _).1 hmint
        cases hop
        exact .inr ⟨rfl, rfl⟩
      · exact .inl ⟨n, hn, (mintsFor_extend _ key t (hc.bounded n hn)).1 hmint,
          fun h' => hnot ((hobs n key).2 h')⟩
  · intro key t
    rw [removed_addTag, hr.removed]
    constructor
    · rintro ⟨n, hn, hmint, h'⟩
      exact ⟨n, mem_insert_of_mem hn,
        (mintsFor_extend _ key t (hc.bounded n hn)).2 hmint, (hobs n key).2 h'⟩
    · rintro ⟨n, hn, hmint, h'⟩
      have hn := mem_of_removeObserved hc ((hobs n key).1 h')
      exact ⟨n, hn, (mintsFor_extend _ key t (hc.bounded n hn)).1 hmint, (hobs n key).1 h'⟩

lemma Realizes.issue_remove {h : Held (ORSet E)} (hc : ClosedIn log h.history)
    (hr : Realizes identity log h) (i : ι) (element : E) :
    Realizes identity (log ++ [⟨i, .remove element, h.history⟩])
      ⟨h.state.remove element, insert log.length h.history⟩ := by
  have hobs : ∀ n key, RemoveObserved identity
      (log ++ [⟨i, .remove element, h.history⟩]) (insert log.length h.history) n key ↔
        RemoveObserved identity log h.history n key ∨ identity element = key ∧ n ∈ h.history := by
    intro n key
    rw [removeObserved_issue hc]
    simp
  have hmints : ∀ n key tag, n ∈ insert log.length h.history →
      MintsFor identity (log ++ [⟨i, .remove element, h.history⟩]) n key tag →
      n ∈ h.history ∧ MintsFor identity log n key tag := by
    intro n key tag hn hmint
    rcases mem_insert.1 hn with rfl | hn
    · obtain ⟨_, _, hop, -⟩ := (mintsFor_length _ _ _).1 hmint
      cases hop
    · exact ⟨hn, (mintsFor_extend _ key tag (hc.bounded n hn)).1 hmint⟩
  refine ⟨by rw [identity_remove, hr.identity_eq], trim_remove hr.trim _, ?_, ?_⟩
  · intro key t
    rw [live_remove, hr.live, hr.identity_eq]
    constructor
    · rintro ⟨⟨n, hn, hmint, hnot⟩, hne⟩
      refine ⟨n, mem_insert_of_mem hn, (mintsFor_extend _ key t (hc.bounded n hn)).2 hmint, ?_⟩
      rw [hobs]
      rintro (h' | ⟨rfl, -⟩)
      · exact hnot h'
      · exact hne rfl
    · rintro ⟨n, hn, hmint, hnot⟩
      obtain ⟨hn, hmint⟩ := hmints n key t hn hmint
      rw [hobs, not_or] at hnot
      exact ⟨⟨n, hn, hmint, hnot.1⟩, fun he => hnot.2 ⟨he.symm, hn⟩⟩
  · intro key t
    rw [removed_remove, hr.removed, hr.live, hr.identity_eq]
    constructor
    · rintro (⟨n, hn, hmint, h'⟩ | ⟨rfl, n, hn, hmint, -⟩)
      · exact ⟨n, mem_insert_of_mem hn,
          (mintsFor_extend _ key t (hc.bounded n hn)).2 hmint, (hobs n key).2 (.inl h')⟩
      · exact ⟨n, mem_insert_of_mem hn,
          (mintsFor_extend _ _ t (hc.bounded n hn)).2 hmint, (hobs n _).2 (.inr ⟨rfl, hn⟩)⟩
    · rintro ⟨n, hn, hmint, h'⟩
      obtain ⟨hn, hmint⟩ := hmints n key t hn hmint
      by_cases hold : RemoveObserved identity log h.history n key
      · exact .inl ⟨n, hn, hmint, hold⟩
      · rcases (hobs n key).1 h' with h' | ⟨he, -⟩
        · exact absurd h' hold
        · exact .inr ⟨he.symm, n, hn, hmint, hold⟩

lemma Realizes.absorb {a b : Held (ORSet E)} (hu : TagsUnique identity log)
    (ha : ClosedIn log a.history) (hb : ClosedIn log b.history)
    (hra : Realizes identity log a) (hrb : Realizes identity log b) :
    Realizes identity log ⟨a.state.merge b.state, a.history ∪ b.history⟩ := by
  refine ⟨hra.identity_eq, trim_merge _ _, ?_, ?_⟩
  · intro key tag
    rw [live_merge, hra.live, hrb.live]
    constructor
    · rintro ⟨⟨n, hn, hmint, hnot⟩ | ⟨n, hn, hmint, hnot⟩, hveto⟩
      · refine ⟨n, mem_union_left _ hn, hmint, ?_⟩
        rw [removeObserved_union]
        rintro (h' | h')
        · exact hnot h'
        · exact (hveto key).2 ((hrb.removed key tag).2 ⟨n, mem_of_removeObserved hb h', hmint, h'⟩)
      · refine ⟨n, mem_union_right _ hn, hmint, ?_⟩
        rw [removeObserved_union]
        rintro (h' | h')
        · exact (hveto key).1 ((hra.removed key tag).2 ⟨n, mem_of_removeObserved ha h', hmint, h'⟩)
        · exact hnot h'
    · rintro ⟨n, hn, hmint, hnot⟩
      rw [removeObserved_union, not_or] at hnot
      refine ⟨?_, fun k => ⟨?_, ?_⟩⟩
      · rcases mem_union.1 hn with hn | hn
        · exact .inl ⟨n, hn, hmint, hnot.1⟩
        · exact .inr ⟨n, hn, hmint, hnot.2⟩
      · intro hremoved
        obtain ⟨m, -, hm, hobs⟩ := (hra.removed k tag).1 hremoved
        obtain ⟨rfl, rfl⟩ := hu n m key k tag hmint hm
        exact hnot.1 hobs
      · intro hremoved
        obtain ⟨m, -, hm, hobs⟩ := (hrb.removed k tag).1 hremoved
        obtain ⟨rfl, rfl⟩ := hu n m key k tag hmint hm
        exact hnot.2 hobs
  · intro key tag
    rw [removed_merge, hra.removed, hrb.removed]
    constructor
    · rintro (⟨n, hn, hmint, h'⟩ | ⟨n, hn, hmint, h'⟩)
      · exact ⟨n, mem_union_left _ hn, hmint, (removeObserved_union _ _ _ _).2 (.inl h')⟩
      · exact ⟨n, mem_union_right _ hn, hmint, (removeObserved_union _ _ _ _).2 (.inr h')⟩
    · rintro ⟨n, -, hmint, h'⟩
      rcases (removeObserved_union _ _ _ _).1 h' with h' | h'
      · exact .inl ⟨n, mem_of_removeObserved ha h', hmint, h'⟩
      · exact .inr ⟨n, mem_of_removeObserved hb h', hmint, h'⟩

variable [DecidableEq ι] {w : World ι (ORSetOperation E) (ORSet E)}

lemma Reaches.realizes (hw : Reaches identity w) :
    TagsUnique identity w.log ∧ ∀ h ∈ w.archive, Realizes identity w.log h := by
  refine Reachable.invariant (Q := TagsUnique identity) (P := Realizes identity) ?_ ?_ ?_ ?_ ?_ hw
  · rintro n m key key' tag ⟨u, -, -, hu, -⟩
    simp at hu
  · exact ⟨rfl, trim_empty _, by simp, by simp⟩
  · intro log i h op s _ hu hc _ hr hperform
    refine ⟨tagsUnique_extend hu hperform _, ?_⟩
    cases op with
    | add replica element tag =>
      obtain ⟨-, draws, hmint, hadd⟩ := hperform
      rw [add, hmint, map_some, some.injEq] at hadd
      exact hadd ▸ hr.issue_add hc i replica element tag
    | remove element =>
      obtain rfl : s = h.state.remove element := hperform
      exact hr.issue_remove hc i element
  · intro log u h hc hr
    exact hr.extend hc u
  · intro log a b _ hu ha hb hra hrb
    exact hra.absorb hu ha hb hrb

/-- Add-wins: an element is present at a replica exactly when the replica's
history has an add of its key that no remove of the key in that history had
observed; and replicas with the same history hold equal sets. -/
theorem add_wins (identity : E → JsString) (w : World ι (ORSetOperation E) (ORSet E))
    (hw : Reaches identity w) :
    (∀ r element, (w.held r).state.has element = true ↔
      ∃ n ∈ (w.held r).history, AddsKey identity w.log n (identity element) ∧
        ¬ RemoveObserved identity w.log (w.held r).history n (identity element)) ∧
    ∀ r r', (w.held r).history = (w.held r').history →
      (w.held r).state.equals (w.held r').state = true := by
  have hr := fun r => hw.realizes.2 _ (hw.held_mem_archive r)
  constructor
  · intro r element
    rw [has_iff, (hr r).identity_eq]
    simp only [(hr r).live, MintsFor, AddsKey]
    constructor
    · rintro ⟨tag, n, hn, ⟨u, replica, e, hu, hop, he⟩, hnot⟩
      exact ⟨n, hn, ⟨u, replica, e, tag, hu, hop, he⟩, hnot⟩
    · rintro ⟨n, hn, ⟨u, replica, e, tag, hu, hop, he⟩, hnot⟩
      exact ⟨tag, n, hn, ⟨u, replica, e, hu, hop, he⟩, hnot⟩
  · intro r r' hhist
    refine (equals_iff (hr r).trim (hr r').trim).2 ⟨?_, ?_⟩
    · intro key tag
      rw [(hr r).live, (hr r').live, hhist]
    · intro key tag
      rw [(hr r).removed, (hr r').removed, hhist]

/-- One replica adds an element again while the other, which has seen only the
first add, removes it; the second then absorbs the re-add. -/
def readdWorld : World Bool (ORSetOperation JsString) (ORSet JsString) :=
  let x := "x".toJs
  let w₁ := (World.initial (empty id)).issue true (.add "a".toJs x "a#0".toJs)
    ((empty id).addTag x "a#0".toJs)
  let w₂ := w₁.absorb merge false (w₁.held true)
  let w₃ := w₂.issue false (.remove x) ((w₂.held false).state.remove x)
  let w₄ := w₃.issue true (.add "a".toJs x "a#1".toJs)
    ((w₃.held true).state.addTag x "a#1".toJs)
  w₄.absorb merge false (w₄.held true)

lemma Reaches.issue_add (hw : Reaches identity w) (i : ι) (replica : ReplicaId) (element : E)
    (draws : ℕ → JsString) {tag : JsString} (hfresh : Fresh w.log tag)
    (hmint : (w.held i).state.mintTag replica element draws = some tag) :
    Reaches identity (w.issue i (.add replica element tag) ((w.held i).state.addTag element tag)) :=
  Reachable.issue hw ⟨hfresh, draws, hmint, by rw [add, hmint, map_some]⟩

lemma Reaches.absorb_held (hw : Reaches identity w) (i j : ι) :
    Reaches identity (w.absorb merge i (w.held j)) :=
  Reachable.absorb hw (hw.held_mem_archive j)

lemma Reaches.issue_remove (hw : Reaches identity w) (i : ι) (element : E) :
    Reaches identity (w.issue i (.remove element) ((w.held i).state.remove element)) :=
  Reachable.issue hw rfl

theorem add_wins_readdWorld : Reaches id readdWorld ∧
      ((readdWorld.held false).state.has "x".toJs = true ↔
        ∃ n ∈ (readdWorld.held false).history, AddsKey id readdWorld.log n "x".toJs ∧
          ¬ RemoveObserved id readdWorld.log (readdWorld.held false).history n "x".toJs) := by
  have h₀ : Reaches id (World.initial (empty id) : World Bool (ORSetOperation JsString) _) :=
    .initial
  have hfresh₀ : Fresh ([] : List (Update Bool (ORSetOperation JsString))) "a#0".toJs := by
    simp [Fresh]
  have h₁ := h₀.issue_add true "a".toJs "x".toJs (fun _ => "0".toJs) hfresh₀ (by decide)
  have h₃ := (h₁.absorb_held false true).issue_remove false "x".toJs
  have hfresh₁ : Fresh [⟨true, .add "a".toJs "x".toJs "a#0".toJs, ∅⟩,
      ⟨false, .remove "x".toJs, {0}⟩] "a#1".toJs := by
    have hne : "a#0".toJs ≠ "a#1".toJs := by decide
    simp [Fresh, hne]
  have h₄ := h₃.issue_add true "a".toJs "x".toJs (fun _ => "1".toJs) hfresh₁ (by decide)
  have hw : Reaches id readdWorld := h₄.absorb_held false true
  exact ⟨hw, (add_wins id readdWorld hw).1 false "x".toJs⟩

end ORSet

end ActorTs
