import ActorTs.Cluster.Downing.Strategies
import ActorTs.Library.StableSort

/-!
# What becomes of the sides of a split

For every strategy there is one condition on the view under which its side loses, and the decision
holds a reachable member exactly where that condition holds and the member is a candidate:
`mem_decide_iff`. No two sides escape the condition, and a side that meets it stops as a whole
exactly where all of its members are candidates.
-/

open List Option Nat

namespace ActorTs.Cluster.Downing

open ClusterPartitionView KeepOldest Strategy

namespace Strategy

/-- The strategy decides against the side that sees the view. -/
def Loses (locale : LocaleCompare) : Strategy → ClusterPartitionView → Prop
  | keepMajority role, view =>
    (view.reachable role).length ≤ (view.unreachableCandidates role).length
  | keepOldest role _, view =>
    ∃ oldest, KeepOldest.oldest? locale (view.candidates role) = some oldest ∧
      addrKey oldest ∈ view.unreachable
  | keepReferee refereeAddress quorum, view =>
    (∃ m ∈ view.candidates none, addrKey m = refereeAddress) ∧
      (refereeAddress ∈ view.unreachable ∨ ∃ q, quorum = some q ∧ (view.reachable none).length < q)
  | staticQuorum quorumSize role, view => (view.reachable role).length < quorumSize

end Strategy

section Decisions

variable {view : ClusterPartitionView} {role : Option JsString} {m : Member}

lemma mem_reachable_iff : m ∈ view.reachable role ↔
    m ∈ view.allMembers ∧ isCandidate role m = true ∧ addrKey m ∉ view.unreachable := by
  rw [reachable, mem_filter, candidates, mem_filter, and_assoc, decide_eq_true_eq]

lemma mem_unreachableCandidates_iff : m ∈ view.unreachableCandidates role ↔
    m ∈ view.allMembers ∧ isCandidate role m = true ∧ addrKey m ∈ view.unreachable := by
  rw [unreachableCandidates, mem_filter, candidates, mem_filter, and_assoc,
    decide_eq_true_eq]

lemma length_reachable_add (view : ClusterPartitionView) (role : Option JsString) :
    (view.reachable role).length + (view.unreachableCandidates role).length =
      (view.candidates role).length := by
  have hsplit := length_eq_length_filter_add
    (l := view.candidates role) fun m => decide (addrKey m ∉ view.unreachable)
  have hnot : (fun m => !decide (addrKey m ∉ view.unreachable)) =
      fun m : Member => decide (addrKey m ∈ view.unreachable) := by
    simp
  rw [hnot] at hsplit
  exact hsplit.symm

lemma addrKey_mem_reachable (hm : m ∈ view.allMembers) (hr : addrKey m ∉ view.unreachable) :
    addrKey m ∈ keysOf (view.reachable role) ↔ isCandidate role m = true := by
  rw [mem_keysOf]
  constructor
  · rintro ⟨m', hm', hkey⟩
    rw [mem_reachable_iff] at hm'
    have heq : m' = m := inj_on_of_nodup_map view.nodupKeys hm'.1 hm hkey
    exact heq ▸ hm'.2.1
  · exact fun h => ⟨m, mem_reachable_iff.2 ⟨hm, h, hr⟩, rfl⟩

lemma addrKey_notMem_unreachable (hr : addrKey m ∉ view.unreachable) :
    addrKey m ∉ keysOf (view.unreachableCandidates role) := by
  rw [mem_keysOf]
  rintro ⟨m', hm', hkey⟩
  exact hr (hkey ▸ (mem_unreachableCandidates_iff.1 hm').2.2)

lemma mem_keepMajority_iff (hm : m ∈ view.allMembers) (hr : addrKey m ∉ view.unreachable) :
    addrKey m ∈ KeepMajority.decide role view ↔
      (view.reachable role).length ≤ (view.unreachableCandidates role).length ∧
        isCandidate role m = true := by
  have hsum := length_reachable_add view role
  unfold KeepMajority.decide
  split
  · next hnone =>
    have hmem : m ∉ view.candidates role := by
      rw [length_eq_zero_iff.1 hnone]
      exact not_mem_nil
    have hno : isCandidate role m ≠ true := fun h => hmem (mem_filter.2 ⟨hm, h⟩)
    simp [hno]
  · simp only
    split
    · have hwins : ¬ (view.reachable role).length ≤ (view.unreachableCandidates role).length := by
        omega
      simp [hwins, addrKey_notMem_unreachable hr]
    · have hloses : (view.reachable role).length ≤ (view.unreachableCandidates role).length := by
        omega
      rw [ite_self, addrKey_mem_reachable hm hr]
      simp [hloses]

lemma mem_keepOldest_iff {locale : LocaleCompare} {downIfAlone : Bool}
    (hm : m ∈ view.allMembers) (hr : addrKey m ∉ view.unreachable) :
    addrKey m ∈ decide locale role downIfAlone view ↔
      (∃ oldest, oldest? locale (view.candidates role) = some oldest ∧
        addrKey oldest ∈ view.unreachable) ∧ isCandidate role m = true := by
  unfold KeepOldest.decide
  cases holdest : oldest? locale (view.candidates role) with
  | none => simp
  | some oldest =>
    simp only [some.injEq, exists_eq_left']
    split
    · next hreach => simp [hreach, addrKey_notMem_unreachable hr]
    · next hfar =>
      rw [ite_self, addrKey_mem_reachable hm hr]
      simp [not_not.1 hfar]

lemma mem_keepReferee_iff {refereeAddress : JsString} {quorum : Option ℕ}
    (hm : m ∈ view.allMembers) (hr : addrKey m ∉ view.unreachable) :
    addrKey m ∈ KeepReferee.decide refereeAddress quorum view ↔
      ((∃ m ∈ view.candidates none, addrKey m = refereeAddress) ∧
        (refereeAddress ∈ view.unreachable ∨
          ∃ q, quorum = some q ∧ (view.reachable none).length < q)) ∧
        isCandidate none m = true := by
  have hall : addrKey m ∈ keysOf (view.reachable none ++ view.unreachableCandidates none) ↔
      isCandidate none m = true := by
    have hunion : addrKey m ∈ keysOf (view.reachable none ++ view.unreachableCandidates none) ↔
        addrKey m ∈ keysOf (view.reachable none) ∨
          addrKey m ∈ keysOf (view.unreachableCandidates none) := by
      simp only [mem_keysOf, mem_append, or_and_right, exists_or]
    rw [hunion, or_iff_left (addrKey_notMem_unreachable hr), addrKey_mem_reachable hm hr]
  unfold KeepReferee.decide
  cases hreferee : (view.candidates none).find? fun m => addrKey m = refereeAddress with
  | none =>
    have hnone : ¬ ∃ m ∈ view.candidates none, addrKey m = refereeAddress := by
      simpa using find?_eq_none.1 hreferee
    simp [hnone]
  | some referee =>
    have hkey : addrKey referee = refereeAddress := by
      simpa using find?_some hreferee
    have hsome : ∃ m ∈ view.candidates none, addrKey m = refereeAddress :=
      ⟨referee, mem_of_find?_eq_some hreferee, hkey⟩
    simp only [hkey, hsome, true_and]
    split
    · next hreach =>
      cases quorum with
      | none => simp [hreach, addrKey_notMem_unreachable hr]
      | some q =>
        simp only [hreach, false_or, Option.some.injEq, exists_eq_left']
        split
        · next hbelow => rw [hall, and_iff_right hbelow.2]
        · next henough =>
          have hnot : ¬ (view.reachable none).length < q := by omega
          simp [hnot, addrKey_notMem_unreachable hr]
    · next hfar => simp [not_not.1 hfar, addrKey_mem_reachable hm hr]

lemma mem_staticQuorum_iff {quorumSize : ℕ} (hm : m ∈ view.allMembers)
    (hr : addrKey m ∉ view.unreachable) :
    addrKey m ∈ StaticQuorum.decide quorumSize role view ↔
      (view.reachable role).length < quorumSize ∧ isCandidate role m = true := by
  unfold StaticQuorum.decide
  split
  · next henough => simp [not_lt.2 henough, addrKey_notMem_unreachable hr]
  · next hbelow => rw [addrKey_mem_reachable hm hr, and_iff_right (not_le.1 hbelow)]

lemma mem_decide_iff (locale : LocaleCompare) (strategy : Strategy)
    (hm : m ∈ view.allMembers) (hr : addrKey m ∉ view.unreachable) :
    addrKey m ∈ strategy.decide locale view ↔
      strategy.Loses locale view ∧ isCandidate strategy.role m = true := by
  cases strategy with
  | keepMajority role => exact mem_keepMajority_iff hm hr
  | keepOldest role downIfAlone => exact mem_keepOldest_iff hm hr
  | keepReferee refereeAddress quorum => exact mem_keepReferee_iff hm hr
  | staticQuorum quorumSize role => exact mem_staticQuorum_iff hm hr

end Decisions

section Sides

variable {ι : Type} {members : List Member} {side : JsString → ι}

/-- What a node sees of a split: the members of its own side as they were, those of the
others marked unreachable, and out of reach. -/
structure IsViewOf [DecidableEq ι] (members : List Member) (side : JsString → ι) (i : ι)
    (view : ClusterPartitionView) : Prop where
  allMembers_eq : view.allMembers =
    members.map fun m => if side (addrKey m) = i then m else m.withStatus .unreachable
  far : ∀ m ∈ members, side (addrKey m) ≠ i → addrKey m ∈ view.unreachable
  near : ∀ m ∈ members, side (addrKey m) = i → addrKey m ∈ view.unreachable →
    m.status = .unreachable

/-- A member that is running and is counted. -/
def IsRunning (strategy : Strategy) (m : Member) : Prop :=
  (m.status = .up ∨ m.status = .leaving) ∧ carriesRole strategy.role m = true

/-- A side has candidates and its decision holds none of them. -/
def Survives (members : List Member) (side : JsString → ι) (i : ι) (strategy : Strategy)
    (decision : DowningDecision) : Prop :=
  (∃ m ∈ members, side (addrKey m) = i ∧ IsRunning strategy m) ∧
    ∀ m ∈ members, side (addrKey m) = i → IsRunning strategy m → addrKey m ∉ decision

/-- What the options of a strategy must say of the members for it to arbitrate. -/
def Arbitrates (members : List Member) : Strategy → Prop
  | .keepReferee refereeAddress _ => ∃ m ∈ members, addrKey m = refereeAddress
  | .staticQuorum quorumSize _ => members.length < 2 * quorumSize
  | _ => True

variable [DecidableEq ι] {i j : ι} {view : ClusterPartitionView} {role : Option JsString}

namespace IsViewOf

section

variable (h : IsViewOf members side i view)
include h

lemma keys_eq : view.allMembers.map addrKey = members.map addrKey := by
  rw [h.allMembers_eq, List.map_map]
  refine List.map_congr_left fun m _ => ?_
  simp only [Function.comp_apply]
  split <;> rfl

lemma mem_of_side {m : Member} (hm : m ∈ members)
    (hside : side (addrKey m) = i) : m ∈ view.allMembers := by
  rw [h.allMembers_eq, List.mem_map]
  exact ⟨m, hm, if_pos hside⟩

lemma mem_of_far {m : Member} (hm : m ∈ members)
    (hside : side (addrKey m) ≠ i) : m.withStatus .unreachable ∈ view.allMembers := by
  rw [h.allMembers_eq, List.mem_map]
  exact ⟨m, hm, if_neg hside⟩

lemma side_of_reachable {m : Member} (hm : m ∈ view.allMembers)
    (hr : addrKey m ∉ view.unreachable) : m ∈ members ∧ side (addrKey m) = i := by
  rw [h.allMembers_eq, List.mem_map] at hm
  obtain ⟨m', hm', rfl⟩ := hm
  by_cases hside : side (addrKey m') = i
  · rw [if_pos hside]
    exact ⟨hm', hside⟩
  · rw [if_neg hside] at hr
    exact absurd (h.far m' hm' hside) hr

end

end IsViewOf

lemma isCandidate_unreachable (role : Option JsString) (m : Member) :
    isCandidate role (m.withStatus .unreachable) = carriesRole role m := by
  simp [isCandidate, carriesRole]

variable {m : Member}

lemma carriesRole_of_isCandidate (h : isCandidate role m = true) :
    carriesRole role m = true := (Bool.and_eq_true_iff.1 h).2

variable {strategy : Strategy}

lemma isCandidate_of_isRunning (h : IsRunning strategy m) :
    isCandidate strategy.role m = true := by
  obtain ⟨hstatus, hrole⟩ := h
  rw [isCandidate, hrole, Bool.and_true, decide_eq_true_eq]
  tauto

variable {locale : LocaleCompare}

lemma not_loses_of_survives (h : IsViewOf members side i view)
    (hsurvives : Survives members side i strategy (strategy.decide locale view)) :
    ¬ strategy.Loses locale view := by
  obtain ⟨⟨m, hm, hside, hrunning⟩, hkept⟩ := hsurvives
  have hreach : addrKey m ∉ view.unreachable := fun hfar => by
    rcases hrunning.1 with hup | hleaving
    · rw [h.near m hm hside hfar] at hup
      cases hup
    · rw [h.near m hm hside hfar] at hleaving
      cases hleaving
  intro hloses
  refine hkept m hm hside hrunning ?_
  rw [mem_decide_iff locale strategy (h.mem_of_side hm hside) hreach]
  exact ⟨hloses, isCandidate_of_isRunning hrunning⟩

variable {view' : ClusterPartitionView}

lemma key_mem_unreachable_of_reachable (h : IsViewOf members side i view)
    (h' : IsViewOf members side j view') (hij : i ≠ j) {key : JsString}
    (hkey : key ∈ (view.reachable role).map addrKey) :
    key ∈ (view'.unreachableCandidates role).map addrKey := by
  obtain ⟨m, hm, rfl⟩ := List.mem_map.1 hkey
  rw [mem_reachable_iff] at hm
  obtain ⟨hmem, hside⟩ := h.side_of_reachable hm.1 hm.2.2
  have hfar : side (addrKey m) ≠ j := fun hj => hij (hside.symm.trans hj)
  rw [List.mem_map]
  refine ⟨m.withStatus .unreachable, ?_, rfl⟩
  rw [mem_unreachableCandidates_iff, isCandidate_unreachable]
  exact ⟨h'.mem_of_far hmem hfar, carriesRole_of_isCandidate hm.2.1, h'.far m hmem hfar⟩

lemma nodup_keys_reachable (view : ClusterPartitionView) (role : Option JsString) :
    ((view.reachable role).map addrKey).Nodup :=
  view.nodupKeys.sublist ((filter_sublist.trans filter_sublist).map _)

lemma length_reachable_le (role : Option JsString) (h : IsViewOf members side i view)
    (h' : IsViewOf members side j view') (hij : i ≠ j) :
    (view.reachable role).length ≤ (view'.unreachableCandidates role).length := by
  have hsubset : (view.reachable role).map addrKey ⊆
      (view'.unreachableCandidates role).map addrKey :=
    fun _ hkey => key_mem_unreachable_of_reachable h h' hij hkey
  have hle := ((nodup_keys_reachable view role).subperm hsubset).length_le
  rwa [length_map, length_map] at hle

lemma length_reachable_add_le (role : Option JsString) (h : IsViewOf members side i view)
    (h' : IsViewOf members side j view') (hij : i ≠ j) :
    (view.reachable role).length + (view'.reachable role).length ≤ members.length := by
  have hle := length_reachable_le role h h' hij
  have hsum := length_reachable_add view' role
  have hcandidates : (view'.candidates role).length ≤ view'.allMembers.length :=
    length_filter_le _ _
  have hlength : view'.allMembers.length = members.length := by
    rw [h'.allMembers_eq, length_map]
  omega

lemma map_addrKey_oldest? (locale : LocaleCompare) (candidates : List Member) :
    (oldest? locale candidates).map addrKey =
      ((candidates.map addrKey).mergeSort locale.le).head? := by
  have hmap := map_mergeSort (r := fun a b => locale.le (addrKey a) (addrKey b))
    (s := locale.le) (f := addrKey) (l := candidates) fun _ _ _ _ => rfl
  rw [oldest?, ← hmap, head?_map]

lemma mem_of_oldest? {candidates : List Member}
    (h : oldest? locale candidates = some m) : m ∈ candidates := by
  have hmem := mem_of_head? h
  rwa [mem_mergeSort] at hmem

lemma oldest_key_eq (h : IsViewOf members side i view) (h' : IsViewOf members side j view')
    (hij : i ≠ j) (hnodup : (members.map addrKey).Nodup) {m' : Member}
    (hm : oldest? locale (view.candidates role) = some m)
    (hm' : oldest? locale (view'.candidates role) = some m')
    (hreach : addrKey m ∉ view.unreachable) (hreach' : addrKey m' ∉ view'.unreachable) :
    addrKey m = addrKey m' := by
  have hsub : ((view.candidates role).map addrKey).Sublist (members.map addrKey) :=
    h.keys_eq ▸ filter_sublist.map addrKey
  have hsub' : ((view'.candidates role).map addrKey).Sublist (members.map addrKey) :=
    h'.keys_eq ▸ filter_sublist.map addrKey
  have hhead := (map_addrKey_oldest? locale (view.candidates role)).symm
  have hhead' := (map_addrKey_oldest? locale (view'.candidates role)).symm
  rw [hm, map_some] at hhead
  rw [hm', map_some] at hhead'
  have hseen : addrKey m ∈ (view'.candidates role).map addrKey := by
    have hmem : m ∈ view.reachable role :=
      mem_filter.2 ⟨mem_of_oldest? hm, decide_eq_true hreach⟩
    exact (filter_sublist.map addrKey).subset
      (key_mem_unreachable_of_reachable h h' hij (mem_map_of_mem hmem))
  have hseen' : addrKey m' ∈ (view.candidates role).map addrKey := by
    have hmem : m' ∈ view'.reachable role :=
      mem_filter.2 ⟨mem_of_oldest? hm', decide_eq_true hreach'⟩
    exact (filter_sublist.map addrKey).subset
      (key_mem_unreachable_of_reachable h' h hij.symm (mem_map_of_mem hmem))
  exact StableSort.head_eq_of_mem locale.le_total locale.le_trans hnodup hsub hsub' hhead hhead'
    hseen hseen'

lemma exists_oldest? (locale : LocaleCompare) {candidates : List Member} (hm : m ∈ candidates) :
    ∃ oldest, oldest? locale candidates = some oldest := by
  cases holdest : oldest? locale candidates with
  | some oldest => exact ⟨oldest, rfl⟩
  | none =>
    rw [oldest?, head?_eq_none_iff] at holdest
    have hlength := congrArg List.length holdest
    rw [length_mergeSort, length_nil, length_eq_zero_iff] at hlength
    rw [hlength] at hm
    cases hm

lemma mem_candidates_of_running (h : IsViewOf members side i view) (hm : m ∈ members)
    (hside : side (addrKey m) = i) (hrunning : IsRunning strategy m) :
    m ∈ view.candidates strategy.role :=
  mem_filter.2 ⟨h.mem_of_side hm hside, isCandidate_of_isRunning hrunning⟩

lemma loses_without_referee {refereeAddress : JsString} {quorum : Option ℕ}
    (h : IsViewOf members side i view) (hm : m ∈ members) (hkey : addrKey m = refereeAddress)
    (hside : side refereeAddress ≠ i) :
    (keepReferee refereeAddress quorum).Loses locale view := by
  subst hkey
  refine ⟨⟨m.withStatus .unreachable, mem_filter.2 ⟨h.mem_of_far hm hside, ?_⟩, rfl⟩,
    .inl (h.far m hm hside)⟩
  rfl

/-- The view in which all that is marked unreachable is out of reach, as the cluster
builds it. -/
def sideView (members : List Member) (hnodup : (members.map addrKey).Nodup) (side : JsString → ι)
    (i : ι) : ClusterPartitionView :=
  let seen := members.map fun m => if side (addrKey m) = i then m else m.withStatus .unreachable
  { allMembers := seen
    unreachable := keysOf (seen.filter fun m => m.status = .unreachable)
    nodupKeys := by
      have hkeys : seen.map addrKey = members.map addrKey := by
        rw [List.map_map]
        refine map_congr_left fun m _ => ?_
        simp only [Function.comp_apply]
        split <;> rfl
      rwa [hkeys] }

lemma isViewOf_sideView (hnodup : (members.map addrKey).Nodup) (side : JsString → ι) (i : ι) :
    IsViewOf members side i (sideView members hnodup side i) where
  allMembers_eq := rfl
  far m hm hside := by
    refine mem_keysOf.2 ⟨m.withStatus .unreachable, mem_filter.2 ⟨?_, rfl⟩, rfl⟩
    exact mem_map.2 ⟨m, hm, if_neg hside⟩
  near m hm hside hfar := by
    obtain ⟨m', hm', hkey⟩ := mem_keysOf.1 hfar
    obtain ⟨hseen, hstatus⟩ := mem_filter.1 hm'
    have heq : m' = m := inj_on_of_nodup_map (sideView members hnodup side i).nodupKeys hseen
      (mem_map.2 ⟨m, hm, if_pos hside⟩) hkey
    exact heq ▸ of_decide_eq_true hstatus

/-- The order of strings by their code units. -/
def codeUnitCompare : LocaleCompare where
  le a b := decide (a ≤ b)
  le_total a b := by simpa using le_total a b
  le_trans a b c hab hbc := by
    rw [decide_eq_true_eq] at hab hbc ⊢
    exact hab.trans hbc

def memberAt (host : String) (status : MemberStatus) : Member :=
  { address := { systemName := "sys", host := host.toJs, port := 1 }, status, version := 1 }

/-- Three members, the last of which has not joined yet. -/
def trio : List Member := [memberAt "a" .up, memberAt "b" .up, memberAt "c" .joining]

lemma nodup_trio : (trio.map addrKey).Nodup := by decide

end Sides

section Remainder

/-- A member that takes part in the cluster. -/
def IsLive (m : Member) : Prop :=
  m.status = .joining ∨ m.status = .weaklyUp ∨ m.status = .up ∨ m.status = .leaving

/-- A decision that takes down one member in reach takes down all that are live. -/
def StopsAsWhole (view : ClusterPartitionView) (decision : DowningDecision) : Prop :=
  (∃ m ∈ view.allMembers, addrKey m ∉ view.unreachable ∧ addrKey m ∈ decision) →
    ∀ m ∈ view.allMembers, addrKey m ∉ view.unreachable → IsLive m → addrKey m ∈ decision

/-- A side stops as a whole exactly where it does not lose, has no candidate to take
down, or has candidates only. -/
theorem stopsAsWhole_iff (locale : LocaleCompare) (strategy : Strategy)
    (view : ClusterPartitionView) :
    StopsAsWhole view (strategy.decide locale view) ↔
      (¬ strategy.Loses locale view ∨ view.reachable strategy.role = [] ∨
        ∀ m ∈ view.allMembers, addrKey m ∉ view.unreachable → IsLive m →
          isCandidate strategy.role m = true) := by
  constructor
  · intro hstops
    by_cases hloses : strategy.Loses locale view
    · refine .inr ?_
      cases hreachable : view.reachable strategy.role with
      | nil => exact .inl rfl
      | cons m rest =>
        refine .inr fun m' hm' hr' hlive => ?_
        have hm : m ∈ view.reachable strategy.role := hreachable ▸ mem_cons_self
        rw [mem_reachable_iff] at hm
        have hdown := (mem_decide_iff locale strategy hm.1 hm.2.2).2 ⟨hloses, hm.2.1⟩
        have hall := hstops ⟨m, hm.1, hm.2.2, hdown⟩ m' hm' hr' hlive
        exact ((mem_decide_iff locale strategy hm' hr').1 hall).2
    · exact .inl hloses
  · rintro hcondition ⟨m, hm, hr, hdown⟩ m' hm' hr' hlive
    rw [mem_decide_iff locale strategy hm hr] at hdown
    rw [mem_decide_iff locale strategy hm' hr']
    rcases hcondition with hwins | hnone | hall
    · exact absurd hdown.1 hwins
    · have hmem : m ∈ view.reachable strategy.role := mem_reachable_iff.2 ⟨hm, hdown.2, hr⟩
      rw [hnone] at hmem
      cases hmem
    · exact ⟨hdown.1, hall m' hm' hr' hlive⟩

/-- One member that is up and one that joins, cut off from two that are up. -/
def cutOff : ClusterPartitionView where
  allMembers := [memberAt "a" .up, memberAt "b" .joining, memberAt "c" .unreachable,
    memberAt "d" .unreachable]
  unreachable := {addrKey (memberAt "c" .unreachable), addrKey (memberAt "d" .unreachable)}
  nodupKeys := by decide

/-- The member that joins stays where the one that is up goes down. -/
theorem not_stopsAsWhole_cutOff :
    cutOff.unreachable.Nonempty ∧
      ¬ StopsAsWhole cutOff ((keepMajority none).decide codeUnitCompare cutOff) := by
  refine ⟨⟨_, Finset.mem_insert_self _ _⟩, fun hstops => ?_⟩
  have hdown : addrKey (memberAt "a" .up) ∈
      (keepMajority none).decide codeUnitCompare cutOff := by decide
  have hkept : addrKey (memberAt "b" .joining) ∉
      (keepMajority none).decide codeUnitCompare cutOff := by decide
  refine hkept (hstops ⟨memberAt "a" .up, mem_cons_self, by decide, hdown⟩ _ ?_
    (by decide) (.inl rfl))
  exact mem_cons_of_mem _ mem_cons_self

end Remainder

end ActorTs.Cluster.Downing
