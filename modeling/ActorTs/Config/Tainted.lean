import ActorTs.Config.Reordering
import Mathlib

/-!
# Values that differ in secrets

Two resolved values are alike below a set of paths when they have the same shape and differ at the
leaves of that set only.

The table of a provenance is read by its keys only, so the order in which the leaves
were recorded does not matter either.
-/

namespace ActorTs.Config

open ConfigValue OrderedMap Provenance

/-- The same variables behind the same leaves. -/
def Provenance.Agrees (provenance provenance' : Provenance) : Prop :=
  ∀ leaf, provenance.get? leaf = provenance'.get? leaf

/-- A variable of the set is behind the leaf. -/
def Tainted (secret : Set JsString) (provenance : Provenance) (leaf : Path) : Prop :=
  ∃ name ∈ secret, name ∈ (provenance.get? leaf).getD ∅

namespace Provenance

variable {provenance provenance' : Provenance} {name : JsString}

lemma Agrees.entries_perm (h : provenance.Agrees provenance') :
    provenance.entries.Perm provenance'.entries := by
  have hnodup := fun m : Provenance => List.Nodup.of_map Prod.fst m.nodupKeys
  refine (List.perm_ext_iff_of_nodup (hnodup _) (hnodup _)).2 fun entry => ?_
  rw [← get?_eq_some_iff, ← get?_eq_some_iff, h entry.1]

lemma mem_foldr_union {tables : List (Finset JsString)} :
    name ∈ tables.foldr (· ∪ ·) ∅ ↔ ∃ table ∈ tables, name ∈ table := by
  induction tables with
  | nil => simp
  | cons table tables ih => rw [List.foldr_cons, Finset.mem_union, ih, List.exists_mem_cons_iff]

lemma mem_names : name ∈ provenance.names ↔ ∃ leaf, name ∈ (provenance.get? leaf).getD ∅ := by
  rw [names, mem_foldr_union]
  constructor
  · rintro ⟨table, htable, hname⟩
    obtain ⟨entry, hentry, rfl⟩ := List.mem_map.1 htable
    refine ⟨entry.1, ?_⟩
    rw [(provenance.get?_eq_some_iff entry.1 entry.2).2 hentry]
    exact hname
  · rintro ⟨leaf, hname⟩
    cases hleaf : provenance.get? leaf with
    | none =>
      rw [hleaf] at hname
      exact absurd hname (Finset.notMem_empty name)
    | some table =>
      rw [hleaf] at hname
      exact ⟨table, List.mem_map.2 ⟨_, (provenance.get?_eq_some_iff leaf table).1 hleaf, rfl⟩, hname⟩

lemma Agrees.names_eq (h : provenance.Agrees provenance') :
    provenance.names = provenance'.names := by
  ext name
  rw [mem_names, mem_names]
  simp only [h _]

lemma get?_ofNames (names : Finset JsString) (leaf : Path) :
    ((ofNames names).get? leaf).getD ∅ = if leaf = [] then names else ∅ := by
  rw [ofNames]
  by_cases hnames : names = ∅
  · simp [hnames]
  · rw [if_neg hnames, get?_set]
    by_cases hleaf : leaf = []
    · simp [hleaf]
    · simp [hleaf, Ne.symm hleaf]

lemma get?_setBelow (key : JsString) (into from' : Provenance) (leaf : Path) :
    (setBelow key into from').get? (key :: leaf) =
      (from'.get? leaf).or (into.get? (key :: leaf)) := by
  have hfold : ∀ (entries : List (Path × Finset JsString)) (into : Provenance),
      (entries.map Prod.fst).Nodup →
      (entries.foldl (fun into entry => into.set (key :: entry.1) entry.2) into).get? (key :: leaf) =
        (lookup leaf entries).or (into.get? (key :: leaf)) := by
    intro entries
    induction entries with
    | nil => exact fun into _ => rfl
    | cons entry entries ih =>
      intro into hnodup
      obtain ⟨leaf', names⟩ := entry
      rw [List.map_cons, List.nodup_cons] at hnodup
      rw [List.foldl_cons, ih _ hnodup.2, get?_set, lookup]
      by_cases hleaf : leaf' = leaf
      · subst hleaf
        rw [lookup_eq_none_of_notMem hnodup.1, if_pos rfl, if_pos rfl]
        rfl
      · rw [if_neg (fun h => hleaf (List.cons.inj h).2), if_neg hleaf]
  exact hfold from'.entries into from'.nodupKeys

lemma get?_setBelow_of_ne {key : JsString} (into from' : Provenance) {leaf : Path}
    (h : ∀ rest, leaf ≠ key :: rest) : (setBelow key into from').get? leaf = into.get? leaf := by
  rw [setBelow]
  generalize from'.entries = entries
  induction entries generalizing into with
  | nil => rfl
  | cons entry entries ih =>
    rw [List.foldl_cons, ih, get?_set, if_neg fun heq => h entry.1 heq.symm]

end Provenance

/-- The leaf of the part at `rest` that a leaf of the whole belongs to. -/
def leafWithin (rest leaf : Path) : Option Path :=
  if leaf.take rest.length = rest then some (leaf.drop rest.length)
  else if rest.take leaf.length = leaf then some []
  else none

/-- The provenance of a part, as `within` collects it. -/
def provenanceWithin (rest : Path) (provenance : Provenance) : Provenance :=
  provenance.entries.foldl (fun into entry =>
    if entry.1.take rest.length = rest then Provenance.add into (entry.1.drop rest.length) entry.2
    else if rest.take entry.1.length = entry.1 then Provenance.add into [] entry.2
    else into) .empty

variable {value : ConfigValue} {resolved : Resolved}

lemma within_of_readData {rest : Path} (h : resolved.value.bind (readData · rest) = some value) :
    within resolved rest = ⟨some value, provenanceWithin rest resolved.provenance⟩ := by
  rw [within, h]
  rfl

lemma within_of_none {rest : Path} (h : resolved.value.bind (readData · rest) = none) :
    within resolved rest = nothing := by
  rw [within, h]

lemma get?_provenanceWithin (rest : Path) (provenance : Provenance) (leaf : Path) :
    (provenanceWithin rest provenance).get? leaf = provenance.entries.foldl (fun names entry =>
        if leafWithin rest entry.1 = some leaf then some (names.getD ∅ ∪ entry.2) else names) none := by
  have hadd : ∀ (into : Provenance) (leaf' : Path) (names : Finset JsString),
      (into.add leaf' names).get? leaf =
        if leaf' = leaf then some ((into.get? leaf).getD ∅ ∪ names) else into.get? leaf := by
    intro into leaf' names
    rw [add, get?_set]
    split_ifs with h
    · rw [h]
    · rfl
  have hfold : ∀ (entries : List (Path × Finset JsString)) (into : Provenance),
      (entries.foldl (fun into entry =>
        if entry.1.take rest.length = rest then add into (entry.1.drop rest.length) entry.2
        else if rest.take entry.1.length = entry.1 then add into [] entry.2
        else into) into).get? leaf =
      entries.foldl (fun names entry =>
        if leafWithin rest entry.1 = some leaf then some (names.getD ∅ ∪ entry.2) else names)
        (into.get? leaf) := by
    intro entries
    induction entries with
    | nil => exact fun _ => rfl
    | cons entry entries ih =>
      intro into
      rw [List.foldl_cons, List.foldl_cons, ih, leafWithin]
      split_ifs <;> simp_all
  exact hfold provenance.entries .empty

lemma Provenance.Agrees.provenanceWithin {provenance provenance' : Provenance}
    (h : provenance.Agrees provenance') (rest : Path) :
    (provenanceWithin rest provenance).Agrees (provenanceWithin rest provenance') := by
  intro leaf
  rw [get?_provenanceWithin, get?_provenanceWithin]
  refine h.entries_perm.foldl_eq' (fun entry _ entry' _ names => ?_) none
  split_ifs
  · simp only [Option.getD_some, Finset.union_right_comm]
  · rfl
  · rfl
  · rfl

lemma tainted_provenanceWithin {secret : Set JsString} {provenance : Provenance} {rest leaf : Path}
    (h : Tainted secret provenance (rest ++ leaf)) :
    Tainted secret (provenanceWithin rest provenance) leaf := by
  obtain ⟨name, hsecret, hname⟩ := h
  have hfold : ∀ (entries : List (Path × Finset JsString)) (o : Option (Finset JsString)),
      name ∈ (entries.foldl (fun names entry =>
        if leafWithin rest entry.1 = some leaf then some (names.getD ∅ ∪ entry.2) else names)
        o).getD ∅ ↔
      name ∈ o.getD ∅ ∨ ∃ entry ∈ entries, leafWithin rest entry.1 = some leaf ∧ name ∈ entry.2 := by
    intro entries
    induction entries with
    | nil => simp
    | cons entry entries ih =>
      intro o
      rw [List.foldl_cons, ih, List.exists_mem_cons_iff]
      split_ifs with hleaf
      · simp [hleaf, or_assoc]
      · simp [hleaf]
  refine ⟨name, hsecret, ?_⟩
  rw [get?_provenanceWithin, hfold]
  cases hget : provenance.get? (rest ++ leaf) with
  | none =>
    rw [hget] at hname
    exact absurd hname (Finset.notMem_empty name)
  | some names =>
    rw [hget] at hname
    refine .inr ⟨_, (provenance.get?_eq_some_iff _ names).1 hget, ?_, hname⟩
    rw [leafWithin, List.take_left, if_pos rfl, List.drop_left]

variable {members : ConfigObject}

lemma leafPaths_of_plain? (h : value.plain? = some members) :
    leafPaths value = leafPathsOf members := by
  have hmembers := members?_of_plain? h
  cases value with
  | object prototype members' =>
    cases hmembers
    rw [leafPaths, isPlainObject, h]
    rfl
  | _ => cases hmembers

lemma plain?_of_isUnresolved {prototype : Prototype}
    (h : (object prototype members).isUnresolved = false) :
    (object prototype members).plain? = some members := by
  rw [plain?, h]
  rfl

lemma leafPaths_of_plain?_eq_none (h : value.plain? = none) : leafPaths value = [[]] := by
  cases value with
  | object prototype members =>
    rw [leafPaths, isPlainObject, h]
    rfl
  | _ => rfl

lemma mem_leafPathsOf (hnodup : (members.map Prod.fst).Nodup) {leaf : Path} :
    leaf ∈ leafPathsOf members ↔
      ∃ key child rest, leaf = key :: rest ∧ isForbiddenConfigKey key = false ∧
        lookup key members = some child ∧ rest ∈ leafPaths child := by
  have hmem : ∀ members : ConfigObject, leaf ∈ leafPathsOf members ↔
      ∃ member ∈ members, ∃ rest, leaf = member.1 :: rest ∧
        isForbiddenConfigKey member.1 = false ∧ rest ∈ leafPaths member.2 := by
    intro members
    induction members with
    | nil => simp [leafPathsOf]
    | cons member members ih =>
      rw [leafPathsOf, List.mem_append, ih, List.exists_mem_cons_iff]
      refine or_congr_left ?_
      split_ifs with hkey
      · simp [hkey]
      · rw [List.mem_map]
        constructor
        · rintro ⟨rest, hrest, rfl⟩
          exact ⟨rest, rfl, Bool.eq_false_iff.2 hkey, hrest⟩
        · rintro ⟨rest, rfl, -, hrest⟩
          exact ⟨rest, hrest, rfl⟩
  rw [hmem]
  constructor
  · rintro ⟨⟨key, child⟩, hmember, rest, rfl, hkey, hrest⟩
    exact ⟨key, child, rest, rfl, hkey, lookup_eq_some_of_mem hnodup hmember, hrest⟩
  · rintro ⟨key, child, rest, rfl, hkey, hlook, hrest⟩
    exact ⟨(key, child), mem_of_lookup_eq_some hlook, rest, rfl, hkey, hrest⟩

lemma leafPathsOf_congr {members' : ConfigObject} (hnodup : (members.map Prod.fst).Nodup)
    (hnodup' : (members'.map Prod.fst).Nodup)
    (hkeys : ∀ key, (lookup key members).isSome = (lookup key members').isSome)
    (h : ∀ key value value', lookup key members = some value → lookup key members' = some value' →
      ∀ leaf, leaf ∈ leafPaths value ↔ leaf ∈ leafPaths value') (leaf : Path) :
    leaf ∈ leafPathsOf members ↔ leaf ∈ leafPathsOf members' := by
  rw [mem_leafPathsOf hnodup, mem_leafPathsOf hnodup']
  refine exists_congr fun key => ?_
  have hkey := hkeys key
  cases hlook : lookup key members with
  | none =>
    cases hlook' : lookup key members' with
    | none => rfl
    | some value' =>
      rw [hlook, hlook'] at hkey
      cases hkey
  | some value =>
    cases hlook' : lookup key members' with
    | none =>
      rw [hlook, hlook'] at hkey
      cases hkey
    | some value' => simp [h key value value' hlook hlook']

lemma Reordered.mem_leafPaths_iff {value' : ConfigValue} (h : Reordered value value')
    (leaf : Path) : leaf ∈ leafPaths value ↔ leaf ∈ leafPaths value' := by
  induction h generalizing leaf with
  | refl => rfl
  | list => rfl
  | @object prototype members members' hnodup hnodup' hkeys hvalues ih =>
    have hobject : Reordered (.object prototype members) (.object prototype members') :=
      .object hnodup hnodup' hkeys hvalues
    have hunresolved := hobject.isUnresolved_eq
    cases hplain : (ConfigValue.object prototype members).isUnresolved with
    | true =>
      rw [leafPaths_of_plain?_eq_none (if_pos hplain),
        leafPaths_of_plain?_eq_none (if_pos (hunresolved ▸ hplain))]
    | false =>
      rw [leafPaths_of_plain? (plain?_of_isUnresolved hplain),
        leafPaths_of_plain? (plain?_of_isUnresolved (hunresolved ▸ hplain))]
      exact leafPathsOf_congr hnodup hnodup' hkeys ih leaf

lemma get?_everyLeafFrom (value : ConfigValue) (name : JsString) (leaf : Path) :
    (everyLeafFrom value name).get? leaf = if leaf ∈ leafPaths value then some {name} else none := by
  have hfold : ∀ (leaves : List Path) (into : Provenance),
      (leaves.foldl (fun into leaf => into.set leaf {name}) into).get? leaf =
        if leaf ∈ leaves then some {name} else into.get? leaf := by
    intro leaves
    induction leaves with
    | nil => simp
    | cons leaf' leaves ih =>
      intro into
      rw [List.foldl_cons, ih, get?_set]
      by_cases hleaf : leaf' = leaf
      · simp [hleaf]
      · simp [hleaf, Ne.symm hleaf]
  rw [everyLeafFrom, hfold, get?_empty]

/-- The same shape, and other values only at the leaves of a set of paths. -/
inductive Alike : (Path → Prop) → ConfigValue → ConfigValue → Prop
  | reordered {taint : Path → Prop} {value value' : ConfigValue} (h : Reordered value value') :
      Alike taint value value'
  | leaf {taint : Path → Prop} {value value' : ConfigValue} (h : taint [])
      (hplain : value.plain? = none) (hplain' : value'.plain? = none)
      (hdefined : value ≠ .undefined) (hdefined' : value' ≠ .undefined)
      (htext : value.text?.isSome = value'.text?.isSome) : Alike taint value value'
  | object {taint : Path → Prop} {prototype : Prototype} {members members' : ConfigObject}
      (hplain : (ConfigValue.object prototype members).isUnresolved = false)
      (hplain' : (ConfigValue.object prototype members').isUnresolved = false)
      (hnodup : (members.map Prod.fst).Nodup) (hnodup' : (members'.map Prod.fst).Nodup)
      (hkeys : ∀ key, (lookup key members).isSome = (lookup key members').isSome)
      (hvalues : ∀ key value value', lookup key members = some value →
        lookup key members' = some value' →
          Alike (fun leaf => isForbiddenConfigKey key = false ∧ taint (key :: leaf)) value value') :
      Alike taint (.object prototype members) (.object prototype members')

/-- The same keys, with values that are alike below them. -/
def MembersAlike (taint : Path → Prop) (members members' : ConfigObject) : Prop :=
  ∀ key, Option.Rel
    (Alike fun leaf => isForbiddenConfigKey key = false ∧ taint (key :: leaf))
    (lookup key members) (lookup key members')

lemma alike_object {taint : Path → Prop} {prototype : Prototype} {members' : ConfigObject}
    (hplain : (ConfigValue.object prototype members).isUnresolved = false)
    (hplain' : (ConfigValue.object prototype members').isUnresolved = false)
    (hnodup : (members.map Prod.fst).Nodup) (hnodup' : (members'.map Prod.fst).Nodup)
    (h : MembersAlike taint members members') :
    Alike taint (.object prototype members) (.object prototype members') := by
  refine .object hplain hplain' hnodup hnodup' (fun key => isSome_of_rel (h key)) ?_
  intro key value value' hk hk'
  have hrel := h key
  rw [hk, hk'] at hrel
  cases hrel with
  | some hrel => exact hrel

namespace Alike

variable {taint taint' : Path → Prop} {value value' : ConfigValue}

section

variable (h : Alike taint value value')
include h

lemma mono (htaint : ∀ leaf, taint leaf → taint' leaf) : Alike taint' value value' := by
  induction h generalizing taint' with
  | reordered h => exact .reordered h
  | leaf h hplain hplain' hdefined hdefined' htext =>
    exact .leaf (htaint [] h) hplain hplain' hdefined hdefined' htext
  | object hplain hplain' hnodup hnodup' hkeys _ ih =>
    refine .object hplain hplain' hnodup hnodup' hkeys fun key value value' hk hk' => ?_
    exact ih key value value' hk hk' fun leaf h => ⟨h.1, htaint (key :: leaf) h.2⟩

lemma reordered_of_untainted (htaint : ∀ leaf, ¬ taint leaf) : Reordered value value' := by
  induction h with
  | reordered h => exact h
  | leaf h => exact absurd h (htaint [])
  | object _ _ hnodup hnodup' hkeys _ ih =>
    refine .object hnodup hnodup' hkeys fun key value value' hk hk' => ?_
    exact ih key value value' hk hk' fun leaf h => htaint (key :: leaf) h.2

lemma plain? : Option.Rel (MembersAlike taint) value.plain? value'.plain? := by
  cases h with
  | reordered h =>
    obtain ⟨hnone, hnone'⟩ | ⟨members, members', hmembers, hmembers', h⟩ := rel_cases h.plain?
    · rw [hnone, hnone']
      exact .none
    · rw [hmembers, hmembers']
      refine .some fun key => ?_
      obtain ⟨hnone, hnone'⟩ | ⟨child, child', hchild, hchild', h⟩ := rel_cases (h key)
      · rw [hnone, hnone']
        exact .none
      · rw [hchild, hchild']
        exact .some (.reordered h)
  | leaf h hplain hplain' =>
    rw [hplain, hplain']
    exact .none
  | @object taint prototype members members' hplain hplain' _ _ hkeys hvalues =>
    rw [ConfigValue.plain?, ConfigValue.plain?, hplain, hplain']
    exact .some fun key => rel_of_isSome (hkeys key) fun _ _ => hvalues key _ _

lemma defined? : Option.Rel (Alike taint) (defined? value) (defined? value') := by
  have hsome : ∀ {value : ConfigValue}, value ≠ .undefined →
      ActorTs.Config.defined? value = some value := by
    intro value hvalue
    cases value with
    | undefined => exact absurd rfl hvalue
    | _ => rfl
  cases h with
  | reordered h =>
    obtain ⟨hnone, hnone'⟩ | ⟨found, found', hfound, hfound', h⟩ := rel_cases h.defined?
    · rw [hnone, hnone']
      exact .none
    · rw [hfound, hfound']
      exact .some (.reordered h)
  | leaf h hplain hplain' hdefined hdefined' htext =>
    rw [hsome hdefined, hsome hdefined']
    exact .some (.leaf h hplain hplain' hdefined hdefined' htext)
  | object hplain hplain' hnodup hnodup' hkeys hvalues =>
    exact .some (.object hplain hplain' hnodup hnodup' hkeys hvalues)

lemma text? :
    Option.Rel (fun text text' => text = text' ∨ taint []) value.text? value'.text? := by
  cases h with
  | reordered h =>
    rw [h.text?_eq]
    exact rel_refl (fun _ => .inl rfl) _
  | leaf h _ _ _ _ htext => exact rel_of_isSome htext fun _ _ _ _ => .inr h
  | object => exact .none

lemma readData (path : Path) :
    Option.Rel (Alike fun leaf => taint (path ++ leaf)) (readData value path)
      (readData value' path) := by
  induction path generalizing taint value value' with
  | nil => exact h.defined?
  | cons key path ih =>
    rw [ActorTs.Config.readData, ActorTs.Config.readData]
    split_ifs with hkey
    · exact .none
    · have hchild : Option.Rel _ (value.plain?.bind (lookup key)) (value'.plain?.bind (lookup key)) :=
        Demand.rel_bind h.plain? fun members members' h => h key
      obtain ⟨hnone, hnone'⟩ | ⟨child, child', hfound, hfound', h⟩ := rel_cases hchild
      · rw [hnone, hnone']
        exact .none
      · rw [hfound, hfound']
        exact ih (h.mono fun leaf h => h.2)

lemma mem_leafPaths_iff (leaf : Path) : leaf ∈ leafPaths value ↔ leaf ∈ leafPaths value' := by
  induction h generalizing leaf with
  | reordered h => exact h.mem_leafPaths_iff leaf
  | leaf _ hplain hplain' =>
    rw [leafPaths_of_plain?_eq_none hplain, leafPaths_of_plain?_eq_none hplain']
  | object hplain hplain' hnodup hnodup' hkeys _ ih =>
    rw [leafPaths_of_plain? (plain?_of_isUnresolved hplain),
      leafPaths_of_plain? (plain?_of_isUnresolved hplain')]
    exact leafPathsOf_congr hnodup hnodup' hkeys ih leaf

lemma onLeaves : Alike (fun leaf => taint leaf ∧ leaf ∈ leafPaths value) value value' := by
  induction h with
  | reordered h => exact .reordered h
  | leaf h hplain hplain' hdefined hdefined' htext =>
    refine .leaf ⟨h, ?_⟩ hplain hplain' hdefined hdefined' htext
    rw [leafPaths_of_plain?_eq_none hplain]
    exact List.mem_singleton_self []
  | object hplain hplain' hnodup hnodup' hkeys _ ih =>
    refine .object hplain hplain' hnodup hnodup' hkeys fun key value value' hk hk' => ?_
    refine (ih key value value' hk hk').mono fun leaf h => ⟨h.1.1, h.1.2, ?_⟩
    rw [leafPaths_of_plain? (plain?_of_isUnresolved hplain), mem_leafPathsOf hnodup]
    exact ⟨key, value, leaf, rfl, h.1.1, hk, h.2⟩

lemma leaf_value {leaf : Path} (hleaf : leaf ∈ leafPaths value) (htaint : ¬ taint leaf) :
    Option.Rel Reordered (ActorTs.Config.readData value leaf)
      (ActorTs.Config.readData value' leaf) := by
  induction h generalizing leaf with
  | reordered h =>
    have halike : Alike (fun _ => False) _ _ := .reordered h
    have hread := halike.readData leaf
    obtain ⟨hnone, hnone'⟩ | ⟨part, part', hpart, hpart', h⟩ := rel_cases hread
    · rw [hnone, hnone']
      exact .none
    · rw [hpart, hpart']
      exact .some (h.reordered_of_untainted fun _ h => h)
  | leaf h hplain =>
    rw [leafPaths_of_plain?_eq_none hplain, List.mem_singleton] at hleaf
    exact absurd (hleaf ▸ h) htaint
  | object hplain hplain' hnodup hnodup' hkeys hvalues ih =>
    have hmembers := plain?_of_isUnresolved hplain
    have hmembers' := plain?_of_isUnresolved hplain'
    rw [leafPaths_of_plain? hmembers, mem_leafPathsOf hnodup] at hleaf
    obtain ⟨key, child, rest, rfl, hkey, hlook, hrest⟩ := hleaf
    obtain ⟨child', hlook'⟩ := Option.isSome_iff_exists.1 ((hkeys key).symm.trans (by rw [hlook]; rfl))
    rw [ActorTs.Config.readData, ActorTs.Config.readData, hkey, hmembers, hmembers',
      Option.bind_some, Option.bind_some, hlook, hlook']
    exact ih key child child' hlook hlook' hrest fun h => htaint h.2

end

end Alike

end ActorTs.Config
