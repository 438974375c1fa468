import ActorTs.Config.ConfigValue

/-!
# Values and their parts

A part lies inside a value, at any depth, and is nested less deeply, which is the
induction that the recursions on values need. The equations of the two ways to write a
key that is already set are stated here in one piece each.
-/

namespace ActorTs.Config

open ConfigValue

mutual

/-- How deep a value is nested. -/
def ConfigValue.height : ConfigValue → ℕ
  | .list items => heightOfItems items + 1
  | .object _ members => heightOfMembers members + 1
  | _ => 1

def heightOfItems : List ConfigValue → ℕ
  | [] => 0
  | item :: items => max item.height (heightOfItems items)

def heightOfMembers : ConfigObject → ℕ
  | [] => 0
  | (_, value) :: rest => max value.height (heightOfMembers rest)

end

/-- A value that lies inside another. -/
inductive IsPart : ConfigValue → ConfigValue → Prop
  | item {item : ConfigValue} {items : List ConfigValue} (h : item ∈ items) :
      IsPart item (.list items)
  | member {key : JsString} {value : ConfigValue} {prototype : Prototype} {members : ConfigObject}
      (h : (key, value) ∈ members) : IsPart value (.object prototype members)
  | trans {part value whole : ConfigValue} (h : IsPart part value) (h' : IsPart value whole) :
      IsPart part whole

lemma height_le_heightOfItems {item : ConfigValue} {items : List ConfigValue} (h : item ∈ items) :
    item.height ≤ heightOfItems items := by
  induction items with
  | nil => cases h
  | cons first items ih =>
    rcases List.mem_cons.1 h with rfl | h
    · exact le_max_left _ _
    · exact (ih h).trans (le_max_right _ _)

variable {value : ConfigValue} {members : ConfigObject} {key : JsString} {prototype : Prototype}

lemma height_le_heightOfMembers (h : (key, value) ∈ members) :
    value.height ≤ heightOfMembers members := by
  induction members with
  | nil => cases h
  | cons first members ih =>
    rcases List.mem_cons.1 h with h | h
    · cases h
      exact le_max_left _ _
    · exact (ih h).trans (le_max_right _ _)

lemma IsPart.height_lt {part whole : ConfigValue} (h : IsPart part whole) :
    part.height < whole.height := by
  induction h with
  | item h =>
    exact Nat.lt_succ_of_le (height_le_heightOfItems h)
  | member h =>
    exact Nat.lt_succ_of_le (height_le_heightOfMembers h)
  | trans _ _ ih ih' => exact ih.trans ih'

lemma partsInduction {P : ConfigValue → Prop}
    (h : ∀ node, (∀ part, IsPart part node → P part) → P node) (node : ConfigValue) : P node := by
  induction hn : node.height using Nat.strong_induction_on generalizing node with
  | _ n ih => exact h node fun part hpart => ih part.height (hn ▸ hpart.height_lt) part rfl

lemma lookup_of_ownValue {object : ConfigObject} (h : ownValue object key = some value) :
    OrderedMap.lookup key object = some value := by
  rw [ownValue] at h
  cases hlook : OrderedMap.lookup key object with
  | none =>
    rw [hlook] at h
    cases h
  | some found =>
    rw [hlook] at h
    cases found <;> cases h <;> rfl

lemma isPart_of_ownValue (h : ownValue members key = some value) :
    IsPart value (.object prototype members) :=
  .member (OrderedMap.mem_of_lookup_eq_some (lookup_of_ownValue h))

lemma members?_of_plain? (h : value.plain? = some members) : value.members? = some members := by
  rw [plain?] at h
  split_ifs at h
  exact h

lemma isPart_of_plain? (h : value.plain? = some members) {member : JsString × ConfigValue}
    (hmem : member ∈ members) : IsPart member.2 value := by
  have hmembers := members?_of_plain? h
  cases value with
  | object prototype members' =>
    cases hmembers
    exact IsPart.member (show (member.1, member.2) ∈ members from hmem)
  | _ => cases hmembers

/-- The replaced value goes to the tail of the chain that the incoming one carries. -/
lemma keepPrevious_eq (existing : ConfigValue) (members : ConfigObject) :
    keepPrevious existing members = OrderedMap.bind "previous".toJs
      (match ownValue members "previous".toJs with
        | none => existing
        | some previous => overrideKeepingPrevious (some existing) previous) members := by
  induction members with
  | nil => simp [keepPrevious, OrderedMap.bind, ownValue, OrderedMap.lookup]
  | cons member members ih =>
    obtain ⟨key, value⟩ := member
    by_cases hkey : key = "previous".toJs
    · subst hkey
      cases value <;> simp [keepPrevious, OrderedMap.bind, ownValue, OrderedMap.lookup]
    · have hkeep : keepPrevious existing ((key, value) :: members) =
          (key, value) :: keepPrevious existing members := by
        rw [keepPrevious.eq_def]
        exact if_neg hkey
      have hown : ownValue ((key, value) :: members) "previous".toJs =
          ownValue members "previous".toJs := by
        rw [ownValue, ownValue, OrderedMap.lookup, if_neg hkey]
      rw [hkeep, hown, OrderedMap.bind, if_neg hkey, ih]

/-- What has no members, or is not an optional substitution or concatenation, wins. -/
lemma overrideKeepingPrevious_eq_self {incoming : ConfigValue}
    (h : ∀ members, incoming.members? = some members →
      (incoming.isUnresolved && isOptional members) = false)
    (existing : Option ConfigValue) : overrideKeepingPrevious existing incoming = incoming := by
  cases incoming with
  | object prototype members =>
    cases existing with
    | none => rfl
    | some value => exact if_neg (by rw [h members rfl]; exact Bool.false_ne_true)
  | _ => rfl

lemma overrideKeepingPrevious_optional
    (hunresolved : (ConfigValue.object prototype members).isUnresolved = true)
    (hoptional : isOptional members = true) (value : ConfigValue) :
    overrideKeepingPrevious (some value) (.object prototype members) =
      .object .plain (keepPrevious value members) :=
  if_pos (by rw [hunresolved, hoptional]; rfl)

lemma mergeValue_eq (existing : Option ConfigValue) (value : ConfigValue) :
    mergeValue existing value =
      match existing.bind plain?, value.plain? with
      | some base, some overlay => .object .plain (deepMerge base overlay)
      | _, _ => overrideKeepingPrevious existing value := by
  cases value with
  | object prototype members =>
    cases hbase : existing.bind plain? with
    | none => simp only [mergeValue, hbase]
    | some base =>
      cases hplain : (ConfigValue.object prototype members).plain? with
      | none => simp [mergeValue, hbase, isPlainObject, hplain]
      | some overlay =>
        have hmembers := members?_of_plain? hplain
        cases hmembers
        simp [mergeValue, hbase, isPlainObject, hplain, deepMerge]
  | _ => cases existing.bind plain? <;> rfl

end ActorTs.Config
