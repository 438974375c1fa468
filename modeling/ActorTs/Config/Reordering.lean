import ActorTs.Config.Walk

/-!
# The order of keys

Two values are reorderings of each other when they differ in the order of the keys of their objects
and in nothing else, at any depth. What reads a value by its keys cannot tell them apart.

No object lists a key twice, and here that is a field of `Tree`.
-/

namespace ActorTs.Config

open ConfigValue OrderedMap

/-- The property, of a value and of all its parts. -/
def Everywhere (P : ConfigValue → Prop) (value : ConfigValue) : Prop :=
  P value ∧ ∀ part, IsPart part value → P part

section Everywhere

variable {P : ConfigValue → Prop}

lemma Everywhere.part {part value : ConfigValue} (h : Everywhere P value)
    (hpart : IsPart part value) : Everywhere P part :=
  ⟨h.2 part hpart, fun inner hinner => h.2 inner (hinner.trans hpart)⟩

lemma Everywhere.valueAt {value part : ConfigValue} {path : Path} (h : Everywhere P value)
    (hpart : valueAt value path = some part) : Everywhere P part := by
  induction path generalizing value with
  | nil =>
    cases hpart
    exact h
  | cons key path ih =>
    rw [ActorTs.Config.valueAt, Option.bind_eq_some_iff] at hpart
    obtain ⟨child, hchild, hpart⟩ := hpart
    cases value with
    | object prototype members => exact ih (h.part (.member (mem_of_lookup_eq_some hchild))) hpart
    | _ => cases hchild

lemma isPart_object {part : ConfigValue} {prototype : Prototype} {members : ConfigObject}
    (h : IsPart part (.object prototype members)) :
    ∃ member ∈ members, part = member.2 ∨ IsPart part member.2 := by
  generalize hwhole : ConfigValue.object prototype members = whole at h
  induction h with
  | item => cases hwhole
  | member h =>
    cases hwhole
    exact ⟨_, h, .inl rfl⟩
  | trans h _ _ ih =>
    obtain ⟨member, hmem, heq | hinner⟩ := ih hwhole
    · exact ⟨member, hmem, .inr (heq ▸ h)⟩
    · exact ⟨member, hmem, .inr (h.trans hinner)⟩

lemma not_isPart_of_text? {part value : ConfigValue} (h : value.text?.isSome) :
    ¬ IsPart part value := by
  intro hpart
  induction hpart with
  | item => cases h
  | member => cases h
  | trans _ _ _ ih => exact ih h

lemma everywhere_object {prototype : Prototype} {members : ConfigObject} :
    Everywhere P (.object prototype members) ↔
      P (.object prototype members) ∧ ∀ member ∈ members, Everywhere P member.2 := by
  constructor
  · exact fun h => ⟨h.1, fun member hmem =>
      h.part (IsPart.member (show (member.1, member.2) ∈ members from hmem))⟩
  · rintro ⟨h, hmembers⟩
    refine ⟨h, fun part hpart => ?_⟩
    obtain ⟨member, hmem, rfl | hinner⟩ := isPart_object hpart
    · exact (hmembers member hmem).1
    · exact (hmembers member hmem).2 part hinner

lemma everywhere_of_text? {value : ConfigValue} (h : value.text?.isSome) :
    Everywhere P value ↔ P value :=
  ⟨fun h => h.1, fun hP => ⟨hP, fun _ hpart => absurd hpart (not_isPart_of_text? h)⟩⟩

end Everywhere

/-- No object in the value lists a key twice. -/
def Distinct : ConfigValue → Prop :=
  Everywhere fun value => ∀ members, value.members? = some members → (members.map Prod.fst).Nodup

variable {prototype : Prototype}

lemma Distinct.nodup {members : ConfigObject} (h : Distinct (.object prototype members)) :
    (members.map Prod.fst).Nodup := h.1 members rfl

lemma Distinct.valueAt {value part : ConfigValue} {path : Path} (h : Distinct value)
    (hpart : valueAt value path = some part) : Distinct part := Everywhere.valueAt h hpart

lemma distinct_object {members : ConfigObject} :
    Distinct (.object prototype members) ↔
      (members.map Prod.fst).Nodup ∧ ∀ member ∈ members, Distinct member.2 := by
  rw [Distinct, everywhere_object]
  refine and_congr_left fun _ => ⟨fun h => h members rfl, fun h members' hmembers => ?_⟩
  cases hmembers
  exact h

lemma distinct_of_text? {value : ConfigValue} (h : value.text?.isSome) : Distinct value := by
  refine (everywhere_of_text? h).2 fun members hmembers => ?_
  cases value with
  | object => cases h
  | _ => cases hmembers

/-- A tree as an object of JavaScript holds it. -/
structure Tree where
  members : ConfigObject
  distinct : Distinct (.object .plain members)

inductive Reordered : ConfigValue → ConfigValue → Prop
  | refl (value : ConfigValue) : Reordered value value
  | list {items items' : List ConfigValue} (hlength : items.length = items'.length)
      (hitems : ∀ (i : ℕ) item item', items[i]? = some item → items'[i]? = some item' →
        Reordered item item') : Reordered (.list items) (.list items')
  | object {prototype : Prototype} {members members' : ConfigObject}
      (hnodup : (members.map Prod.fst).Nodup) (hnodup' : (members'.map Prod.fst).Nodup)
      (hkeys : ∀ key, (lookup key members).isSome = (lookup key members').isSome)
      (hvalues : ∀ key value value', lookup key members = some value →
        lookup key members' = some value' → Reordered value value') :
      Reordered (.object prototype members) (.object prototype members')

/-- The same keys, with reordered values. -/
def MembersReordered (members members' : ConfigObject) : Prop :=
  ∀ key, Option.Rel Reordered (lookup key members) (lookup key members')

variable {α β : Type*} {R : α → β → Prop} {x : Option α} {y : Option β}

lemma rel_of_isSome (h : x.isSome = y.isSome) (hR : ∀ a b, x = some a → y = some b → R a b) :
    Option.Rel R x y := by
  cases x with
  | none =>
    cases y with
    | none => exact .none
    | some b => cases h
  | some a =>
    cases y with
    | none => cases h
    | some b => exact .some (hR a b rfl rfl)

lemma rel_cases (h : Option.Rel R x y) :
    x = none ∧ y = none ∨ ∃ a b, x = some a ∧ y = some b ∧ R a b := by
  cases h with
  | none => exact .inl ⟨rfl, rfl⟩
  | some h => exact .inr ⟨_, _, rfl, rfl, h⟩

lemma isSome_of_rel (h : Option.Rel R x y) : x.isSome = y.isSome := by
  cases h <;> rfl

lemma rel_refl {α : Type*} {R : α → α → Prop} (hR : ∀ a, R a a) (x : Option α) :
    Option.Rel R x x := by
  cases x with
  | none => exact .none
  | some a => exact .some (hR a)

lemma forall₂_of_getElem? {R : ConfigValue → ConfigValue → Prop} {items items' : List ConfigValue}
    (hlength : items.length = items'.length)
    (h : ∀ (i : ℕ) item item', items[i]? = some item → items'[i]? = some item' → R item item') :
    List.Forall₂ R items items' := by
  refine List.forall₂_iff_get.2 ⟨hlength, fun i hi hi' => ?_⟩
  exact h i _ _ (List.getElem?_eq_getElem hi) (List.getElem?_eq_getElem hi')

lemma reordered_list {items items' : List ConfigValue} (h : List.Forall₂ Reordered items items') :
    Reordered (.list items) (.list items') := by
  obtain ⟨hlength, hitems⟩ := List.forall₂_iff_get.1 h
  refine .list hlength fun i item item' hi hi' => ?_
  obtain ⟨hlt, rfl⟩ := List.getElem?_eq_some_iff.1 hi
  obtain ⟨hlt', rfl⟩ := List.getElem?_eq_some_iff.1 hi'
  exact hitems i hlt hlt'

lemma reordered_object {members members' : ConfigObject} (hnodup : (members.map Prod.fst).Nodup)
    (hnodup' : (members'.map Prod.fst).Nodup) (h : MembersReordered members members') :
    Reordered (.object prototype members) (.object prototype members') := by
  refine .object hnodup hnodup' (fun key => isSome_of_rel (h key)) fun key value value' hk hk' => ?_
  have hrel := h key
  rw [hk, hk'] at hrel
  cases hrel with
  | some hrel => exact hrel

namespace Reordered

variable {value value' : ConfigValue}

lemma list_left {items : List ConfigValue} (h : Reordered (.list items) value') :
    ∃ items', value' = .list items' ∧ List.Forall₂ Reordered items items' := by
  cases h with
  | refl => exact ⟨items, rfl, List.forall₂_same.2 fun item _ => .refl item⟩
  | list hlength hitems => exact ⟨_, rfl, forall₂_of_getElem? hlength hitems⟩

lemma object_left {prototype : Prototype} {members : ConfigObject}
    (h : Reordered (.object prototype members) value') :
    ∃ members', value' = .object prototype members' ∧ MembersReordered members members' := by
  cases h with
  | refl => exact ⟨members, rfl, fun key => rel_refl .refl _⟩
  | object _ _ hkeys hvalues =>
    exact ⟨_, rfl, fun key => rel_of_isSome (hkeys key) fun _ _ => hvalues key _ _⟩

section

variable (h : Reordered value value')
include h

lemma eq_of_text? (htext : value.text?.isSome) : value' = value := by
  cases h with
  | refl => rfl
  | list => cases htext
  | object => cases htext

lemma text?_eq : value.text? = value'.text? := by
  cases h <;> rfl

lemma members? : Option.Rel MembersReordered value.members? value'.members? := by
  cases h with
  | refl => exact rel_refl (fun members key => rel_refl .refl _) _
  | list => exact .none
  | object hnodup hnodup' hkeys hvalues =>
    exact .some fun key => rel_of_isSome (hkeys key) fun _ _ => hvalues key _ _

lemma defined? : Option.Rel Reordered (defined? value) (defined? value') := by
  cases h with
  | refl => exact rel_refl .refl _
  | list hlength hitems => exact .some (.list hlength hitems)
  | object hnodup hnodup' hkeys hvalues => exact .some (.object hnodup hnodup' hkeys hvalues)

lemma eq_true_iff : value = .bool true ↔ value' = .bool true := by
  cases h <;> simp

lemma truthy_eq : value.truthy = value'.truthy := by
  cases h <;> rfl

end

end Reordered

lemma ownValue_eq (members : ConfigObject) (key : JsString) :
    ownValue members key = (lookup key members).bind defined? := by
  rw [ownValue]
  cases lookup key members with
  | none => rfl
  | some value => cases value <;> rfl

section Members

variable {members members' : ConfigObject} {value value' : ConfigValue}

lemma MembersReordered.refl (members : ConfigObject) : MembersReordered members members :=
  fun _ => rel_refl .refl _

lemma MembersReordered.ownValue (h : MembersReordered members members') (key : JsString) :
    Option.Rel Reordered (ownValue members key) (ownValue members' key) := by
  rw [ownValue_eq, ownValue_eq]
  exact Demand.rel_bind (h key) fun _ _ => Reordered.defined?

lemma MembersReordered.of_lookup (h : MembersReordered members members') {key : JsString}
    (hvalue : lookup key members = some value) (hvalue' : lookup key members' = some value') :
    Reordered value value' := by
  have hrel := h key
  rw [hvalue, hvalue'] at hrel
  cases hrel with
  | some hrel => exact hrel

lemma Reordered.valueAt (h : Reordered value value') (path : Path) :
    Option.Rel Reordered (valueAt value path) (valueAt value' path) := by
  induction path generalizing value value' with
  | nil => exact .some h
  | cons key path ih =>
    have hchild := Demand.rel_bind h.members? fun members members' h => h key
    exact Demand.rel_bind hchild fun _ _ h => ih h

lemma isOptional_congr (h : MembersReordered members members') :
    isOptional members = isOptional members' := by
  rw [isOptional, isOptional]
  obtain ⟨hnone, hnone'⟩ | ⟨value, value', hvalue, hvalue', h⟩ :=
    rel_cases (h.ownValue "optional")
  · rw [hnone, hnone']
  · rw [hvalue, hvalue', Option.map_some, Option.map_some, h.truthy_eq]

end Members

lemma isMarkedBy_iff {marker : JsString} {value : ConfigValue} : value.isMarkedBy marker = true ↔
    ∃ members, value.members? = some members ∧ lookup marker members = some (.bool true) := by
  rw [isMarkedBy]
  cases value.members? with
  | none => simp
  | some members =>
    rw [Option.bind_some, ownValue_eq]
    cases hlook : lookup marker members with
    | none => simp [hlook]
    | some found =>
      cases found with
      | bool b => cases b <;> simp [defined?, hlook]
      | _ => simp [defined?, hlook]

namespace Reordered

variable {value value' : ConfigValue}

section

variable (h : Reordered value value')
include h

lemma isMarkedBy_eq (marker : JsString) : value.isMarkedBy marker = value'.isMarkedBy marker := by
  rw [Bool.eq_iff_iff, isMarkedBy_iff, isMarkedBy_iff]
  obtain ⟨hnone, hnone'⟩ | ⟨members, members', hmembers, hmembers', h⟩ := rel_cases h.members?
  · rw [hnone, hnone']
  · rw [hmembers, hmembers']
    simp only [Option.some.injEq, exists_eq_left']
    obtain ⟨hnone, hnone'⟩ | ⟨found, found', hfound, hfound', h⟩ := rel_cases (h marker)
    · rw [hnone, hnone']
    · rw [hfound, hfound', Option.some_inj, Option.some_inj]
      exact h.eq_true_iff

lemma isSubstitution_eq : value.isSubstitution = value'.isSubstitution := h.isMarkedBy_eq _

lemma isConcatenation_eq : value.isConcatenation = value'.isConcatenation := h.isMarkedBy_eq _

lemma isUnresolved_eq : value.isUnresolved = value'.isUnresolved := by
  rw [isUnresolved, isUnresolved, h.isSubstitution_eq, h.isConcatenation_eq]

lemma plain? : Option.Rel MembersReordered value.plain? value'.plain? := by
  rw [ConfigValue.plain?, ConfigValue.plain?, h.isUnresolved_eq]
  split_ifs
  · exact .none
  · exact h.members?

end

end Reordered

/-- The same reference, up to the order of keys in what it replaced. -/
structure ReferenceReordered (reference reference' : Reference) : Prop where
  path : reference.path = reference'.path
  optional : reference.optional = reference'.optional
  previous : Option.Rel Reordered reference.previous reference'.previous

/-- The same piece of a concatenation. -/
def PieceReordered : JsString ⊕ Reference → JsString ⊕ Reference → Prop :=
  Sum.LiftRel (· = ·) ReferenceReordered

lemma referenceOf_reordered {members members' : ConfigObject}
    (h : MembersReordered members members') :
    ReferenceReordered (referenceOf members) (referenceOf members') := by
  refine ⟨?_, isOptional_congr h, h.ownValue _⟩
  rw [referenceOf, referenceOf]
  obtain ⟨hnone, hnone'⟩ | ⟨value, value', hvalue, hvalue', h⟩ := rel_cases (h.ownValue "path")
  · rw [hnone, hnone']
  · rw [hvalue, hvalue']
    cases h <;> rfl

lemma pieceOf_reordered {value value' : ConfigValue} (h : Reordered value value') :
    PieceReordered (pieceOf value) (pieceOf value') := by
  have hrefl : ∀ piece : JsString ⊕ Reference, PieceReordered piece piece := by
    rintro (text | reference)
    · exact .inl rfl
    · exact .inr ⟨rfl, rfl, rel_refl .refl _⟩
  cases h with
  | refl => exact hrefl _
  | list => exact hrefl _
  | object hnodup hnodup' hkeys hvalues =>
    exact .inr (referenceOf_reordered fun key =>
      rel_of_isSome (hkeys key) fun _ _ => hvalues key _ _)

lemma piecesOf_reordered {members members' : ConfigObject}
    (h : MembersReordered members members') :
    Option.Rel (List.Forall₂ PieceReordered) (piecesOf members) (piecesOf members') := by
  have hmap : ∀ {items items' : List ConfigValue}, List.Forall₂ Reordered items items' →
      List.Forall₂ PieceReordered (items.map pieceOf) (items'.map pieceOf) := by
    intro items items' hitems
    rw [List.forall₂_map_left_iff, List.forall₂_map_right_iff]
    exact hitems.imp fun _ _ => pieceOf_reordered
  rw [piecesOf, piecesOf]
  obtain ⟨hnone, hnone'⟩ | ⟨value, value', hvalue, hvalue', h⟩ :=
    rel_cases (h.ownValue "pieces")
  · rw [hnone, hnone']
    exact .none
  · rw [hvalue, hvalue']
    cases value with
    | list items =>
      obtain ⟨items', rfl, hitems⟩ := h.list_left
      exact .some (hmap hitems)
    | object prototype members =>
      obtain ⟨members', rfl, -⟩ := h.object_left
      exact .none
    | str text =>
      cases h
      exact .some (.cons (.inl rfl) .nil)
    | _ =>
      cases h
      exact .none

end ActorTs.Config
