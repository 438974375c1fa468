import ActorTs.Config.ConfigTree
import ActorTs.Config.ParseBounds
import ActorTs.Config.Walk

/-!
# Where forbidden keys can be

`Clean` says that no object inside a value has a forbidden key. Parsing, resolving,
merging and stripping keep it, whatever the text and the variables are. A copy of a
plain object that code hands over is clean exactly when the values that `cloneTree`
takes over as they are are clean: `clean_cloneTree_iff`.
-/

open List Option OrderedMap Outcome

namespace ActorTs.Config

open ConfigValue

inductive Clean : ConfigValue → Prop
  | simple {value : ConfigValue} (h : value.text?.isSome) : Clean value
  | list {items : List ConfigValue} (h : ∀ item ∈ items, Clean item) : Clean (.list items)
  | object {prototype : Prototype} {members : ConfigObject}
      (hkeys : ∀ member ∈ members, isForbiddenConfigKey member.1 = false)
      (hvalues : ∀ member ∈ members, Clean member.2) : Clean (.object prototype members)

def CleanMembers (members : ConfigObject) : Prop :=
  ∀ member ∈ members, isForbiddenConfigKey member.1 = false ∧ Clean member.2

lemma clean_object_iff {prototype : Prototype} {members : ConfigObject} :
    Clean (.object prototype members) ↔ CleanMembers members := by
  constructor
  · intro h
    cases h with
    | simple h => cases h
    | object hkeys hvalues => exact fun member hmem => ⟨hkeys member hmem, hvalues member hmem⟩
  · exact fun h => .object (fun member hmem => (h member hmem).1) fun member hmem => (h member hmem).2

lemma clean_list_iff {items : List ConfigValue} :
    Clean (.list items) ↔ ∀ item ∈ items, Clean item := by
  constructor
  · intro h
    cases h with
    | simple h => cases h
    | list h => exact h
  · exact .list

section Members

variable {members : ConfigObject} {key : JsString} {value : ConfigValue}

lemma cleanMembers_nil : CleanMembers [] := fun _ h => absurd h not_mem_nil

lemma cleanMembers_cons : CleanMembers ((key, value) :: members) ↔
    (isForbiddenConfigKey key = false ∧ Clean value) ∧ CleanMembers members := by
  constructor
  · intro h
    exact ⟨h (key, value) mem_cons_self, fun member hmem => h member (mem_cons_of_mem _ hmem)⟩
  · rintro ⟨hfirst, hrest⟩ member hmem
    rcases mem_cons.1 hmem with rfl | hmem
    · exact hfirst
    · exact hrest member hmem

lemma CleanMembers.bind (h : CleanMembers members) (hkey : isForbiddenConfigKey key = false)
    (hvalue : Clean value) : CleanMembers (bind key value members) := by
  intro member hmem
  rcases eq_or_mem_of_mem_bind hmem with rfl | hmem
  · exact ⟨hkey, hvalue⟩
  · exact h member hmem

lemma CleanMembers.lookup (h : CleanMembers members)
    (hlook : OrderedMap.lookup key members = some value) : Clean value :=
  (h _ (mem_of_lookup_eq_some hlook)).2

lemma CleanMembers.ownValue (h : CleanMembers members)
    (hown : ownValue members key = some value) : Clean value := h.lookup (lookup_of_ownValue hown)

lemma Clean.plain? (h : Clean value) (hplain : value.plain? = some members) :
    CleanMembers members := by
  have hmembers := members?_of_plain? hplain
  cases value with
  | object prototype members' =>
    cases hmembers
    exact clean_object_iff.1 h
  | _ => cases hmembers

end Members

/-! ### Merging -/

lemma Clean.overrideKeepingPrevious {existing : Option ConfigValue}
    (hexisting : ∀ value, existing = some value → Clean value) {incoming : ConfigValue}
    (h : Clean incoming) : Clean (overrideKeepingPrevious existing incoming) := by
  induction incoming using partsInduction with
  | h incoming ih =>
  cases incoming with
  | object prototype members =>
    cases existing with
    | none => exact h
    | some value =>
      have hmembers := clean_object_iff.1 h
      cases hoptional : (ConfigValue.object prototype members).isUnresolved &&
          isOptional members with
      | false =>
        rwa [overrideKeepingPrevious_eq_self]
        rintro _ ⟨⟩
        exact hoptional
      | true =>
        obtain ⟨hunresolved, hoptional⟩ := Bool.and_eq_true_iff.1 hoptional
        rw [overrideKeepingPrevious_optional hunresolved hoptional, keepPrevious_eq]
        refine clean_object_iff.2 (hmembers.bind (by decide) ?_)
        cases hprevious : ownValue members "previous" with
        | none => exact hexisting value rfl
        | some previous =>
          exact ih previous (isPart_of_ownValue hprevious) (hmembers.ownValue hprevious)
  | _ => exact h

lemma cleanMembers_copyOfBase {base : ConfigObject} (h : ∀ member ∈ base, Clean member.2) :
    CleanMembers (copyOfBase base) := by
  intro member hmem
  obtain ⟨hmem, hkey⟩ := mem_filter.1 hmem
  exact ⟨by simpa using hkey, h member hmem⟩

lemma cleanMembers_mergeEntries {out overlay : ConfigObject} (hout : CleanMembers out)
    (h : ∀ member ∈ overlay, ∀ existing : Option ConfigValue,
      (∀ value, existing = some value → Clean value) → Clean (mergeValue existing member.2)) :
    CleanMembers (mergeEntries out overlay) := by
  induction overlay generalizing out with
  | nil => exact hout
  | cons member overlay ih =>
    obtain ⟨key, value⟩ := member
    have hrest := fun member hmem => h member (mem_cons_of_mem _ hmem)
    rw [mergeEntries]
    split_ifs with hkey
    · exact ih hout hrest
    · refine ih (hout.bind (Bool.eq_false_iff.2 hkey) ?_) hrest
      exact h (key, value) mem_cons_self _ fun _ => hout.ownValue

lemma clean_mergeValue {existing : Option ConfigValue}
    (hexisting : ∀ value, existing = some value → Clean value) {value : ConfigValue}
    (h : Clean value) : Clean (mergeValue existing value) := by
  induction value using partsInduction generalizing existing with
  | h value ih =>
  rw [mergeValue_eq]
  split
  · rename_i base overlay hbase hoverlay
    obtain ⟨value', hvalue', hplain⟩ := bind_eq_some_iff.1 hbase
    have hclean := (hexisting value' hvalue').plain? hplain
    refine clean_object_iff.2 (cleanMembers_mergeEntries
      (cleanMembers_copyOfBase fun member hmem => (hclean member hmem).2) ?_)
    intro member hmem existing hexisting
    exact ih member.2 (isPart_of_plain? hoverlay hmem) hexisting (h.plain? hoverlay member hmem).2
  · exact h.overrideKeepingPrevious hexisting

lemma cleanMembers_deepMerge {base overlay : ConfigObject} (hbase : CleanMembers base)
    (hoverlay : CleanMembers overlay) : CleanMembers (deepMerge base overlay) :=
  cleanMembers_mergeEntries (cleanMembers_copyOfBase fun member hmem => (hbase member hmem).2)
    fun member hmem _ hexisting => clean_mergeValue hexisting (hoverlay member hmem).2

lemma cleanMembers_mergeKeyPath {into : ConfigObject} (hinto : CleanMembers into) {path : Path}
    (hpath : ∀ key ∈ path, isForbiddenConfigKey key = false) {value : ConfigValue}
    (hvalue : Clean value) : CleanMembers (mergeKeyPath into path value) := by
  induction path generalizing into with
  | nil => exact hinto
  | cons key path ih =>
    have hkey := hpath key mem_cons_self
    cases path with
    | nil => exact hinto.bind hkey (clean_mergeValue (fun _ => hinto.ownValue) hvalue)
    | cons key' path =>
      have hchild : CleanMembers (((ownValue into key).bind plain?).getD []) := by
        cases hplain : (ownValue into key).bind plain? with
        | none => exact cleanMembers_nil
        | some members =>
          obtain ⟨existing, hown, hplain⟩ := bind_eq_some_iff.1 hplain
          exact (hinto.ownValue hown).plain? hplain
      refine hinto.bind hkey (clean_object_iff.2 (ih hchild fun key hmem => ?_))
      exact hpath key (mem_cons_of_mem _ hmem)

/-! ### Parsing -/

section Gives

variable {α β : Type} {P : α → Prop} {Q : β → Prop}

/-- What a reader gives, when it gives anything. -/
def Gives (P : α → Prop) (p : Except Halt (α × JsString)) : Prop :=
  ∀ a rest, p = .ok (a, rest) → P a

lemma gives_refuse (message text : JsString) :
    Gives P (refuse message text : Except Halt (α × JsString)) := fun _ _ h => by cases h

lemma gives_ok {a : α} (h : P a) (rest : JsString) :
    Gives P (.ok (a, rest) : Except Halt (α × JsString)) := by
  intro a' rest' heq
  cases heq
  exact h

lemma Gives.bind {p : Except Halt (α × JsString)} {f : α × JsString → Except Halt (β × JsString)}
    (h : Gives P p) (hf : ∀ a rest, P a → Gives Q (f (a, rest))) : Gives Q (p >>= f) := by
  intro b rest heq
  obtain ⟨⟨a, rest'⟩, hp, hrest⟩ := bind_eq_ok heq
  exact hf a rest' (h a rest' hp) b rest hrest

lemma gives_true (p : Except Halt (α × JsString)) : Gives (fun _ => True) p :=
  fun _ _ _ => trivial

lemma Gives.ite {c : Prop} [Decidable c] {p q : Except Halt (α × JsString)} (hp : Gives P p)
    (hq : Gives P q) : Gives P (if c then p else q) := by
  split_ifs
  · exact hp
  · exact hq

end Gives

variable (text : JsString) {options : ResolveLayerOptions} {tree : ConfigObject}

lemma gives_parseKeySegment :
    Gives (fun key => isForbiddenConfigKey key = false) (parseKeySegment text) := by
  refine (gives_true _).bind fun segment rest _ => ?_
  dsimp only
  split_ifs with hkey
  · exact gives_refuse _ _
  · exact gives_ok (P := fun key => isForbiddenConfigKey key = false) (Bool.eq_false_iff.2 hkey) rest

lemma gives_parseKeySegments (fuel : ℕ) (text : JsString) :
    Gives (fun path => ∀ key ∈ path, isForbiddenConfigKey key = false)
      (parseKeySegments fuel text) := by
  have hnil : ∀ key ∈ ([] : Path), isForbiddenConfigKey key = false :=
    fun _ h => absurd h not_mem_nil
  induction fuel generalizing text with
  | zero => exact gives_ok hnil _
  | succ fuel ih =>
    cases text with
    | nil => exact gives_ok hnil _
    | cons c rest =>
      refine Gives.ite ?_ (gives_ok hnil _)
      refine (gives_parseKeySegment rest).bind fun segment rest hsegment => ?_
      refine (ih rest).bind fun segments rest hsegments => gives_ok ?_ rest
      exact forall_mem_cons.2 ⟨hsegment, hsegments⟩

lemma gives_parseKeyPath :
    Gives (fun path => ∀ key ∈ path, isForbiddenConfigKey key = false) (parseKeyPath text) := by
  refine (gives_parseKeySegment text).bind fun segment rest hsegment => ?_
  refine (gives_parseKeySegments _ rest).bind fun segments rest hsegments => gives_ok ?_ rest
  exact forall_mem_cons.2 ⟨hsegment, hsegments⟩

lemma clean_toValue (s : Substitution) : Clean s.toValue :=
  .object (by simp [isForbiddenConfigKey]; decide) fun member hmem => by
    simp only [List.mem_cons, List.not_mem_nil, or_false] at hmem
    obtain rfl | rfl | rfl := hmem <;> exact .simple rfl

lemma clean_literalOf (raw : JsString) : Clean (literalOf raw) := by
  rw [literalOf]
  split_ifs
  · exact .simple rfl
  · exact .simple rfl
  · exact .simple rfl
  · split
    · exact .simple rfl
    · exact .simple rfl

lemma clean_concatenation (folded : List (JsString ⊕ Substitution)) :
    Clean (concatenation folded) := by
  refine .object (by simp [isForbiddenConfigKey]; decide) fun member hmem => ?_
  simp only [List.mem_cons, List.not_mem_nil, or_false] at hmem
  obtain rfl | rfl | rfl := hmem
  · exact .simple rfl
  · refine .list fun item hitem => ?_
    obtain ⟨piece, -, rfl⟩ := List.mem_map.1 hitem
    cases piece with
    | inl text => exact .simple rfl
    | inr s => exact clean_toValue s
  · exact .simple rfl

lemma clean_valueOfPieces (pieces : List Piece) : Clean (valueOfPieces pieces) := by
  rw [valueOfPieces.eq_def]
  split
  · exact clean_toValue _
  · exact clean_literalOf _
  · exact .simple rfl
  · dsimp only
    split_ifs
    · exact clean_concatenation _
    · exact .simple rfl

lemma gives_parseSimpleValue : Gives Clean (parseSimpleValue text) := by
  intro value rest h
  rw [parseSimpleValue] at h
  cases hpieces : parsePieces (text.length + 1) text with
  | error halt =>
    rw [hpieces] at h
    cases h
  | ok r =>
    rw [hpieces] at h
    cases h
    exact clean_valueOfPieces r.1

lemma gives_refuseConcatenationAfter {value : ConfigValue} (h : Clean value)
    (what text : JsString) : Gives Clean (refuseConcatenationAfter value what text) := by
  exact Gives.ite (gives_refuse _ _) (gives_ok h text)

lemma gives_expectBrace {α : Type} {P : α → Prop} {result : α} (h : P result) (text : JsString) :
    Gives P (expectBrace result text) := by
  exact Gives.ite (gives_ok h _) (gives_refuse _ _)

/-- What the three functions give, with some fuel. -/
structure ParsesClean (fuel : ℕ) : Prop where
  fields (braced : Bool) (out : ConfigObject) (text : JsString) :
    CleanMembers out → Gives CleanMembers (parseFields fuel braced out text)
  value (text : JsString) : Gives Clean (parseValue fuel text)
  items (text : JsString) : Gives (fun items => ∀ item ∈ items, Clean item) (parseItems fuel text)

section Step

variable {fuel : ℕ} (ih : ParsesClean fuel)
include ih

lemma ParsesClean.fields_succ (braced : Bool) (out : ConfigObject) (text : JsString)
    (hout : CleanMembers out) : Gives CleanMembers (parseFields (fuel + 1) braced out text) := by
  refine Gives.ite (Gives.ite (gives_refuse _ _) (gives_ok hout _)) ?_
  refine Gives.ite (gives_ok hout _) ?_
  refine (gives_parseKeyPath _).bind fun keyPath rest hkeyPath => ?_
  have hvalue : ∀ text' : JsString, Gives CleanMembers (parseValue fuel text' >>= fun r =>
      parseFields fuel braced (mergeKeyPath out keyPath r.1) (skipSeparator r.2)) := fun text' =>
    (ih.value text').bind fun value rest hclean =>
      ih.fields braced _ _ (cleanMembers_mergeKeyPath hout hkeyPath hclean)
  refine Gives.ite (Gives.ite (ih.fields braced _ _ hout) (hvalue _)) ?_
  exact Gives.ite (hvalue _) (Gives.ite (gives_refuse _ _) (gives_refuse _ _))

lemma ParsesClean.value_succ (text : JsString) : Gives Clean (parseValue (fuel + 1) text) := by
  refine Gives.ite (gives_refuse _ _) ?_
  refine Gives.ite ?_ (Gives.ite ?_ (gives_parseSimpleValue _))
  · refine (ih.fields true [] _ cleanMembers_nil).bind fun members rest hmembers => ?_
    exact (gives_expectBrace hmembers rest).bind fun members rest hmembers =>
      gives_refuseConcatenationAfter (clean_object_iff.2 hmembers) _ rest
  · refine (ih.items _).bind fun items rest hitems => ?_
    exact gives_refuseConcatenationAfter (.list hitems) _ rest

lemma ParsesClean.items_succ (text : JsString) :
    Gives (fun items => ∀ item ∈ items, Clean item) (parseItems (fuel + 1) text) := by
  refine Gives.ite (gives_ok (fun _ h => absurd h not_mem_nil) _) ?_
  refine (ih.value _).bind fun item rest hitem => ?_
  refine (ih.items _).bind fun items rest hitems => gives_ok ?_ rest
  exact forall_mem_cons.2 ⟨hitem, hitems⟩

end Step

lemma parsesClean (fuel : ℕ) : ParsesClean fuel := by
  induction fuel with
  | zero =>
    refine ⟨fun _ _ _ _ _ _ h => ?_, fun _ _ _ h => ?_, fun _ _ _ h => ?_⟩ <;> cases h
  | succ fuel ih => exact ⟨ih.fields_succ, ih.value_succ, ih.items_succ⟩

lemma cleanMembers_parseHocon {source : JsString} (h : parseHocon source = .ok tree) :
    CleanMembers tree := by
  have hroot : Gives CleanMembers (parseRootObject source) := by
    refine Gives.ite ?_ ((parsesClean _).fields false [] _ cleanMembers_nil)
    refine ((parsesClean _).fields true [] _ cleanMembers_nil).bind fun result rest hresult => ?_
    exact gives_expectBrace hresult rest
  obtain ⟨⟨result, rest⟩, hresult, h⟩ := bind_eq_ok h
  dsimp only at h
  split_ifs at h
  · cases h
    exact hroot tree rest hresult
  · cases h

/-! ### Resolving -/

lemma Clean.readData {value part : ConfigValue} (h : Clean value) {rest : Path}
    (hread : readData value rest = some part) : Clean part := by
  induction rest generalizing value with
  | nil =>
    cases value <;> cases hread <;> exact h
  | cons segment rest ih =>
    rw [Config.readData] at hread
    split_ifs at hread
    cases hchild : value.plain?.bind (OrderedMap.lookup segment) with
    | none =>
      rw [hchild] at hread
      cases hread
    | some child =>
      rw [hchild] at hread
      obtain ⟨members, hplain, hlook⟩ := bind_eq_some_iff.1 hchild
      exact ih ((h.plain? hplain).lookup hlook) hread

mutual

theorem clean_withoutForbiddenKeys : ∀ value : ConfigValue, Clean (withoutForbiddenKeys value)
  | .list items => clean_list_iff.2 (clean_itemsWithout items)
  | .object _ members => clean_object_iff.2 (cleanMembers_membersWithout members)
  | .undefined => .simple rfl
  | .host _ _ => .simple rfl
  | .null => .simple rfl
  | .bool _ => .simple rfl
  | .num x => .simple (by rcases x with _ | _ | _ <;> rfl)
  | .str _ => .simple rfl

theorem clean_itemsWithout : ∀ items : List ConfigValue, ∀ item ∈ itemsWithout items, Clean item
  | [] => fun _ h => absurd h not_mem_nil
  | item :: items =>
    forall_mem_cons.2 ⟨clean_withoutForbiddenKeys item, clean_itemsWithout items⟩

theorem cleanMembers_membersWithout : ∀ members : List (JsString × ConfigValue),
    CleanMembers (membersWithout members)
  | [] => cleanMembers_nil
  | (key, entry) :: rest => by
    have hrest := cleanMembers_membersWithout rest
    rw [membersWithout]
    split_ifs with hkey
    · exact hrest
    · exact cleanMembers_cons.2
        ⟨⟨Bool.eq_false_iff.2 hkey, clean_withoutForbiddenKeys entry⟩, hrest⟩

end

lemma clean_environmentValueOf (raw : JsString) : Clean (environmentValueOf raw) := by
  rw [environmentValueOf]
  split
  · exact clean_withoutForbiddenKeys _
  · exact .simple rfl

/-- Resolving filters what it walks over; what it reads elsewhere is filtered already. -/
lemma keeps_clean (h : ∀ fallback, options.fallback = some fallback → CleanMembers fallback) :
    Keeps options Clean where
  simple _ hvalue := .simple hvalue
  list _ hitems := .list hitems
  object _ hmembers := clean_object_iff.2 hmembers
  inside _ _ _ hvalue hread := hvalue.readData hread
  answer := clean_environmentValueOf
  fallback target value hvalue := by
    rw [lookupFallback] at hvalue
    cases hfound : options.fallback.bind fun fallback =>
        readData (.object .plain fallback) target with
    | none =>
      rw [hfound] at hvalue
      cases hvalue
    | some found =>
      obtain ⟨fallback, hfallback, hread⟩ := bind_eq_some_iff.1 hfound
      have hclean : Clean (.object .plain fallback) := clean_object_iff.2 (h fallback hfallback)
      rw [hfound] at hvalue
      dsimp only at hvalue
      split at hvalue <;> cases hvalue <;> exact hclean.readData hread

lemma cleanMembers_resolveLayer
    (hfallback : ∀ fallback, options.fallback = some fallback → CleanMembers fallback)
    {layer : ResolvedLayer} (h : resolveLayer tree options = .ok layer) :
    CleanMembers layer.tree := by
  obtain ⟨resolved, hresult, rfl⟩ := (resolveLayer_eq_ok_iff tree options).1 h
  have hkeeps := keeps_clean hfallback
  have hholds := hresult.meets (meets_fieldBody hkeeps) (meets_resolveRoot hkeeps)
  cases hvalue : resolved.value with
  | none => exact cleanMembers_nil
  | some value =>
    have hclean := hholds value hvalue
    cases value with
    | object prototype members => exact clean_object_iff.1 hclean
    | _ => exact cleanMembers_nil

/-! ### Copying -/

/-- What `cloneTree` copies one by one: the values, and the items of the lists. -/
inductive Copied : ConfigValue → ConfigObject → Prop
  | value {key : JsString} {value : ConfigValue} {members : ConfigObject}
      (hmem : (key, value) ∈ members) (hkey : isForbiddenConfigKey key = false)
      (hlist : ∀ items, value ≠ .list items) : Copied value members
  | item {key : JsString} {items : List ConfigValue} {item : ConfigValue} {members : ConfigObject}
      (hmem : (key, .list items) ∈ members) (hkey : isForbiddenConfigKey key = false)
      (hitem : item ∈ items) : Copied item members

/-- What a copy takes over as it is: what is copied and is no plain object. -/
inductive TakenOver : ConfigValue → ConfigObject → Prop
  | here {value : ConfigValue} {members : ConfigObject} (h : Copied value members)
      (hplain : value.plain? = none) : TakenOver value members
  | inside {part value : ConfigValue} {members inner : ConfigObject} (h : Copied value members)
      (hplain : value.plain? = some inner) (hpart : TakenOver part inner) : TakenOver part members

/-- The copy of a value comes out clean. -/
def CopiesClean (value : ConfigValue) : Prop :=
  match value.plain? with
  | none => Clean value
  | some inner => ∀ part, TakenOver part inner → Clean part

lemma takenOver_clean_iff {members : ConfigObject} :
    (∀ part, TakenOver part members → Clean part) ↔
      ∀ value, Copied value members → CopiesClean value := by
  constructor
  · intro h value hvalue
    rw [CopiesClean]
    cases hplain : value.plain? with
    | none => exact h value (.here hvalue hplain)
    | some inner => exact fun part hpart => h part (.inside hvalue hplain hpart)
  · rintro h part (⟨hpart, hplain⟩ | ⟨hvalue, hplain, hpart⟩)
    · have hclean := h part hpart
      rwa [CopiesClean, hplain] at hclean
    · have hclean := h _ hvalue
      rw [CopiesClean, hplain] at hclean
      exact hclean part hpart

variable {value : ConfigValue}

lemma copied_cons_iff {key : JsString} {copied : ConfigValue} {rest : ConfigObject} :
    Copied copied ((key, value) :: rest) ↔
      (isForbiddenConfigKey key = false ∧
        ((copied = value ∧ ∀ items, value ≠ .list items) ∨ ∃ items, value = .list items ∧ copied ∈ items)) ∨
      Copied copied rest := by
  constructor
  · rintro (⟨hmem, hkey, hlist⟩ | ⟨hmem, hkey, hitem⟩)
    · rcases mem_cons.1 hmem with h | h
      · cases h
        exact .inl ⟨hkey, .inl ⟨rfl, hlist⟩⟩
      · exact .inr (.value h hkey hlist)
    · rcases mem_cons.1 hmem with h | h
      · cases h
        exact .inl ⟨hkey, .inr ⟨_, rfl, hitem⟩⟩
      · exact .inr (.item h hkey hitem)
  · rintro (⟨hkey, ⟨rfl, hlist⟩ | ⟨items, rfl, hitem⟩⟩ | h)
    · exact .value mem_cons_self hkey hlist
    · exact .item mem_cons_self hkey hitem
    · cases h with
      | value hmem hkey hlist => exact .value (mem_cons_of_mem _ hmem) hkey hlist
      | item hmem hkey hitem => exact .item (mem_cons_of_mem _ hmem) hkey hitem

lemma copiesClean_of_members?_eq_none (h : value.members? = none) :
    CopiesClean value ↔ Clean value := by
  have hplain : value.plain? = none := by
    rw [plain?, h, ite_self]
  rw [CopiesClean, hplain]

lemma refuseNestedInstance_then {path : Option Path} {β : Type} {x : Except JsString β} {b : β}
    (h : (refuseNestedInstance value path >>= fun _ => x) = .ok b) : x = .ok b := by
  obtain ⟨_, _, hx⟩ := bind_eq_ok h
  exact hx

mutual

theorem clean_cloneItem_iff (path : Option Path) :
    ∀ {value copy : ConfigValue}, cloneItem path value = .ok copy → (Clean copy ↔ CopiesClean value)
  | .object prototype members, copy, h => by
    have h := refuseNestedInstance_then h
    cases hplain : (ConfigValue.object prototype members).plain? with
    | none =>
      rw [if_neg (by rw [isPlainObject, hplain]; exact Bool.false_ne_true)] at h
      cases h
      rw [CopiesClean, hplain]
    | some inner =>
      rw [if_pos (by rw [isPlainObject, hplain]; rfl)] at h
      have hinner := members?_of_plain? hplain
      cases hinner
      obtain ⟨copies, hcopies, rfl⟩ := map_eq_ok h
      rw [clean_object_iff, cleanMembers_cloneTree_iff path hcopies, CopiesClean, hplain]
      exact takenOver_clean_iff.symm
  | .list items, copy, h => by
    cases h
    exact (copiesClean_of_members?_eq_none rfl).symm
  | .undefined, copy, h => by
    cases h
    exact (copiesClean_of_members?_eq_none rfl).symm
  | .host _ _, copy, h => by
    cases h
    exact (copiesClean_of_members?_eq_none rfl).symm
  | .null, copy, h => by
    cases h
    exact (copiesClean_of_members?_eq_none rfl).symm
  | .bool _, copy, h => by
    cases h
    exact (copiesClean_of_members?_eq_none rfl).symm
  | .num _, copy, h => by
    cases h
    exact (copiesClean_of_members?_eq_none rfl).symm
  | .str _, copy, h => by
    cases h
    exact (copiesClean_of_members?_eq_none rfl).symm

theorem clean_cloneItems_iff (path : Option Path) :
    ∀ {items copies : List ConfigValue}, cloneItems path items = .ok copies →
      ((∀ copy ∈ copies, Clean copy) ↔ ∀ item ∈ items, CopiesClean item)
  | [], copies, h => by
    cases h
    simp
  | item :: items, copies, h => by
    obtain ⟨copy, hcopy, h⟩ := bind_eq_ok h
    obtain ⟨copies', hcopies', h⟩ := bind_eq_ok h
    cases h
    rw [forall_mem_cons, forall_mem_cons, clean_cloneItem_iff path hcopy,
      clean_cloneItems_iff path hcopies']

theorem cleanMembers_cloneTree_iff (path : Option Path) :
    ∀ {members out : List (JsString × ConfigValue)}, cloneTree path members = .ok out →
      (CleanMembers out ↔ ∀ value, Copied value members → CopiesClean value)
  | [], out, h => by
    cases h
    refine iff_of_true cleanMembers_nil fun value hvalue => ?_
    cases hvalue with
    | value hmem => cases hmem
    | item hmem => cases hmem
  | (key, value) :: rest, out, h => by
    simp only [copied_cons_iff]
    rw [cloneTree.eq_def] at h
    dsimp only at h
    split_ifs at h with hkey
    · rw [cleanMembers_cloneTree_iff path h]
      simp [hkey]
    · have hkey' := Bool.eq_false_iff.2 hkey
      obtain ⟨copy, hcopy, h⟩ := Outcome.bind_eq_ok h
      obtain ⟨rest', hrest', h⟩ := Outcome.bind_eq_ok h
      cases h
      have hvalue : Clean copy ↔ ∀ copied, (copied = value ∧ ∀ items, value ≠ .list items) ∨
          (∃ items, value = .list items ∧ copied ∈ items) → CopiesClean copied := by
        cases value with
        | list items =>
          obtain ⟨copies, hcopies, rfl⟩ := Outcome.map_eq_ok hcopy
          rw [clean_list_iff, clean_cloneItems_iff _ hcopies]
          simp
        | _ =>
          rw [clean_cloneItem_iff _ hcopy]
          simp
      rw [cleanMembers_cons, cleanMembers_cloneTree_iff path hrest', hvalue]
      simp only [hkey', true_and, or_imp, forall_and]

end

end ActorTs.Config
