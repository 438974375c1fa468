import ActorTs.Config.Substitutions

/-!
# The walk over a value

The walk goes into the parts of a value: items, members, and the values that optional substitutions
and concatenations replaced. The fields that a resolution asks for are fields of the tree, so it
ends.
-/

open List Option OrderedMap

namespace ActorTs.Config

open ConfigValue Resolved Demand

lemma isPart_of_previous {members : ConfigObject} {previous : ConfigValue} {prototype : Prototype}
    (h : (referenceOf members).previous = some previous) :
    IsPart previous (.object prototype members) := isPart_of_ownValue h

variable {pieces : List (JsString ⊕ Reference)}

/-- What a piece of a concatenation replaced lies inside the concatenation. -/
lemma isPart_of_piece {members : ConfigObject} {reference : Reference} {previous : ConfigValue}
    {prototype : Prototype} (h : piecesOf members = some pieces) (hmem : .inr reference ∈ pieces)
    (hprevious : reference.previous = some previous) :
    IsPart previous (.object prototype members) := by
  rw [piecesOf] at h
  split at h
  · rename_i items hitems
    cases h
    obtain ⟨item, hitem, hpiece⟩ := mem_map.1 hmem
    have hpart : IsPart item (.object prototype members) :=
      (IsPart.item hitem).trans (isPart_of_ownValue hitems)
    cases item with
    | object prototype' members' =>
      cases hpiece
      exact (isPart_of_previous hprevious).trans hpart
    | str text => cases hpiece
    | _ =>
      cases hpiece
      cases hprevious
  · cases h
    cases mem_singleton.1 hmem
  · cases h

section Congr

variable {root : ConfigObject} {options : ResolveLayerOptions} {resolve resolve' : Resolve}
  {members : ConfigObject}

lemma resolvePrevious_congr {previous : Option ConfigValue}
    (h : ∀ value, previous = some value → resolve value = resolve' value) (path : Path) :
    resolvePrevious resolve previous path = resolvePrevious resolve' previous path := by
  cases previous with
  | none => rfl
  | some value => exact congrFun (congrFun (h value rfl) path) false

lemma resolveSubstitution_congr {reference : Reference}
    (h : ∀ previous, reference.previous = some previous → resolve previous = resolve' previous)
    (path : Path) (reading : EnvironmentReading) :
    resolveSubstitution root options resolve reference path reading =
      resolveSubstitution root options resolve' reference path reading := by
  simp only [resolveSubstitution, resolveOutside, resolvePrevious_congr h path]

lemma joinPieces_congr (h : ∀ reference, .inr reference ∈ pieces → ∀ previous,
      reference.previous = some previous → resolve previous = resolve' previous) (path : Path)
    (joined : Joined) :
    joinPieces root options resolve path joined pieces =
      joinPieces root options resolve' path joined pieces := by
  induction pieces generalizing joined with
  | nil => rfl
  | cons piece pieces ih =>
    have ih' := fun joined => ih (fun reference hmem => h reference (mem_cons_of_mem _ hmem)) joined
    cases piece with
    | inl text => exact ih' _
    | inr reference =>
      rw [joinPieces, joinPieces]
      rw [resolveSubstitution_congr (h reference mem_cons_self)]
      simp only [ih']

lemma resolveConcatenation_congr {prototype : Prototype}
    (h : ∀ part, IsPart part (.object prototype members) → resolve part = resolve' part)
    (path : Path) : resolveConcatenation root options resolve members path =
      resolveConcatenation root options resolve' members path := by
  rw [resolveConcatenation, resolveConcatenation]
  cases hpieces : piecesOf members with
  | none => rfl
  | some pieces =>
    have hjoin : joinPieces root options resolve path ⟨[], false, ∅⟩ pieces =
        joinPieces root options resolve' path ⟨[], false, ∅⟩ pieces :=
      joinPieces_congr (fun reference hmem previous hprevious =>
        h previous (isPart_of_piece hpieces hmem hprevious)) path _
    dsimp only
    rw [hjoin, resolvePrevious_congr fun value hprevious => h value (isPart_of_ownValue hprevious)]

lemma resolveItems_congr {items : List ConfigValue}
    (h : ∀ item ∈ items, resolve item = resolve' item) (path : Path) (out : List ConfigValue)
    (names : Finset JsString) :
    resolveItems resolve path out names items = resolveItems resolve' path out names items := by
  induction items generalizing out names with
  | nil => rfl
  | cons item items ih =>
    have ih' := fun out names => ih (fun item hmem => h item (mem_cons_of_mem _ hmem)) out names
    rw [resolveItems, resolveItems, h item mem_cons_self]
    simp only [ih']

lemma resolveMembers_congr (h : ∀ member ∈ members, resolve member.2 = resolve' member.2)
    (path : Path) (addressable : Bool) (out : ConfigObject) (provenance : Provenance) :
    resolveMembers resolve path addressable out provenance members =
      resolveMembers resolve' path addressable out provenance members := by
  induction members generalizing out provenance with
  | nil => rfl
  | cons member members ih =>
    obtain ⟨key, child⟩ := member
    have ih' := fun out provenance =>
      ih (fun member hmem => h member (mem_cons_of_mem _ hmem)) out provenance
    have hchild : resolve child = resolve' child := h (key, child) mem_cons_self
    simp only [resolveMembers, resolveMember, hchild, ih']

lemma resolveStep_congr {node : ConfigValue}
    (h : ∀ part, IsPart part node → resolve part = resolve' part) :
    resolveStep root options resolve node = resolveStep root options resolve' node := by
  funext path addressable
  cases node with
  | list items =>
    rw [resolveStep, resolveStep, resolveList, resolveList]
    rw [resolveItems_congr fun item hmem => h item (.item hmem)]
  | object prototype members =>
    simp only [resolveStep, resolveObject]
    rw [resolveSubstitution_congr fun previous hprevious => h previous (isPart_of_previous hprevious),
      resolveConcatenation_congr h,
      resolveMembers_congr fun member hmem =>
        h member.2 (.member (show (member.1, member.2) ∈ members from hmem))]
  | _ => rfl

end Congr

section Walk

variable (root : ConfigObject) (options : ResolveLayerOptions)

lemma resolveWithin_of_le {node : ConfigValue} {depth : ℕ} (h : node.height ≤ depth) :
    resolveWithin root options depth node = resolveNode root options node := by
  induction node using partsInduction generalizing depth with
  | h node ih =>
  have hpos : ∃ height, node.height = height + 1 := by
    cases node with
    | list items => exact ⟨_, ConfigValue.height.eq_1 items⟩
    | object prototype members => exact ⟨_, ConfigValue.height.eq_2 prototype members⟩
    | _ => exact ⟨0, rfl⟩
  obtain ⟨height, hheight⟩ := hpos
  obtain ⟨depth, rfl⟩ : ∃ depth', depth = depth' + 1 := ⟨depth - 1, by omega⟩
  rw [resolveNode, hheight, resolveWithin, resolveWithin]
  refine resolveStep_congr fun part hpart => ?_
  have hlt := hpart.height_lt
  rw [ih part hpart (by omega), ih part hpart (by omega)]

lemma resolveNode_eq (node : ConfigValue) :
    resolveNode root options node = resolveStep root options (resolveNode root options) node := by
  rw [← resolveWithin_of_le root options (Nat.le_succ node.height), resolveWithin]
  exact resolveStep_congr fun part hpart => resolveWithin_of_le root options hpart.height_lt.le

end Walk

/-- A property of values that resolving, reading and copying keep. -/
structure Keeps (options : ResolveLayerOptions) (V : ConfigValue → Prop) : Prop where
  simple (value : ConfigValue) : value.text?.isSome → V value
  list (items : List ConfigValue) : (∀ item ∈ items, V item) → V (.list items)
  object (members : ConfigObject) :
    (∀ member ∈ members, isForbiddenConfigKey member.1 = false ∧ V member.2) →
      V (.object .plain members)
  inside (value part : ConfigValue) (rest : Path) :
    V value → readData value rest = some part → V part
  fallback (target : Path) (value : ConfigValue) :
    (lookupFallback options target).value = some value → V value
  answer (raw : JsString) : V (environmentValueOf raw)

def Resolved.Holds (V : ConfigValue → Prop) (resolved : Resolved) : Prop :=
  ∀ value, resolved.value = some value → V value

section Meets

variable {root : ConfigObject} {options : ResolveLayerOptions} {V : ConfigValue → Prop}
  (hV : Keeps options V)

/-- A computation that asks only for fields of the tree. -/
abbrev MeetsFields (root : ConfigObject) (V : ConfigValue → Prop) {β : Type} (P : β → Prop)
    (p : Demand Path JsString Resolved β) : Prop :=
  Demand.Meets (fieldPaths (.object .plain root)) (Resolved.Holds V) P p

lemma holds_nothing : nothing.Holds V := fun _ h => by cases h

variable {value : ConfigValue} {members : ConfigObject} {path : Path}

lemma mem_fieldPathsOf {key : JsString} (h : (key, value) ∈ members)
    (hpath : path ∈ fieldPaths value) : key :: path ∈ fieldPathsOf members := by
  induction members with
  | nil => cases h
  | cons member members ih =>
    rcases mem_cons.1 h with h | h
    · cases h
      exact mem_append_left _ (mem_map_of_mem hpath)
    · exact mem_append_right _ (ih h)

variable {node : ConfigValue}

lemma mem_fieldPaths (h : valueAt node path = some value) : path ∈ fieldPaths node := by
  induction path generalizing node with
  | nil => cases node <;> simp [fieldPaths]
  | cons key path ih =>
    rw [valueAt, bind_eq_some_iff] at h
    obtain ⟨child, hchild, hpath⟩ := h
    cases node with
    | object prototype members =>
      exact mem_cons_of_mem _ (mem_fieldPathsOf (mem_of_lookup_eq_some hchild) (ih hpath))
    | _ => cases hchild

lemma valueAt_concat {child : ConfigValue} {key : JsString} (h : valueAt node path = some value)
    (hchild : value.members?.bind (OrderedMap.lookup key) = some child) :
    valueAt node (path ++ [key]) = some child := by
  induction path generalizing node with
  | nil =>
    cases h
    rw [nil_append, valueAt, hchild]
    rfl
  | cons key' path ih =>
    rw [valueAt, bind_eq_some_iff] at h
    obtain ⟨node', hnode', hpath⟩ := h
    rw [cons_append, valueAt, hnode']
    exact ih hpath

lemma meets_resolveField (h : valueAt (.object .plain root) path = some node) :
    MeetsFields root V (Holds V) (resolveField path) :=
  ⟨mem_fieldPaths h, fun _ ha => ha⟩

include hV

lemma holds_within {resolved : Resolved} (h : resolved.Holds V) (rest : Path) :
    (within resolved rest).Holds V := by
  intro value hvalue
  rw [within] at hvalue
  cases hpart : resolved.value.bind fun value => readData value rest with
  | none =>
    rw [hpart] at hvalue
    cases hvalue
  | some part =>
    rw [hpart] at hvalue
    cases hvalue
    obtain ⟨whole, hwhole, hread⟩ := bind_eq_some_iff.1 hpart
    exact hV.inside whole _ rest (h whole hwhole) hread

lemma meets_lookupFrom {before : Path} (h : valueAt (.object .plain root) before = some node)
    (rest : Path) : MeetsFields root V (Holds V) (lookupFrom node before rest) := by
  induction rest generalizing node before with
  | nil => exact meets_resolveField h
  | cons segment rest ih =>
    rw [lookupFrom]
    split_ifs
    · exact holds_nothing
    · exact (meets_resolveField h).bind fun resolved hresolved => holds_within hV hresolved _
    · cases hchild : node.plain?.bind (OrderedMap.lookup segment) with
      | none => exact holds_nothing
      | some child =>
        obtain ⟨members, hplain, hlook⟩ := bind_eq_some_iff.1 hchild
        have hmembers := members?_of_plain? hplain
        exact ih (valueAt_concat h (by rw [hmembers]; exact hlook))

/-- The walk of the parts, where it keeps what the walk of the whole has to keep. -/
def MeetsParts (root : ConfigObject) (V : ConfigValue → Prop) (resolve : Resolve)
    (parts : ConfigValue → Prop) : Prop :=
  ∀ part, parts part → ∀ path, MeetsFields root V (Resolved.Holds V) (resolve part path false)

variable {resolve : Resolve}

omit hV in
lemma meets_resolvePrevious {previous : Option ConfigValue}
    (h : MeetsParts root V resolve fun part => previous = some part) (path : Path) :
    MeetsFields root V (Holds V) (resolvePrevious resolve previous path) := by
  cases previous with
  | none => exact holds_nothing
  | some part => exact h part rfl path

lemma meets_resolveSubstitution {reference : Reference}
    (h : MeetsParts root V resolve fun part => reference.previous = some part) (path : Path)
    (reading : EnvironmentReading) :
    MeetsFields root V (Holds V)
      (resolveSubstitution root options resolve reference path reading) := by
  rw [resolveSubstitution]
  cases reference.path with
  | none => exact meets_fail _
  | some name =>
    have htree : MeetsFields root V (Holds V) (lookupOther root (name.splitOn 0x2E) path) := by
      rw [lookupOther]
      split_ifs
      · exact holds_nothing
      · exact meets_lookupFrom hV rfl _
    refine htree.bind fun fromTree hfromTree => ?_
    split_ifs
    · exact hfromTree
    · exact fun value hvalue => hV.fallback _ value hvalue
    · rw [resolveOutside]
      split
      · rename_i source raw hanswer
        intro value hvalue
        split_ifs at hvalue <;> cases hvalue
        · exact hV.simple _ rfl
        · exact hV.answer raw
      · split_ifs
        · exact meets_resolvePrevious h path
        · exact meets_fail _

lemma meets_joinPieces (h : ∀ reference, .inr reference ∈ pieces →
      MeetsParts root V resolve fun part => reference.previous = some part) (path : Path)
    (joined : Joined) :
    MeetsFields root V (fun _ => True) (joinPieces root options resolve path joined pieces) := by
  induction pieces generalizing joined with
  | nil => trivial
  | cons piece pieces ih =>
    have ih' := ih fun reference hmem => h reference (mem_cons_of_mem _ hmem)
    cases piece with
    | inl text => exact ih' _
    | inr reference =>
      have hpiece := meets_resolveSubstitution hV (h reference mem_cons_self) path .text
      refine hpiece.bind fun resolved _ => ?_
      cases resolved.value with
      | none => exact ih' joined
      | some value =>
        dsimp only
        cases value.text? with
        | none => exact meets_fail _
        | some text => exact ih' _

variable {prototype : Prototype}

lemma meets_resolveConcatenation
    (h : MeetsParts root V resolve fun part => IsPart part (.object prototype members))
    (path : Path) :
    MeetsFields root V (Holds V) (resolveConcatenation root options resolve members path) := by
  rw [resolveConcatenation]
  cases hpieces : piecesOf members with
  | none => exact meets_fail _
  | some pieces =>
    have hpreviouses : ∀ reference, .inr reference ∈ pieces →
        MeetsParts root V resolve fun part => reference.previous = some part :=
      fun reference hmem part hprevious => h part (isPart_of_piece hpieces hmem hprevious)
    have hjoin := meets_joinPieces hV hpreviouses path ⟨[], false, ∅⟩
    refine hjoin.bind fun joined _ => ?_
    split_ifs
    · intro value hvalue
      cases hvalue
      exact hV.simple _ rfl
    · exact meets_resolvePrevious (fun part hpart => h part (isPart_of_ownValue hpart)) path

omit hV in
lemma meets_resolveItems {items : List ConfigValue}
    (h : MeetsParts root V resolve (· ∈ items)) (path : Path) {out : List ConfigValue}
    (hout : ∀ item ∈ out, V item) (names : Finset JsString) :
    MeetsFields root V (fun r => ∀ item ∈ r.1, V item)
      (resolveItems resolve path out names items) := by
  induction items generalizing out names with
  | nil => exact hout
  | cons item items ih =>
    have ih' := fun {out} => @ih (fun part hpart => h part (mem_cons_of_mem _ hpart)) out
    refine (h item mem_cons_self path).bind fun resolved hresolved => ?_
    cases hvalue : resolved.value with
    | none => exact ih' hout names
    | some value =>
      refine ih' (fun item hitem => ?_) _
      rcases mem_append.1 hitem with hitem | hitem
      · exact hout item hitem
      · rw [mem_singleton.1 hitem]
        exact hresolved value hvalue

variable {addressable : Bool}

omit hV in
lemma meets_resolveMembers (h : ∀ member ∈ members, MeetsFields root V (Holds V)
      (resolveMember resolve member.2 (path ++ [member.1]) addressable)) {out : ConfigObject}
    (hout : ∀ member ∈ out, isForbiddenConfigKey member.1 = false ∧ V member.2)
    (provenance : Provenance) :
    MeetsFields root V (fun r => ∀ member ∈ r.1, isForbiddenConfigKey member.1 = false ∧ V member.2)
      (resolveMembers resolve path addressable out provenance members) := by
  induction members generalizing out provenance with
  | nil => exact hout
  | cons member members ih =>
    obtain ⟨key, child⟩ := member
    have ih' := fun {out} => @ih (fun member hmem => h member (mem_cons_of_mem _ hmem)) out
    rw [resolveMembers]
    split_ifs with hkey
    · exact ih' hout provenance
    · refine (h (key, child) mem_cons_self).bind fun resolved hresolved => ?_
      cases hvalue : resolved.value with
      | none => exact ih' hout provenance
      | some value =>
        refine ih' (fun member hmem => ?_) _
        rcases eq_or_mem_of_mem_bind hmem with rfl | hmem
        · exact ⟨Bool.eq_false_iff.2 hkey, hresolved value hvalue⟩
        · exact hout member hmem

/-- The fields of a value are fields of the tree, where they are resolved as such. -/
def FieldsAt (root : ConfigObject) (members : ConfigObject) (path : Path) (addressable : Bool) :
    Prop :=
  addressable = true → ∀ key child, OrderedMap.lookup key members = some child →
    valueAt (.object .plain root) (path ++ [key]) = some child

omit hV in
lemma meets_resolveMember (hfields : FieldsAt root members path addressable)
    (h : MeetsParts root V resolve fun part => IsPart part (.object prototype members)) :
    ∀ member ∈ members, MeetsFields root V (Holds V)
      (resolveMember resolve member.2 (path ++ [member.1]) addressable) := by
  intro member hmem
  cases addressable with
  | false => exact h member.2 (.member (show (member.1, member.2) ∈ members from hmem)) _
  | true =>
    cases hlook : OrderedMap.lookup member.1 members with
    | some child => exact meets_resolveField (hfields rfl member.1 child hlook)
    | none =>
      have hkey : member.1 ∈ members.map Prod.fst := mem_map_of_mem hmem
      obtain ⟨child, hchild⟩ := exists_lookup_of_mem hkey
      rw [hlook] at hchild
      cases hchild

lemma meets_resolveObject (hfields : FieldsAt root members path addressable)
    (h : MeetsParts root V resolve fun part => IsPart part (.object prototype members)) :
    MeetsFields root V (Holds V) (resolveObject resolve members path addressable) := by
  have hnone : ∀ member ∈ ([] : ConfigObject), isForbiddenConfigKey member.1 = false ∧ V member.2 :=
    fun _ h => absurd h not_mem_nil
  refine (meets_resolveMembers (meets_resolveMember hfields h) hnone .empty).bind fun r hr => ?_
  intro value hvalue
  cases hvalue
  exact hV.object r.1 hr

lemma meets_resolveNode
    (haddress : addressable = true → valueAt (.object .plain root) path = some node) :
    MeetsFields root V (Holds V) (resolveNode root options node path addressable) := by
  induction node using partsInduction generalizing path addressable with
  | h node ih =>
  have hparts : ∀ parts : ConfigValue → Prop, (∀ part, parts part → IsPart part node) →
      MeetsParts root V (resolveNode root options) parts :=
    fun parts hsub part hpart path => ih part (hsub part hpart) fun h => by cases h
  have hsimple : ∀ value : ConfigValue, value.text?.isSome →
      (⟨some value, .empty⟩ : Resolved).Holds V := by
    intro value hvalue value' h
    cases h
    exact hV.simple value hvalue
  rw [resolveNode_eq]
  cases node with
  | undefined => exact holds_nothing
  | list items =>
    have hnone : ∀ item ∈ ([] : List ConfigValue), V item := fun _ h => absurd h not_mem_nil
    refine (meets_resolveItems (hparts _ fun part hpart => .item hpart) path hnone ∅).bind
      fun r hr => ?_
    intro value hvalue
    cases hvalue
    exact hV.list r.1 hr
  | object prototype members =>
    rw [resolveStep]
    split_ifs
    · exact meets_resolveSubstitution hV (hparts _ fun part hpart => isPart_of_previous hpart)
        path .value
    · exact meets_resolveConcatenation hV (hparts _ fun part hpart => hpart) path
    · refine meets_resolveObject hV (fun h key child hchild => ?_)
        (hparts _ fun part hpart => hpart)
      exact valueAt_concat (haddress h) hchild
  | num x => exact hsimple _ (by rcases x with _ | _ | _ <;> rfl)
  | _ => exact hsimple _ rfl

lemma meets_fieldBody (path : Path) :
    MeetsFields root V (Holds V) (fieldBody root options path) := by
  rw [fieldBody]
  cases hnode : valueAt (.object .plain root) path with
  | none => exact holds_nothing
  | some node => exact meets_resolveNode hV fun _ => hnode

lemma meets_resolveRoot :
    MeetsFields root V (Holds V) (resolveRoot root options) := by
  have hparts : MeetsParts root V (resolveNode root options)
      fun part => IsPart part (.object .plain root) :=
    fun part _ path => meets_resolveNode hV fun h => by cases h
  refine meets_resolveObject hV (fun _ key child hchild => ?_) hparts
  exact bind_eq_some_iff.2 ⟨child, hchild, rfl⟩

end Meets

section Layer

variable (root : ConfigObject) (options : ResolveLayerOptions)

lemma keeps_true : Keeps options fun _ => True :=
  ⟨fun _ _ => trivial, fun _ _ => trivial, fun _ _ => trivial, fun _ _ _ _ _ => trivial,
    fun _ _ _ => trivial, fun _ => trivial⟩

lemma asksIn_of_meets {β : Type} {P : β → Prop} {p : Demand Path JsString Resolved β}
    (h : MeetsFields root (fun _ => True) P p) : p.AsksIn (fieldPaths (.object .plain root)) := by
  induction p with
  | done b => trivial
  | fail e => trivial
  | ask k next ih => exact ⟨h.1, fun a _ => ih a (h.2 a fun _ _ => trivial)⟩

lemma asksIn_fieldBody (path : Path) :
    (fieldBody root options path).AsksIn (fieldPaths (.object .plain root)) :=
  asksIn_of_meets root (meets_fieldBody (keeps_true options) path)

lemma asksIn_resolveRoot :
    (resolveRoot root options).AsksIn (fieldPaths (.object .plain root)) :=
  asksIn_of_meets root (meets_resolveRoot (keeps_true options))

lemma resolveLayer_eq : resolveLayer root options =
    serve (field (fieldBody root options) cycleError
      (fieldPaths (.object .plain root)).length []) (resolveRoot root options) [] >>= fun r =>
        .ok ⟨(r.1.value.bind members?).getD [], r.1.provenance⟩ := rfl

/-- The nesting of fields is bounded by their number, whatever the tree is. -/
lemma resolveLayer_ne_exhausted : resolveLayer root options ≠ .error .exhausted := by
  have hne : serve (field (fieldBody root options) cycleError
      (fieldPaths (.object .plain root)).length []) (resolveRoot root options) [] ≠
        .error .exhausted :=
    serve_ne_exhausted (fun k _ => asksIn_fieldBody root options k) le_rfl
      (asksIn_resolveRoot root options) []
  rw [resolveLayer_eq]
  cases hserve : serve (field (fieldBody root options) cycleError
      (fieldPaths (.object .plain root)).length []) (resolveRoot root options) [] with
  | error fault =>
    rw [hserve] at hne
    exact fun h => hne (congrArg _ (Except.error.inj h))
  | ok r => exact fun h => by cases h

lemma resolveLayer_eq_ok_iff {layer : ResolvedLayer} : resolveLayer root options = .ok layer ↔
    ∃ resolved, HasResult (fieldBody root options) (resolveRoot root options) resolved ∧
      layer = ⟨(resolved.value.bind members?).getD [], resolved.provenance⟩ := by
  rw [resolveLayer_eq]
  constructor
  · intro h
    obtain ⟨⟨resolved, known⟩, hserve, hlayer⟩ := Outcome.bind_eq_ok h
    have hresult := serve_sound (known_nil (fieldBody root options)) hserve
    exact ⟨resolved, hresult.1, (Except.ok.inj hlayer).symm⟩
  · rintro ⟨resolved, hresult, rfl⟩
    obtain ⟨known, hserve, -⟩ : ∃ known, serve (field (fieldBody root options) cycleError
        (fieldPaths (.object .plain root)).length []) (resolveRoot root options) [] =
          .ok (resolved, known) ∧ Known (fieldBody root options) known :=
      serve_of_hasResult (fun k _ => asksIn_fieldBody root options k) le_rfl
        (asksIn_resolveRoot root options) (known_nil (fieldBody root options)) hresult
    rw [hserve]
    rfl

end Layer

end ActorTs.Config
