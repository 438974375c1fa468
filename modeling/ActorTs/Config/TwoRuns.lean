import ActorTs.Config.Tainted
import Mathlib

/-!
# Two resolutions side by side

Two trees that differ in the order of keys are resolved against environments and layers
beneath that differ in the values of some variables, `secret`. Every field is then
resolved in both or in neither, with the same variables behind the same leaves, and the
values differ at leaves of secret variables only. With no secret variable this is that
the order of keys does not matter.

A resolved object can come to look like a substitution, when a substitution under a marker key
answers `true`; so with secrets the trees are required to have no such member.
-/

open Option Bool Finset

namespace ActorTs.Config

open Demand Provenance

open ConfigValue OrderedMap

/-! ### What the two resolutions share -/

/-- A value that is not empty and that is read as it is. -/
def IsText (raw : JsString) : Prop := raw ≠ [] ∧ Json.parse raw = none

instance (raw : JsString) : Decidable (IsText raw) :=
  decidable_of_iff (raw ≠ [] ∧ (Json.parse raw).isNone) (by rw [IsText, isNone_iff_eq_none])

/-- The sources differ in the values of secret variables only. -/
def SourcesAlike (secret : Set JsString) (source source' : EnvironmentSource) : Prop :=
  ∀ name, source name = source' name ∨
    name ∈ secret ∧ ∃ raw raw', source name = some raw ∧ source' name = some raw' ∧
      IsText raw ∧ IsText raw'

/-- The leaves beneath that a secret variable supplied, as the layers beneath have it. -/
def SuppliedBeneath (secret : Set JsString) (options : ResolveLayerOptions) (leaf : Path) : Prop :=
  ∃ variablesOf, options.fallbackVariables = some variablesOf ∧
    ∃ name ∈ secret, name ∈ variablesOf leaf

structure OptionsAlike (secret : Set JsString) (options options' : ResolveLayerOptions) : Prop where
  environment : List.Forall₂ (SourcesAlike secret) options.environment options'.environment
  toUpperCase : options.toUpperCase = options'.toUpperCase
  fallback : Option.Rel
    (fun fallback fallback' => Alike (SuppliedBeneath secret options) (.object .plain fallback)
      (.object .plain fallback')) options.fallback options'.fallback
  fallbackVariables : options.fallbackVariables = options'.fallbackVariables

lemma OptionsAlike.refl (secret : Set JsString) (options : ResolveLayerOptions) :
    OptionsAlike secret options options :=
  ⟨List.forall₂_same.2 fun _ _ _ => .inl rfl, rfl, rel_refl (fun _ => .reordered (.refl _)) _, rfl⟩

/-- No member of a plain object is a substitution or a concatenation that could come to
mark it. -/
def NoForgedMarker (value : ConfigValue) : Prop :=
  ∀ members, value.plain? = some members →
    ∀ marker ∈ ["__substitution".toJs, "__concatenation".toJs],
      ∀ child, lookup marker members = some child → child.isUnresolved = false

/-- The same inside the values of a tree. The tree itself is a tree whatever it holds. -/
def Unforgeable (root : ConfigObject) : Prop :=
  ∀ member ∈ root, Everywhere NoForgedMarker member.2

structure RootsAlike (secret : Set JsString) (root root' : ConfigObject) : Prop where
  members : MembersReordered root root'
  distinct : Distinct (.object .plain root)
  distinct' : Distinct (.object .plain root')
  unforged : secret = ∅ ∨ Unforgeable root ∧ Unforgeable root'

lemma Unforgeable.valueAt {root : ConfigObject} (h : Unforgeable root) {path : Path}
    {node : ConfigValue}
    (hroot : path = [] → (ConfigValue.object .plain root).isUnresolved = true)
    (hnode : valueAt (.object .plain root) path = some node) : Everywhere NoForgedMarker node := by
  have hmembers : ∀ path : Path, ∀ node', Everywhere NoForgedMarker node' →
      ∀ node, ActorTs.Config.valueAt node' path = some node → Everywhere NoForgedMarker node :=
    fun path node' h node hnode => h.valueAt hnode
  cases path with
  | nil =>
    cases hnode
    refine everywhere_object.2 ⟨fun members hplain => ?_, h⟩
    rw [plain?, hroot rfl, if_pos rfl] at hplain
    cases hplain
  | cons key path =>
    rw [ActorTs.Config.valueAt, Option.bind_eq_some_iff] at hnode
    obtain ⟨child, hchild, hnode⟩ := hnode
    exact hmembers path child (h _ (mem_of_lookup_eq_some hchild)) node hnode

variable {secret : Set JsString}

lemma RootsAlike.reordered {root root' : ConfigObject} (h : RootsAlike secret root root') :
    Reordered (.object .plain root) (.object .plain root') :=
  reordered_object h.distinct.nodup h.distinct'.nodup h.members

/-- The same variables behind the same leaves, and differences at secret leaves only. -/
structure ResolvedAlike (secret : Set JsString) (resolved resolved' : Resolved) : Prop where
  value : Option.Rel (Alike (Tainted secret resolved.provenance)) resolved.value resolved'.value
  provenance : resolved.provenance.Agrees resolved'.provenance

lemma resolvedAlike_nothing (secret : Set JsString) : ResolvedAlike secret nothing nothing :=
  ⟨.none, fun _ => rfl⟩

lemma resolvedAlike_reordered {value value' : ConfigValue} (h : Reordered value value')
    (provenance : Provenance) :
    ResolvedAlike secret ⟨some value, provenance⟩ ⟨some value', provenance⟩ :=
  ⟨.some (.reordered h), fun _ => rfl⟩

lemma ResolvedAlike.within {resolved resolved' : Resolved}
    (h : ResolvedAlike secret resolved resolved') (rest : Path) :
    ResolvedAlike secret (within resolved rest) (within resolved' rest) := by
  have hread := rel_bind h.value fun value value' h => h.readData rest
  obtain ⟨hnone, hnone'⟩ | ⟨value, value', hvalue, hvalue', halike⟩ := rel_cases hread
  · rw [within_of_none hnone, within_of_none hnone']
    exact resolvedAlike_nothing secret
  · rw [within_of_readData hvalue, within_of_readData hvalue']
    exact ⟨.some (halike.mono fun _ => tainted_provenanceWithin), h.provenance.provenanceWithin rest⟩

lemma ResolvedAlike.isSome_eq {resolved resolved' : Resolved}
    (h : ResolvedAlike secret resolved resolved') :
    resolved.value.isSome = resolved'.value.isSome := isSome_of_rel h.value

/-! ### The environment and the layers beneath -/

lemma get?_suppliedLeaves (variablesOf : Path → Finset JsString) (target : Path)
    (leaves : List Path) (into : Provenance) (leaf : Path) :
    (leaves.foldl (fun into leaf =>
      if variablesOf (target ++ leaf) = ∅ then into
      else into.set leaf (variablesOf (target ++ leaf))) into).get? leaf =
    if leaf ∈ leaves ∧ variablesOf (target ++ leaf) ≠ ∅ then some (variablesOf (target ++ leaf))
    else into.get? leaf := by
  induction leaves generalizing into with
  | nil => simp
  | cons leaf' leaves ih =>
    rw [List.foldl_cons, ih]
    by_cases hleaf : leaf = leaf'
    · subst hleaf
      by_cases hempty : variablesOf (target ++ leaf) = ∅ <;> simp [hempty]
    · split_ifs <;> simp_all [get?_set, Ne.symm hleaf]

section Outside

variable {secret : Set JsString} {options options' : ResolveLayerOptions}
  (h : OptionsAlike secret options options')
include h

/-- An answer of the environment: the same one, or one that a secret variable holds. -/
def AnswerAlike (secret : Set JsString) (answer answer' : JsString × JsString) : Prop :=
  answer = answer' ∨
    answer.1 = answer'.1 ∧ answer.1 ∈ secret ∧ IsText answer.2 ∧ IsText answer'.2

lemma answers_alike (path : JsString) :
    List.Forall₂ (AnswerAlike secret) (options.answers path) (options'.answers path) := by
  have hname : ∀ name, List.Forall₂ (AnswerAlike secret)
      (options.environment.filterMap fun source => (source name).map (name, ·))
      (options'.environment.filterMap fun source => (source name).map (name, ·)) := by
    intro name
    have hsources := h.environment
    generalize options.environment = sources, options'.environment = sources' at hsources
    induction hsources with
    | nil => exact .nil
    | @cons source source' sources sources' hsource _ ih =>
      rw [List.filterMap_cons, List.filterMap_cons]
      rcases hsource name with heq | ⟨hsecret, raw, raw', hraw, hraw', htext, htext'⟩
      · rw [heq]
        cases source' name with
        | none => exact ih
        | some raw => exact .cons (.inl rfl) ih
      · rw [hraw, hraw']
        exact .cons (.inr ⟨rfl, hsecret, htext, htext'⟩) ih
  rw [ResolveLayerOptions.answers, ResolveLayerOptions.answers, h.toUpperCase]
  simp only [List.flatMap_cons, List.flatMap_nil, List.append_nil]
  exact List.rel_append (hname _) (hname _)

/-- How the two environments answer a name. -/
inductive EnvironmentAlike (secret : Set JsString) : EnvironmentAnswer → EnvironmentAnswer → Prop
  | same (answer : EnvironmentAnswer) : EnvironmentAlike secret answer answer
  | secret {name raw raw' : JsString} (h : name ∈ secret) (hraw : Json.parse raw = none)
      (hraw' : Json.parse raw' = none) :
      EnvironmentAlike secret (.variable name raw) (.variable name raw')

lemma lookupEnvironment_alike (path : JsString) :
    EnvironmentAlike secret (lookupEnvironment options path) (lookupEnvironment options' path) := by
  have hfind : ∀ {answers answers' : List (JsString × JsString)},
      List.Forall₂ (AnswerAlike secret) answers answers' →
      Option.Rel (AnswerAlike secret) (answers.find? fun answer => decide (answer.2 ≠ []))
        (answers'.find? fun answer => decide (answer.2 ≠ [])) := by
    intro answers answers' hanswers
    induction hanswers with
    | nil => exact .none
    | @cons answer answer' _ _ hanswer _ ih =>
      rw [List.find?_cons, List.find?_cons]
      rcases hanswer with rfl | ⟨hname, hsecret, htext, htext'⟩
      · split
        · exact .some (.inl rfl)
        · exact ih
      · rw [decide_eq_true htext.1, decide_eq_true htext'.1]
        exact .some (.inr ⟨hname, hsecret, htext, htext'⟩)
  have hanswers := answers_alike h path
  rw [lookupEnvironment, lookupEnvironment]
  obtain ⟨hnone, hnone'⟩ | ⟨answer, answer', hanswer, hanswer', halike⟩ := rel_cases (hfind hanswers)
  · rw [hnone, hnone']
    have hempty : options.answers path = [] ↔ options'.answers path = [] := by
      rw [← List.length_eq_zero_iff, hanswers.length_eq, List.length_eq_zero_iff]
    simp only [hempty]
    exact .same _
  · rw [hanswer, hanswer']
    obtain ⟨name, raw⟩ := answer
    rcases halike with heq | ⟨hname, hsecret, htext, htext'⟩
    · cases heq
      exact .same _
    · cases hname
      exact .secret hsecret htext.2 htext'.2

lemma lookupFallback_alike (target : Path) :
    ResolvedAlike secret (lookupFallback options target) (lookupFallback options' target) := by
  have hread := rel_bind h.fallback fun fallback fallback' h => h.readData target
  rw [lookupFallback, lookupFallback, ← h.fallbackVariables]
  obtain ⟨hnone, hnone'⟩ | ⟨value, value', hvalue, hvalue', halike⟩ := rel_cases hread
  · rw [hnone, hnone']
    exact resolvedAlike_nothing secret
  · rw [hvalue, hvalue']
    cases hvariables : options.fallbackVariables with
    | none =>
      refine resolvedAlike_reordered (halike.reordered_of_untainted fun leaf hleaf => ?_) .empty
      obtain ⟨variablesOf, hof, -⟩ := hleaf
      rw [hvariables] at hof
      cases hof
    | some variablesOf =>
      refine ⟨.some (halike.onLeaves.mono fun leaf hleaf => ?_), fun leaf => ?_⟩
      · obtain ⟨⟨variablesOf', hof, name, hsecret, hname⟩, hleaf⟩ := hleaf
        rw [hvariables] at hof
        cases hof
        refine ⟨name, hsecret, ?_⟩
        rw [get?_suppliedLeaves, if_pos ⟨hleaf, ne_empty_of_mem hname⟩]
        exact hname
      · simp only [get?_suppliedLeaves, halike.mem_leafPaths_iff leaf]

end Outside

/-! ### The walk -/

/-- Where an object marks itself, the tree has the mark: a resolution that is `true` at a
field that holds no substitution finds `true` there. -/
def Genuine (root : ConfigObject) (look : Path → Option Resolved) : Prop :=
  ∀ path node resolved, valueAt (.object .plain root) path = some node →
    node.isUnresolved = false → look path = some resolved →
    resolved.value = some (.bool true) → node = .bool true

lemma eq_true_of_resolveNode {root : ConfigObject} {options : ResolveLayerOptions}
    {look : Path → Option Resolved} {node : ConfigValue} (hnode : node.isUnresolved = false)
    {path : Path} {addressable : Bool} {resolved : Resolved}
    (h : evalWith look (resolveNode root options node path addressable) = some resolved)
    (hvalue : resolved.value = some (.bool true)) : node = .bool true := by
  rw [resolveNode_eq] at h
  cases node with
  | undefined =>
    cases h
    cases hvalue
  | list items =>
    rw [resolveStep, resolveList, evalWith_bind, bind_eq_some_iff] at h
    obtain ⟨r, -, hr⟩ := h
    cases hr
    cases hvalue
  | object prototype members =>
    rw [isUnresolved, or_eq_false_iff] at hnode
    rw [resolveStep, hnode.1, hnode.2] at h
    simp only [false_eq_true, if_false] at h
    rw [resolveObject, evalWith_bind, bind_eq_some_iff] at h
    obtain ⟨r, -, hr⟩ := h
    cases hr
    cases hvalue
  | bool b =>
    cases h
    cases hvalue
    rfl
  | _ =>
    cases h
    cases hvalue

/-- The paths that a resolution asks for: that of the tree itself only where the tree
reads as a substitution. -/
def Asked (root : ConfigObject) (path : Path) : Prop :=
  path = [] → (ConfigValue.object .plain root).isUnresolved = true

structure LooksAlike (secret : Set JsString) (root root' : ConfigObject)
    (look look' : Path → Option Resolved) : Prop where
  rel : ∀ path, Asked root path → Option.Rel (ResolvedAlike secret) (look path) (look' path)
  genuine : Genuine root look
  genuine' : Genuine root' look'

/-! ### The members of an object -/

section Members

variable (look : Path → Option Resolved) (resolve : Resolve)

/-- What the walk makes of the member under a key. -/
def memberResult (path : Path) (addressable : Bool) (members : ConfigObject) (key : JsString) :
    Option Resolved :=
  if isForbiddenConfigKey key then some nothing
  else
    match lookup key members with
    | none => some nothing
    | some child => evalWith look (resolveMember resolve child (path ++ [key]) addressable)

/-- An object and a provenance that the results under the keys are added to. -/
structure Collects (result : JsString → Option Resolved) (out : ConfigObject) (into : Provenance)
    (object : ConfigObject) (provenance : Provenance) : Prop where
  nodup : (object.map Prod.fst).Nodup
  value : ∀ key resolved, result key = some resolved →
    lookup key object = resolved.value.or (lookup key out)
  leaf : ∀ key resolved, result key = some resolved → ∀ leaf,
    provenance.get? (key :: leaf) =
      if resolved.value.isSome then (resolved.provenance.get? leaf).or (into.get? (key :: leaf))
      else into.get? (key :: leaf)
  top : provenance.get? [] = into.get? []

/-- The members resolve when each of them does, and the object is made of the results. -/
def Gathers (result : JsString → Option Resolved) (out : ConfigObject) (into : Provenance) :
    Option (ConfigObject × Provenance) → Prop
  | none => ∃ key, result key = none
  | some r => (∀ key, (result key).isSome) ∧ Collects result out into r.1 r.2

lemma Gathers.isSome_iff {result : JsString → Option Resolved} {out : ConfigObject}
    {into : Provenance} {r : Option (ConfigObject × Provenance)} (h : Gathers result out into r) :
    r.isSome = true ↔ ∀ key, (result key).isSome = true := by
  cases r with
  | none =>
    obtain ⟨key, hkey⟩ := h
    refine ⟨fun hr => absurd hr false_ne_true, fun hall => ?_⟩
    have hsome := hall key
    rw [hkey] at hsome
    cases hsome
  | some r => exact ⟨fun _ => h.1, fun _ => rfl⟩

lemma Gathers.imp {result result' : JsString → Option Resolved} {out out' : ConfigObject}
    {into into' : Provenance} (hresult : ∀ key, (result key).isSome = (result' key).isSome)
    (hcollects : ∀ object provenance, Collects result out into object provenance →
      Collects result' out' into' object provenance)
    {r : Option (ConfigObject × Provenance)} (h : Gathers result out into r) :
    Gathers result' out' into' r := by
  cases r with
  | none =>
    obtain ⟨key, hkey⟩ := h
    refine ⟨key, ?_⟩
    rw [← not_isSome_iff_eq_none, ← hresult key, hkey]
    exact false_ne_true
  | some r => exact ⟨fun key => hresult key ▸ h.1 key, hcollects r.1 r.2 h.2⟩

variable {look resolve} {path : Path} {addressable : Bool} {key : JsString} {child : ConfigValue}
  {rest : ConfigObject} {members : ConfigObject}

lemma memberResult_of_forbidden (hkey : isForbiddenConfigKey key = true) :
    memberResult look resolve path addressable members key = some nothing := if_pos hkey

lemma memberResult_of_none (h : lookup key members = none) :
    memberResult look resolve path addressable members key = some nothing := by
  rw [memberResult, h, ite_self]

lemma memberResult_cons_self (hkey : isForbiddenConfigKey key = false) :
    memberResult look resolve path addressable ((key, child) :: rest) key =
      evalWith look (resolveMember resolve child (path ++ [key]) addressable) := by
  rw [memberResult, hkey, lookup, if_pos rfl]
  rfl

lemma memberResult_cons_of_ne {key' : JsString} (h : key ≠ key') :
    memberResult look resolve path addressable ((key, child) :: rest) key' =
      memberResult look resolve path addressable rest key' := by
  rw [memberResult, memberResult, lookup, if_neg h]

section Cons

variable {out object : ConfigObject} {into provenance : Provenance} {resolved : Resolved}
  (hkey : isForbiddenConfigKey key = false) (hrest : key ∉ rest.map Prod.fst)
  (hresult : evalWith look (resolveMember resolve child (path ++ [key]) addressable) =
    some resolved)
include hkey hrest hresult

lemma Collects.cons_none (hvalue : resolved.value = none)
    (h : Collects (memberResult look resolve path addressable rest) out into object provenance) :
    Collects (memberResult look resolve path addressable ((key, child) :: rest)) out into object
      provenance := by
  have habsent : memberResult look resolve path addressable rest key = some nothing :=
    memberResult_of_none (lookup_eq_none_of_notMem hrest)
  refine ⟨h.nodup, fun key' r hr => ?_, fun key' r hr leaf => ?_, h.top⟩
  · by_cases hne : key = key'
    · subst hne
      rw [memberResult_cons_self hkey, hresult] at hr
      cases hr
      rw [hvalue, h.value key nothing habsent]
      rfl
    · rw [memberResult_cons_of_ne hne] at hr
      exact h.value key' r hr
  · by_cases hne : key = key'
    · subst hne
      rw [memberResult_cons_self hkey, hresult] at hr
      cases hr
      rw [hvalue, h.leaf key nothing habsent]
      rfl
    · rw [memberResult_cons_of_ne hne] at hr
      exact h.leaf key' r hr leaf

/-- A member that resolved to a value is bound, with its leaves below its key. -/
lemma Collects.cons_some {value : ConfigValue} (hvalue : resolved.value = some value)
    (h : Collects (memberResult look resolve path addressable rest) (OrderedMap.bind key value out)
      (setBelow key into resolved.provenance) object provenance) :
    Collects (memberResult look resolve path addressable ((key, child) :: rest)) out into object
      provenance := by
  have habsent : memberResult look resolve path addressable rest key = some nothing :=
    memberResult_of_none (lookup_eq_none_of_notMem hrest)
  refine ⟨h.nodup, fun key' r hr => ?_, fun key' r hr leaf => ?_, ?_⟩
  · by_cases hne : key = key'
    · subst hne
      rw [memberResult_cons_self hkey, hresult] at hr
      cases hr
      rw [hvalue, h.value key nothing habsent, lookup_bind, if_pos rfl]
      rfl
    · rw [memberResult_cons_of_ne hne] at hr
      rw [h.value key' r hr, lookup_bind, if_neg hne]
  · by_cases hne : key = key'
    · subst hne
      rw [memberResult_cons_self hkey, hresult] at hr
      cases hr
      rw [hvalue, h.leaf key nothing habsent, get?_setBelow]
      rfl
    · rw [memberResult_cons_of_ne hne] at hr
      rw [h.leaf key' r hr leaf, get?_setBelow_of_ne]
      exact fun rest hrest => hne (List.cons.inj hrest).1.symm
  · rw [h.top, get?_setBelow_of_ne]
    exact fun rest hrest => List.cons_ne_nil key rest hrest.symm

end Cons

variable (look resolve path addressable)

lemma gathers_resolveMembers (hnodup : (members.map Prod.fst).Nodup) {out : ConfigObject}
    (hout : (out.map Prod.fst).Nodup) (into : Provenance) :
    Gathers (memberResult look resolve path addressable members) out into
      (evalWith look (resolveMembers resolve path addressable out into members)) := by
  induction members generalizing out into with
  | nil =>
    have hnothing : ∀ key, memberResult look resolve path addressable [] key = some nothing :=
      fun key => memberResult_of_none rfl
    refine ⟨fun key => by rw [hnothing]; rfl, hout, fun key r hr => ?_, fun key r hr leaf => ?_, rfl⟩
    · rw [hnothing] at hr
      cases hr
      rfl
    · rw [hnothing] at hr
      cases hr
      rfl
  | cons member rest ih =>
    obtain ⟨key, child⟩ := member
    rw [List.map_cons, List.nodup_cons] at hnodup
    have ih' := @ih hnodup.2
    rw [resolveMembers]
    split_ifs with hkey
    · have hsame : memberResult look resolve path addressable ((key, child) :: rest) =
          memberResult look resolve path addressable rest := by
        funext key'
        by_cases hne : key = key'
        · subst hne
          rw [memberResult_of_forbidden hkey, memberResult_of_forbidden hkey]
        · exact memberResult_cons_of_ne hne
      rw [hsame]
      exact ih' hout into
    · have hkey' := Bool.eq_false_iff.2 hkey
      rw [evalWith_bind]
      cases hresult : evalWith look (resolveMember resolve child (path ++ [key]) addressable) with
      | none => exact ⟨key, (memberResult_cons_self hkey').trans hresult⟩
      | some resolved =>
        have hsome : ∀ key', (memberResult look resolve path addressable rest key').isSome =
            (memberResult look resolve path addressable ((key, child) :: rest) key').isSome := by
          intro key'
          by_cases hne : key = key'
          · subst hne
            rw [memberResult_of_none (lookup_eq_none_of_notMem hnodup.1),
              memberResult_cons_self hkey', hresult]
            rfl
          · rw [memberResult_cons_of_ne hne]
        rw [Option.bind_some]
        cases hvalue : resolved.value with
        | none =>
          exact (ih' hout into).imp hsome fun _ _ h => h.cons_none hkey' hnodup.1 hresult hvalue
        | some value =>
          exact (ih' (nodup_bind key value hout) _).imp hsome fun _ _ h =>
            h.cons_some hkey' hnodup.1 hresult hvalue

end Members

/-! ### The walk of both trees -/

section Walk

variable {secret : Set JsString} {root root' : ConfigObject} {options options' : ResolveLayerOptions}
  {look look' : Path → Option Resolved} {node node' : ConfigValue}

/-- Both resolve, to values that are alike, or neither does. -/
abbrev ResolvesAlike (secret : Set JsString) (look look' : Path → Option Resolved)
    (p p' : Resolution) : Prop := Demand.Related look look' (ResolvedAlike secret) p p'

lemma resolvedAlike_ofNames {value value' : ConfigValue} {names names' : Finset JsString}
    (hnames : names = names')
    (h : Reordered value value' ∨ (∃ name ∈ secret, name ∈ names) ∧
      Alike (fun leaf => leaf = []) value value') :
    ResolvedAlike secret ⟨some value, .ofNames names⟩ ⟨some value', .ofNames names'⟩ := by
  subst hnames
  refine ⟨.some ?_, fun _ => rfl⟩
  rcases h with h | ⟨⟨name, hsecret, hname⟩, h⟩
  · exact .reordered h
  · refine h.mono fun leaf hleaf => ⟨name, hsecret, ?_⟩
    rw [get?_ofNames, if_pos hleaf]
    exact hname

lemma resolvesAlike_nothing : ResolvesAlike secret look look' (pure nothing) (pure nothing) :=
  related_done (resolvedAlike_nothing secret)

section Lookup

variable (hlook : LooksAlike secret root root' look look')
include hlook

lemma resolvesAlike_field {path : Path} (h : Asked root path) :
    ResolvesAlike secret look look' (resolveField path) (resolveField path) :=
  related_ask (hlook.rel path h) fun _ _ h => related_done h

lemma resolvesAlike_lookupFrom (h : Reordered node node') {before rest : Path}
    (hasked : node.isUnresolved = true ∨ rest = [] → Asked root before) :
    ResolvesAlike secret look look' (lookupFrom node before rest) (lookupFrom node' before rest) := by
  induction rest generalizing node node' before with
  | nil => exact resolvesAlike_field hlook (hasked (.inr rfl))
  | cons segment rest ih =>
    rw [lookupFrom, lookupFrom, ← h.isUnresolved_eq]
    split_ifs with hforbidden hunresolved
    · exact resolvesAlike_nothing
    · refine (resolvesAlike_field hlook (hasked (.inl hunresolved))).bind
        fun resolved resolved' h => ?_
      exact related_done (h.within _)
    · have hchild := rel_bind h.plain? fun members members' h => h segment
      obtain ⟨hnone, hnone'⟩ | ⟨child, child', hfound, hfound', h⟩ := rel_cases hchild
      · rw [hnone, hnone']
        exact resolvesAlike_nothing
      · rw [hfound, hfound']
        exact ih h fun _ hnil => absurd hnil (List.append_ne_nil_of_right_ne_nil _ (by simp))

lemma resolvesAlike_lookupOther (hroot : RootsAlike secret root root') {target : Path}
    (htarget : target ≠ []) (path : Path) :
    ResolvesAlike secret look look' (lookupOther root target path)
      (lookupOther root' target path) := by
  rw [lookupOther, lookupOther]
  split_ifs
  · exact resolvesAlike_nothing
  · refine resolvesAlike_lookupFrom hlook hroot.reordered fun h _ => ?_
    exact h.resolve_right htarget

end Lookup

section Parts

variable (hroot : RootsAlike secret root root') (hoptions : OptionsAlike secret options options')
  (hlook : LooksAlike secret root root' look look')

/-- The walks of the parts of two values that are reorderings of each other. -/
def PartsAlike (secret : Set JsString) (root root' : ConfigObject)
    (options options' : ResolveLayerOptions) (look look' : Path → Option Resolved)
    (parts parts' : ConfigValue → Prop) : Prop :=
  ∀ part part', parts part → parts' part' → Reordered part part' → ∀ path,
    ResolvesAlike secret look look' (resolveNode root options part path false)
      (resolveNode root' options' part' path false)

variable {parts parts' : ConfigValue → Prop}
  (hparts : PartsAlike secret root root' options options' look look' parts parts')
  {items items' : List ConfigValue}

lemma resolvesAlike_previous {previous previous' : Option ConfigValue}
    (h : Option.Rel Reordered previous previous') (hsub : ∀ part, previous = some part → parts part)
    (hsub' : ∀ part, previous' = some part → parts' part) (path : Path)
    (hparts : PartsAlike secret root root' options options' look look' parts parts') :
    ResolvesAlike secret look look' (resolvePrevious (resolveNode root options) previous path)
      (resolvePrevious (resolveNode root' options') previous' path) := by
  cases h with
  | none => exact resolvesAlike_nothing
  | some h => exact hparts _ _ (hsub _ rfl) (hsub' _ rfl) h path

include hoptions hparts

lemma resolvesAlike_outside {reference reference' : Reference}
    (h : ReferenceReordered reference reference')
    (hsub : ∀ part, reference.previous = some part → parts part)
    (hsub' : ∀ part, reference'.previous = some part → parts' part)
    (name : JsString) (path : Path) (reading : EnvironmentReading) :
    ResolvesAlike secret look look'
      (resolveOutside options (resolveNode root options) reference name path reading)
      (resolveOutside options' (resolveNode root' options') reference' name path reading) := by
  have hprevious := resolvesAlike_previous h.previous hsub hsub' path hparts
  have hanswer := lookupEnvironment_alike hoptions name
  rw [resolveOutside, resolveOutside, ← h.optional]
  generalize lookupEnvironment options name = answer, lookupEnvironment options' name = answer'
    at hanswer
  cases hanswer with
  | same =>
    rcases answer with ⟨source, raw⟩ | _ | _
    · exact related_done (resolvedAlike_reordered (.refl _) _)
    · dsimp only
      split_ifs
      · exact hprevious
      · exact related_fail _ _
    · dsimp only
      split_ifs
      · exact hprevious
      · exact related_fail _ _
  | @secret source raw raw' hsecret hraw hraw' =>
    have hvalue : ∀ {raw : JsString}, Json.parse raw = none →
        (if reading = .text then .str raw else environmentValueOf raw) = str raw := by
      intro raw hraw
      rw [environmentValueOf, hraw, ite_self]
    dsimp only
    rw [hvalue hraw, hvalue hraw']
    have hleaf : ∀ raw leaf, (everyLeafFrom (.str raw) source).get? leaf =
        if leaf ∈ [[]] then some {source} else none := fun raw => get?_everyLeafFrom (.str raw) source
    refine related_done ⟨.some (.leaf ⟨source, hsecret, ?_⟩ rfl rfl ?_ ?_ rfl), fun leaf => ?_⟩
    · rw [hleaf, if_pos (List.mem_singleton_self [])]
      exact Finset.mem_singleton_self source
    · exact fun h => by cases h
    · exact fun h => by cases h
    · rw [hleaf, hleaf]

include hroot hlook

lemma resolvesAlike_substitution {reference reference' : Reference}
    (h : ReferenceReordered reference reference')
    (hsub : ∀ part, reference.previous = some part → parts part)
    (hsub' : ∀ part, reference'.previous = some part → parts' part)
    (path : Path) (reading : EnvironmentReading) :
    ResolvesAlike secret look look'
      (resolveSubstitution root options (resolveNode root options) reference path reading)
      (resolveSubstitution root' options' (resolveNode root' options') reference' path reading) := by
  rw [resolveSubstitution, resolveSubstitution, ← h.path]
  cases reference.path with
  | none => exact related_fail _ _
  | some name =>
    refine (resolvesAlike_lookupOther hlook hroot (List.splitOn_ne_nil 0x2E name) path).bind
      fun fromTree fromTree' htree => ?_
    have hbeneath := lookupFallback_alike hoptions (name.splitOn 0x2E)
    rw [← htree.isSome_eq, ← hbeneath.isSome_eq]
    split_ifs
    · exact related_done htree
    · exact related_done hbeneath
    · exact resolvesAlike_outside hoptions hparts h hsub hsub' name path reading

/-- The same variables, and the same text unless one of them is secret. -/
structure JoinedAlike (secret : Set JsString) (joined joined' : Joined) : Prop where
  answered : joined.answered = joined'.answered
  names : joined.names = joined'.names
  text : joined.text = joined'.text ∨ ∃ name ∈ secret, name ∈ joined.names

lemma resolvesAlike_joinPieces {pieces pieces' : List (JsString ⊕ Reference)}
    (h : List.Forall₂ PieceReordered pieces pieces')
    (hsub : ∀ reference, .inr reference ∈ pieces → ∀ part,
      reference.previous = some part → parts part)
    (hsub' : ∀ reference, .inr reference ∈ pieces' → ∀ part,
      reference.previous = some part → parts' part)
    (path : Path) {joined joined' : Joined} (hjoined : JoinedAlike secret joined joined') :
    Demand.Related look look' (JoinedAlike secret)
      (joinPieces root options (resolveNode root options) path joined pieces)
      (joinPieces root' options' (resolveNode root' options') path joined' pieces') := by
  induction h generalizing joined joined' with
  | nil => exact related_done hjoined
  | @cons piece piece' pieces pieces' hpiece _ ih =>
    have ih' := @ih (fun reference hmem => hsub reference (List.mem_cons_of_mem _ hmem))
      fun reference hmem => hsub' reference (List.mem_cons_of_mem _ hmem)
    cases hpiece with
    | @inl text text' htext =>
      subst htext
      refine ih' ⟨hjoined.answered, hjoined.names, hjoined.text.imp_left fun h => ?_⟩
      rw [h]
    | @inr reference reference' hreference =>
      refine (resolvesAlike_substitution hroot hoptions hlook hparts hreference
        (hsub reference List.mem_cons_self) (hsub' reference' List.mem_cons_self) path .text).bind
        fun resolved resolved' hresolved => ?_
      obtain ⟨hnone, hnone'⟩ | ⟨value, value', hvalue, hvalue', halike⟩ := rel_cases hresolved.value
      · rw [hnone, hnone']
        exact ih' hjoined
      · rw [hvalue, hvalue']
        dsimp only
        have hnames := hresolved.provenance.names_eq
        obtain ⟨hnone, hnone'⟩ | ⟨text, text', htext, htext', heq⟩ := rel_cases halike.text?
        · rw [hnone, hnone']
          exact related_fail _ _
        · rw [htext, htext']
          refine ih' ⟨rfl, by rw [hjoined.names, hnames], ?_⟩
          rcases hjoined.text with hsame | ⟨name, hsecret, hname⟩
          · rcases heq with heq | ⟨name, hsecret, hname⟩
            · exact .inl (by rw [hsame, heq])
            · exact .inr ⟨name, hsecret, mem_union_right _ (mem_names.2 ⟨[], hname⟩)⟩
          · exact .inr ⟨name, hsecret, mem_union_left _ hname⟩

lemma resolvesAlike_concatenation {members members' : ConfigObject}
    (h : MembersReordered members members') {prototype : Prototype}
    (hsub : ∀ part, IsPart part (.object prototype members) → parts part)
    (hsub' : ∀ part, IsPart part (.object prototype members') → parts' part) (path : Path) :
    ResolvesAlike secret look look'
      (resolveConcatenation root options (resolveNode root options) members path)
      (resolveConcatenation root' options' (resolveNode root' options') members' path) := by
  rw [resolveConcatenation, resolveConcatenation]
  obtain ⟨hnone, hnone'⟩ | ⟨pieces, pieces', hpieces, hpieces', hrel⟩ :=
    rel_cases (piecesOf_reordered h)
  · rw [hnone, hnone']
    exact related_fail _ _
  · rw [hpieces, hpieces']
    refine (resolvesAlike_joinPieces hroot hoptions hlook hparts hrel
      (fun reference hmem part hprevious => hsub part (isPart_of_piece hpieces hmem hprevious))
      (fun reference hmem part hprevious => hsub' part (isPart_of_piece hpieces' hmem hprevious))
      path ⟨rfl, rfl, .inl rfl⟩).bind fun joined joined' hjoined => ?_
    rw [← hjoined.answered, ← isOptional_congr h]
    split_ifs
    · refine related_done (resolvedAlike_ofNames hjoined.names ?_)
      rcases hjoined.text with htext | hsecret
      · exact .inl (htext ▸ .refl _)
      · exact .inr ⟨hsecret, .leaf rfl rfl rfl (fun h => by cases h) (fun h => by cases h) rfl⟩
    · exact resolvesAlike_previous (h.ownValue _) (fun part hpart => hsub part (isPart_of_ownValue hpart))
        (fun part hpart => hsub' part (isPart_of_ownValue hpart)) path hparts

/-- The same variables, and the same items unless one of them is secret. -/
def ItemsAlike (secret : Set JsString) (r r' : List ConfigValue × Finset JsString) : Prop :=
  r.2 = r'.2 ∧ (List.Forall₂ Reordered r.1 r'.1 ∨ ∃ name ∈ secret, name ∈ r.2)

omit hroot hoptions hlook in
lemma resolvesAlike_items (h : List.Forall₂ Reordered items items')
    (hsub : ∀ item ∈ items, parts item) (hsub' : ∀ item ∈ items', parts' item) (path : Path)
    {r r' : List ConfigValue × Finset JsString} (hr : ItemsAlike secret r r') :
    Demand.Related look look' (ItemsAlike secret)
      (resolveItems (resolveNode root options) path r.1 r.2 items)
      (resolveItems (resolveNode root' options') path r'.1 r'.2 items') := by
  induction h generalizing r r' with
  | nil => exact related_done hr
  | @cons item item' items items' hitem _ ih =>
    have ih' := fun {r r'} => @ih (fun item hmem => hsub item (List.mem_cons_of_mem _ hmem))
      (fun item hmem => hsub' item (List.mem_cons_of_mem _ hmem)) r r'
    refine (hparts item item' (hsub item List.mem_cons_self) (hsub' item' List.mem_cons_self) hitem
      path).bind fun resolved resolved' hresolved => ?_
    obtain ⟨hnone, hnone'⟩ | ⟨value, value', hvalue, hvalue', halike⟩ := rel_cases hresolved.value
    · rw [hnone, hnone']
      exact ih' hr
    · rw [hvalue, hvalue']
      have hnames := hresolved.provenance.names_eq
      refine @ih' (r.1 ++ [value], r.2 ∪ resolved.provenance.names)
        (r'.1 ++ [value'], r'.2 ∪ resolved'.provenance.names) ⟨by rw [hr.1, hnames], ?_⟩
      rcases hr.2 with hsame | ⟨name, hsecret, hname⟩
      · by_cases htaint : ∃ leaf, Tainted secret resolved.provenance leaf
        · obtain ⟨leaf, name, hsecret, hname⟩ := htaint
          exact .inr ⟨name, hsecret, mem_union_right _ (mem_names.2 ⟨leaf, hname⟩)⟩
        · refine .inl (List.rel_append hsame (.cons ?_ .nil))
          exact halike.reordered_of_untainted fun leaf hleaf => htaint ⟨leaf, hleaf⟩
      · exact .inr ⟨name, hsecret, mem_union_left _ hname⟩

omit hroot hoptions hlook in
lemma resolvesAlike_list (h : List.Forall₂ Reordered items items')
    (hsub : ∀ item ∈ items, parts item) (hsub' : ∀ item ∈ items', parts' item) (path : Path) :
    ResolvesAlike secret look look' (resolveList (resolveNode root options) items path)
      (resolveList (resolveNode root' options') items' path) := by
  have hnil : ItemsAlike secret ([], ∅) ([], ∅) := ⟨rfl, .inl .nil⟩
  refine (resolvesAlike_items hparts h hsub hsub' path hnil).bind fun r r' hr => ?_
  refine related_done (resolvedAlike_ofNames hr.1 ?_)
  rcases hr.2 with hsame | hsecret
  · exact .inl (reordered_list hsame)
  · exact .inr ⟨hsecret, .leaf rfl rfl rfl (fun h => by cases h) (fun h => by cases h) rfl⟩

end Parts

/-! ### Objects -/

section Object

variable {members : ConfigObject} {prototype : Prototype}

lemma isMarkedBy_object {marker : JsString} :
    (ConfigValue.object prototype members).isMarkedBy marker = true ↔
      lookup marker members = some (.bool true) := by
  rw [isMarkedBy_iff]
  exact ⟨fun ⟨_, h, hmarker⟩ => Option.some.inj h ▸ hmarker, fun h => ⟨members, rfl, h⟩⟩

lemma isUnresolved_of_collects {object : ConfigObject} {provenance : Provenance} {path : Path}
    {addressable : Bool} (hplain : (ConfigValue.object prototype members).isUnresolved = false)
    (hunforged : NoForgedMarker (.object prototype members)) (hgenuine : Genuine root look)
    (haddress : FieldsAt root members path addressable)
    (hsome : ∀ key, (memberResult look (resolveNode root options) path addressable members key).isSome)
    (h : Collects (memberResult look (resolveNode root options) path addressable members) [] .empty
      object provenance) : (ConfigValue.object .plain object).isUnresolved = false := by
  have hmarker : ∀ marker ∈ ["__substitution".toJs, "__concatenation".toJs],
      isForbiddenConfigKey marker = false →
      (ConfigValue.object prototype members).isMarkedBy marker = false →
      (ConfigValue.object .plain object).isMarkedBy marker = false := by
    intro marker hmem hforbidden hunmarked
    rw [← not_eq_true, isMarkedBy_object]
    intro htrue
    obtain ⟨resolved, hresolved⟩ := isSome_iff_exists.1 (hsome marker)
    have hvalue := h.value marker resolved hresolved
    rw [htrue, lookup, or_none] at hvalue
    cases hchild : lookup marker members with
    | none =>
      rw [memberResult_of_none hchild] at hresolved
      cases hresolved
      cases hvalue
    | some child =>
      have hgood := hunforged members (plain?_of_isUnresolved hplain) marker hmem child hchild
      have hchildtrue : child = .bool true := by
        simp only [memberResult, hforbidden, hchild, false_eq_true, if_false] at hresolved
        cases addressable with
        | true =>
          rw [resolveMember, if_pos rfl, resolveField, evalWith_ask] at hresolved
          simp only [evalWith_done, bind_fun_some] at hresolved
          exact hgenuine _ child resolved (haddress rfl marker child hchild) hgood
            hresolved hvalue.symm
        | false => exact eq_true_of_resolveNode hgood hresolved hvalue.symm
      rw [← not_eq_true, isMarkedBy_object] at hunmarked
      exact hunmarked (hchildtrue ▸ hchild)
  rw [isUnresolved, or_eq_false_iff] at hplain ⊢
  exact ⟨hmarker _ (by simp) (by decide) hplain.1, hmarker _ (by simp) (by decide) hplain.2⟩

variable (hlook : LooksAlike secret root root' look look')

lemma memberResult_alike {members' : ConfigObject} (h : MembersReordered members members')
    {path : Path} {addressable : Bool}
    (hmembers : ∀ key child child', lookup key members = some child →
      lookup key members' = some child' →
      ResolvesAlike secret look look'
        (resolveMember (resolveNode root options) child (path ++ [key]) addressable)
        (resolveMember (resolveNode root' options') child' (path ++ [key]) addressable))
    (key : JsString) :
    Option.Rel (ResolvedAlike secret)
      (memberResult look (resolveNode root options) path addressable members key)
      (memberResult look' (resolveNode root' options') path addressable members' key) := by
  rw [memberResult, memberResult]
  split_ifs
  · exact .some (resolvedAlike_nothing secret)
  · obtain ⟨hnone, hnone'⟩ | ⟨child, child', hchild, hchild', -⟩ := rel_cases (h key)
    · rw [hnone, hnone']
      exact .some (resolvedAlike_nothing secret)
    · rw [hchild, hchild']
      exact hmembers key child child' hchild hchild'

/-- The same keys, and the same variables behind the same leaves; differences at secret
leaves only. -/
structure MadeAlike (secret : Set JsString) (r r' : ConfigObject × Provenance) : Prop where
  nodup : (r.1.map Prod.fst).Nodup
  nodup' : (r'.1.map Prod.fst).Nodup
  members : MembersAlike (Tainted secret r.2) r.1 r'.1
  provenance : r.2.Agrees r'.2

lemma Collects.alike {result result' : JsString → Option Resolved}
    (hresult : ∀ key, Option.Rel (ResolvedAlike secret) (result key) (result' key))
    (hsome : ∀ key, (result key).isSome)
    (hforbidden : ∀ key, isForbiddenConfigKey key = true → result key = some nothing)
    {r r' : ConfigObject × Provenance} (h : Collects result [] .empty r.1 r.2)
    (h' : Collects result' [] .empty r'.1 r'.2) : MadeAlike secret r r' := by
  have hpair : ∀ key, ∃ resolved resolved', result key = some resolved ∧
      result' key = some resolved' ∧ ResolvedAlike secret resolved resolved' := by
    intro key
    obtain ⟨hnone, -⟩ | hpair := rel_cases (hresult key)
    · have hkey := hsome key
      rw [hnone] at hkey
      cases hkey
    · exact hpair
  refine ⟨h.nodup, h'.nodup, fun key => ?_, fun leaf => ?_⟩
  · obtain ⟨resolved, resolved', hkey, hkey', halike⟩ := hpair key
    rw [h.value key resolved hkey, h'.value key resolved' hkey']
    obtain ⟨hnone, hnone'⟩ | ⟨value, value', hvalue, hvalue', hrel⟩ := rel_cases halike.value
    · rw [hnone, hnone']
      exact .none
    · rw [hvalue, hvalue']
      refine .some (hrel.mono fun leaf htaint => ⟨?_, ?_⟩)
      · rw [← not_eq_true]
        intro hforbid
        rw [hforbidden key hforbid] at hkey
        cases hkey
        cases hvalue
      · rw [Tainted, h.leaf key resolved hkey leaf, hvalue]
        rw [Tainted] at htaint
        simpa using htaint
  · cases leaf with
    | nil => rw [h.top, h'.top]
    | cons key leaf =>
      obtain ⟨resolved, resolved', hkey, hkey', halike⟩ := hpair key
      rw [h.leaf key resolved hkey, h'.leaf key resolved' hkey', ← halike.isSome_eq,
        halike.provenance leaf]

/-- Objects that are made alike, when neither stands for something else or nothing is
secret. -/
lemma MadeAlike.resolvedAlike {r r' : ConfigObject × Provenance} (h : MadeAlike secret r r')
    (hmarks : secret = ∅ ∨ (object .plain r.1).isUnresolved = false ∧
      (object .plain r'.1).isUnresolved = false) :
    ResolvedAlike secret ⟨some (.object .plain r.1), r.2⟩ ⟨some (.object .plain r'.1), r'.2⟩ := by
  refine ⟨.some ?_, h.provenance⟩
  rcases hmarks with rfl | ⟨hplain, hplain'⟩
  · refine .reordered (reordered_object h.nodup h.nodup' fun key => ?_)
    obtain ⟨hnone, hnone'⟩ | ⟨value, value', hvalue, hvalue', hrel⟩ := rel_cases (h.members key)
    · rw [hnone, hnone']
      exact .none
    · rw [hvalue, hvalue']
      refine .some (hrel.reordered_of_untainted fun leaf hleaf => ?_)
      obtain ⟨-, name, hname, -⟩ := hleaf
      exact hname
  · exact alike_object hplain hplain' h.nodup h.nodup' h.members

lemma asked_concat (path : Path) (key : JsString) : Asked root (path ++ [key]) :=
  fun h => absurd h (List.append_ne_nil_of_right_ne_nil _ (by simp))

section Resolved

variable {members members' : ConfigObject} {path : Path} {addressable : Bool}
  (h : MembersReordered members members')
  (hnodup : (members.map Prod.fst).Nodup) (hnodup' : (members'.map Prod.fst).Nodup)
  (hmembers : ∀ key child child', lookup key members = some child →
    lookup key members' = some child' →
    ResolvesAlike secret look look' (resolveNode root options child (path ++ [key]) false)
      (resolveNode root' options' child' (path ++ [key]) false))
include hlook h hnodup hnodup' hmembers

omit hnodup hnodup' in
lemma memberResult_node_alike (key : JsString) :
    Option.Rel (ResolvedAlike secret)
      (memberResult look (resolveNode root options) path addressable members key)
      (memberResult look' (resolveNode root' options') path addressable members' key) := by
  refine memberResult_alike h (fun key child child' hchild hchild' => ?_) key
  rw [resolveMember, resolveMember]
  split_ifs
  · exact resolvesAlike_field hlook (asked_concat path key)
  · exact hmembers key child child' hchild hchild'

lemma madeAlike_resolveMembers :
    Demand.Related look look' (fun r r' => MadeAlike secret r r' ∧
        ((∀ key, (memberResult look (resolveNode root options) path addressable members key).isSome) ∧
          Collects (memberResult look (resolveNode root options) path addressable members) [] .empty
            r.1 r.2) ∧
        ((∀ key, (memberResult look' (resolveNode root' options') path addressable members' key).isSome) ∧
          Collects (memberResult look' (resolveNode root' options') path addressable members') []
            .empty r'.1 r'.2))
      (resolveMembers (resolveNode root options) path addressable [] .empty members)
      (resolveMembers (resolveNode root' options') path addressable [] .empty members') := by
  have hresult : ∀ key, Option.Rel (ResolvedAlike secret)
      (memberResult look (resolveNode root options) path addressable members key)
      (memberResult look' (resolveNode root' options') path addressable members' key) :=
    memberResult_node_alike hlook h hmembers
  have hnil : (([] : ConfigObject).map Prod.fst).Nodup := List.nodup_nil
  have hgathers := gathers_resolveMembers look (resolveNode root options) path addressable hnodup
    hnil .empty
  have hgathers' := gathers_resolveMembers look' (resolveNode root' options') path addressable hnodup'
    hnil .empty
  refine rel_of_isSome ?_ fun r r' hr hr' => ?_
  · rw [Bool.eq_iff_iff, hgathers.isSome_iff, hgathers'.isSome_iff]
    exact forall_congr' fun key => by rw [isSome_of_rel (hresult key)]
  · rw [hr] at hgathers
    rw [hr'] at hgathers'
    refine ⟨?_, hgathers, hgathers'⟩
    exact hgathers.2.alike hresult hgathers.1 (fun key hkey => memberResult_of_forbidden hkey)
      hgathers'.2

lemma resolvesAlike_object {prototype : Prototype}
    (hplain : (object prototype members).isUnresolved = false)
    (hplain' : (object prototype members').isUnresolved = false)
    (hunforged : secret = ∅ ∨ NoForgedMarker (.object prototype members) ∧
      NoForgedMarker (.object prototype members'))
    (haddress : FieldsAt root members path addressable)
    (haddress' : FieldsAt root' members' path addressable) :
    ResolvesAlike secret look look'
      (resolveObject (resolveNode root options) members path addressable)
      (resolveObject (resolveNode root' options') members' path addressable) := by
  refine Demand.Related.bind (madeAlike_resolveMembers hlook h hnodup hnodup' hmembers)
    fun r r' hr => related_done (hr.1.resolvedAlike (hunforged.imp_right fun hunforged => ?_))
  obtain ⟨-, ⟨hsome, hcollects⟩, hsome', hcollects'⟩ := hr
  exact ⟨isUnresolved_of_collects hplain hunforged.1 hlook.genuine haddress hsome hcollects,
    isUnresolved_of_collects hplain' hunforged.2 hlook.genuine' haddress' hsome' hcollects'⟩

end Resolved

end Object

/-! ### Values -/

section Node

variable (hroot : RootsAlike secret root root') (hoptions : OptionsAlike secret options options')
  (hlook : LooksAlike secret root root' look look') {path : Path}
include hroot hoptions hlook

lemma resolvesAlike_node (h : Reordered node node') (hdistinct : Distinct node)
    (hdistinct' : Distinct node')
    (hunforged : secret = ∅ ∨ Everywhere NoForgedMarker node ∧ Everywhere NoForgedMarker node')
    {addressable : Bool}
    (haddress : addressable = true → valueAt (.object .plain root) path = some node)
    (haddress' : addressable = true → valueAt (.object .plain root') path = some node') :
    ResolvesAlike secret look look' (resolveNode root options node path addressable)
      (resolveNode root' options' node' path addressable) := by
  induction node using partsInduction generalizing node' path addressable with
  | h node ih =>
  have hparts : PartsAlike secret root root' options options' look look' (IsPart · node)
      (IsPart · node') := by
    intro part part' hpart hpart' hrel path
    refine ih part hpart hrel (hdistinct.part hpart) (hdistinct'.part hpart') ?_
      (fun h => by cases h) (fun h => by cases h)
    exact hunforged.imp_right fun h => ⟨h.1.part hpart, h.2.part hpart'⟩
  rw [resolveNode_eq, resolveNode_eq root' options']
  cases node with
  | undefined =>
    cases h
    exact resolvesAlike_nothing
  | list items =>
    obtain ⟨items', rfl, hitems⟩ := h.list_left
    exact resolvesAlike_list hparts hitems (fun item hmem => .item hmem)
      (fun item hmem => .item hmem) path
  | object prototype members =>
    have hsubstitution := h.isSubstitution_eq
    have hconcatenation := h.isConcatenation_eq
    obtain ⟨members', rfl, hmembers⟩ := h.object_left
    rw [resolveStep, resolveStep, ← hsubstitution, ← hconcatenation]
    split_ifs with hsub hconcat
    · exact resolvesAlike_substitution hroot hoptions hlook hparts (referenceOf_reordered hmembers)
        (fun part hpart => isPart_of_previous hpart) (fun part hpart => isPart_of_previous hpart)
        path .value
    · exact resolvesAlike_concatenation hroot hoptions hlook hparts hmembers (fun part hpart => hpart)
        (fun part hpart => hpart) path
    · have hplain : (ConfigValue.object prototype members).isUnresolved = false := by
        rw [isUnresolved, Bool.or_eq_false_iff]
        exact ⟨Bool.eq_false_iff.2 hsub, Bool.eq_false_iff.2 hconcat⟩
      refine resolvesAlike_object hlook hmembers hdistinct.nodup hdistinct'.nodup
        (fun key child child' hchild hchild' => ?_) hplain (h.isUnresolved_eq ▸ hplain)
        (hunforged.imp_right fun h => ⟨h.1.1, h.2.1⟩)
        (fun haddr key child hchild => valueAt_concat (haddress haddr) hchild)
        fun haddr key child hchild => valueAt_concat (haddress' haddr) hchild
      exact hparts child child' (.member (mem_of_lookup_eq_some hchild))
        (.member (mem_of_lookup_eq_some hchild')) (hmembers.of_lookup hchild hchild') (path ++ [key])
  | _ =>
    cases h
    exact related_done (resolvedAlike_reordered (.refl _) _)

lemma resolvesAlike_fieldBody (hasked : Asked root path) :
    ResolvesAlike secret look look' (fieldBody root options path) (fieldBody root' options' path) := by
  rw [fieldBody, fieldBody]
  obtain ⟨hnone, hnone'⟩ | ⟨node, node', hnode, hnode', hrel⟩ :=
    rel_cases (hroot.reordered.valueAt path)
  · rw [hnone, hnone']
    exact resolvesAlike_nothing
  · rw [hnode, hnode']
    refine resolvesAlike_node hroot hoptions hlook hrel (hroot.distinct.valueAt hnode)
      (hroot.distinct'.valueAt hnode') (hroot.unforged.imp_right fun h => ⟨?_, ?_⟩)
      (fun _ => hnode) (fun _ => hnode')
    · exact h.1.valueAt hasked hnode
    · exact h.2.valueAt (fun hnil => hroot.reordered.isUnresolved_eq ▸ hasked hnil) hnode'

lemma related_resolveRoot :
    Demand.Related look look' (fun resolved resolved' => ∃ tree tree',
        resolved.value = some (.object .plain tree) ∧ resolved'.value = some (.object .plain tree') ∧
        MadeAlike secret (tree, resolved.provenance) (tree', resolved'.provenance))
      (resolveRoot root options) (resolveRoot root' options') := by
  refine Demand.Related.bind (madeAlike_resolveMembers hlook hroot.members hroot.distinct.nodup
    hroot.distinct'.nodup fun key child child' hchild hchild' => ?_)
    fun r r' hr => related_done ⟨r.1, r'.1, rfl, rfl, hr.1⟩
  have hpart : IsPart child (.object .plain root) := .member (mem_of_lookup_eq_some hchild)
  have hpart' : IsPart child' (.object .plain root') := .member (mem_of_lookup_eq_some hchild')
  refine resolvesAlike_node hroot hoptions hlook (hroot.members.of_lookup hchild hchild')
    (hroot.distinct.part hpart) (hroot.distinct'.part hpart') (hroot.unforged.imp_right fun h => ?_)
    (fun h => by cases h) (fun h => by cases h)
  exact ⟨h.1 _ (mem_of_lookup_eq_some hchild), h.2 _ (mem_of_lookup_eq_some hchild')⟩

end Node

end Walk

end ActorTs.Config
