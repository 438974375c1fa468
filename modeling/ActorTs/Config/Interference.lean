import ActorTs.Config.TwoRuns

/-!
# What a resolution depends on

Two layers that are resolved side by side both throw, or both have the same variables behind the
same leaves, with differences at leaves of secret variables only. With no secret this is that the
order of keys does not matter; with one variable it is that its name stands at every leaf its value
can be read from, unless a substitution can come to mark an object.

What the machine remembers is what a field resolves to afresh, in every state it reaches.
-/

namespace ActorTs.Config

open ConfigValue OrderedMap Demand

section Fields

variable {secret : Set JsString} {root root' : ConfigObject} {options options' : ResolveLayerOptions}

lemma genuine_valueWithin (root : ConfigObject) (options : ResolveLayerOptions) (n : ℕ) :
    Genuine root (valueWithin (fieldBody root options) n) := by
  intro path node resolved hnode hunresolved hlook hvalue
  cases n with
  | zero => cases hlook
  | succ n =>
    rw [valueWithin, fieldBody, hnode] at hlook
    exact eq_true_of_resolveNode hunresolved hlook hvalue

lemma looksAlike_valueWithin (hroot : RootsAlike secret root root')
    (hoptions : OptionsAlike secret options options') (n : ℕ) :
    LooksAlike secret root root' (valueWithin (fieldBody root options) n)
      (valueWithin (fieldBody root' options') n) := by
  refine ⟨fun path hasked => ?_, genuine_valueWithin root options n,
    genuine_valueWithin root' options' n⟩
  induction n generalizing path with
  | zero => exact .none
  | succ n ih =>
    exact resolvesAlike_fieldBody hroot hoptions
      ⟨ih, genuine_valueWithin root options n, genuine_valueWithin root' options' n⟩ hasked

end Fields

/-- Both throw, or both give a layer and the layers are related. -/
def OutcomesAlike (R : ResolvedLayer → ResolvedLayer → Prop) :
    Except (Demand.Fault JsString) ResolvedLayer →
      Except (Demand.Fault JsString) ResolvedLayer → Prop
  | .ok layer, .ok layer' => R layer layer'
  | .error (.thrown _), .error (.thrown _) => True
  | _, _ => False

lemma OutcomesAlike.imp {R S : ResolvedLayer → ResolvedLayer → Prop}
    {x y : Except (Fault JsString) ResolvedLayer} (h : OutcomesAlike R x y)
    (hRS : ∀ layer layer', R layer layer' → S layer layer') : OutcomesAlike S x y := by
  rcases x with (_ | _) | layer
  · exact h
  · rcases y with (_ | _) | layer'
    · exact h
    · trivial
    · exact h
  · rcases y with fault | layer'
    · exact h
    · exact hRS layer layer' h

lemma resolveLayer_cases (root : ConfigObject) (options : ResolveLayerOptions) :
    (∃ layer, resolveLayer root options = .ok layer) ∨
      ∃ message, resolveLayer root options = .error (.thrown message) := by
  have hne := resolveLayer_ne_exhausted root options
  cases hlayer : resolveLayer root options with
  | ok layer => exact .inl ⟨layer, rfl⟩
  | error fault =>
    cases fault with
    | exhausted => exact absurd hlayer hne
    | thrown message => exact .inr ⟨message, rfl⟩

section Layers

variable {secret : Set JsString} {root root' : ConfigObject} {options options' : ResolveLayerOptions}

lemma resolveLayer_alike (hroot : RootsAlike secret root root')
    (hoptions : OptionsAlike secret options options') :
    OutcomesAlike (fun layer layer' =>
        MadeAlike secret (layer.tree, layer.variablesByPath) (layer'.tree, layer'.variablesByPath))
      (resolveLayer root options) (resolveLayer root' options') := by
  have hrelated := fun n =>
    related_resolveRoot hroot hoptions (looksAlike_valueWithin hroot hoptions n)
  rcases resolveLayer_cases root options with ⟨layer, hlayer⟩ | ⟨message, hmessage⟩
  · obtain ⟨resolved, ⟨n, hn⟩, rfl⟩ := (resolveLayer_eq_ok_iff root options).1 hlayer
    obtain ⟨hnone, -⟩ | ⟨r, r', hr, hr', tree, tree', htree, htree', hmade⟩ :=
      rel_cases (hrelated n)
    · cases hn.symm.trans hnone
    · cases hn.symm.trans hr
      have hlayer' := (resolveLayer_eq_ok_iff root' options').2 ⟨r', ⟨n, hr'⟩, rfl⟩
      rw [hlayer, hlayer', htree, htree']
      exact hmade
  · rcases resolveLayer_cases root' options' with ⟨layer', hlayer'⟩ | ⟨message', hmessage'⟩
    · obtain ⟨resolved', ⟨n, hn⟩, rfl⟩ := (resolveLayer_eq_ok_iff root' options').1 hlayer'
      obtain ⟨-, hnone⟩ | ⟨r, r', hr, -⟩ := rel_cases (hrelated n)
      · cases hn.symm.trans hnone
      · have hlayer := (resolveLayer_eq_ok_iff root options).2 ⟨r, ⟨n, hr⟩, rfl⟩
        cases hmessage.symm.trans hlayer
    · rw [hmessage, hmessage']
      trivial

end Layers

/-- The resolution of a field by a machine that remembers nothing. -/
def resolveAfresh (root : ConfigObject) (options : ResolveLayerOptions) (path : Path) :
    Except (Demand.Fault JsString) Resolved :=
  Prod.fst <$> Demand.field (fieldBody root options) cycleError
    (fieldPaths (.object .plain root)).length [] path []

/-- What a machine can remember: what one resolution after the other leaves, each of any
field, with any fields open. -/
inductive Remembers (root : ConfigObject) (options : ResolveLayerOptions) :
    List (Path × Resolved) → Prop
  | start : Remembers root options []
  | resolve {known known' : List (Path × Resolved)} {fuel : ℕ} {opened : List Path} {path : Path}
      {resolved : Resolved} (h : Remembers root options known)
      (hfield : Demand.field (fieldBody root options) cycleError fuel opened path known =
        .ok (resolved, known')) : Remembers root options known'

section Memo

variable {root : ConfigObject} {options : ResolveLayerOptions}

lemma Remembers.known {known : List (Path × Resolved)} (h : Remembers root options known) :
    Known (fieldBody root options) known := by
  induction h with
  | start => exact known_nil _
  | resolve _ hfield ih => exact (field_sound ih hfield).2

lemma length_fieldPaths_pos (root : ConfigObject) :
    0 < (fieldPaths (.object .plain root)).length := by
  exact Nat.succ_pos _

lemma resolveAfresh_of_hasValue {path : Path} {resolved : Resolved}
    (h : HasValue (fieldBody root options) path resolved) :
    resolveAfresh root options path = .ok resolved := by
  have hknown := known_nil (fieldBody root options)
  cases hnode : valueAt (.object .plain root) path with
  | none =>
    have hbody : fieldBody root options path = .done nothing := by
      rw [fieldBody, hnode]
      rfl
    rw [hasValue_iff, hbody, hasResult_done] at h
    obtain ⟨length, hlength⟩ := Nat.exists_eq_succ_of_ne_zero (length_fieldPaths_pos root).ne'
    rw [resolveAfresh, hlength, field, visit_compute rfl List.not_mem_nil, hbody]
    exact congrArg _ h
  | some node =>
    have hasks : (resolveField path).AsksIn (fieldPaths (.object .plain root)) :=
      ⟨mem_fieldPaths hnode, fun _ _ => trivial⟩
    have hresult : HasResult (fieldBody root options) (resolveField path) resolved :=
      hasResult_ask.2 ⟨resolved, h, hasResult_done.2 rfl⟩
    obtain ⟨known, hserve, -⟩ : ∃ known, serve (field (fieldBody root options) cycleError
        (fieldPaths (.object .plain root)).length []) (resolveField path) [] =
          .ok (resolved, known) ∧ Known (fieldBody root options) known :=
      serve_of_hasResult (fun k _ => asksIn_fieldBody root options k) le_rfl hasks hknown hresult
    obtain ⟨⟨resolved', known'⟩, hfield, hdone⟩ := Outcome.bind_eq_ok hserve
    cases hdone
    rw [resolveAfresh, hfield]
    rfl

end Memo

/-- Resolution ends, it does not depend on the order of keys at any depth, and what it
remembers of a field is what the field resolves to afresh. -/
theorem resolveLayer_of_reordered (tree tree' : Tree) (options : ResolveLayerOptions)
    (h : MembersReordered tree.members tree'.members) :
    resolveLayer tree.members options ≠ .error .exhausted ∧
    OutcomesAlike (fun layer layer' => MembersReordered layer.tree layer'.tree ∧
        layer.variablesByPath.Agrees layer'.variablesByPath)
      (resolveLayer tree.members options) (resolveLayer tree'.members options) ∧
    ∀ known, Remembers tree.members options known → ∀ path resolved,
      lookup path known = some resolved → resolveAfresh tree.members options path = .ok resolved := by
  refine ⟨resolveLayer_ne_exhausted _ _, ?_, fun known hknown path resolved hlook => ?_⟩
  · have hroot : RootsAlike ∅ tree.members tree'.members := ⟨h, tree.distinct, tree'.distinct, .inl rfl⟩
    refine (resolveLayer_alike hroot (OptionsAlike.refl ∅ options)).imp fun layer layer' hmade => ?_
    refine ⟨fun key => ?_, hmade.provenance⟩
    obtain ⟨hnone, hnone'⟩ | ⟨value, value', hvalue, hvalue', hrel⟩ := rel_cases (hmade.members key)
    · dsimp only at hnone hnone'
      rw [hnone, hnone']
      exact .none
    · dsimp only at hvalue hvalue'
      rw [hvalue, hvalue']
      refine .some (hrel.reordered_of_untainted fun leaf hleaf => ?_)
      obtain ⟨-, name, hname, -⟩ := hleaf
      exact hname
  · exact resolveAfresh_of_hasValue (hknown.known path resolved hlook)

lemma distinct_toValue (substitution : Substitution) : Distinct substitution.toValue := by
  have hnodup : ["__substitution".toJs, "path".toJs, "optional".toJs].Nodup := by decide
  refine distinct_object.2 ⟨hnodup, fun member hmem => distinct_of_text? ?_⟩
  simp only [List.mem_cons, List.not_mem_nil, or_false] at hmem
  rcases hmem with rfl | rfl | rfl <;> rfl

/-- A text, and a field that refers to it. -/
def hostAndUrl : Tree where
  members := [("host", .str "db"), ("url", Substitution.toValue ⟨"host", false⟩)]
  distinct := by
    refine distinct_object.2 ⟨by decide, fun member hmem => ?_⟩
    simp only [List.mem_cons, List.not_mem_nil, or_false] at hmem
    rcases hmem with rfl | rfl
    · exact distinct_of_text? rfl
    · exact distinct_toValue _

def urlAndHost : Tree where
  members := hostAndUrl.members.reverse
  distinct := by
    have hdistinct := distinct_object.1 hostAndUrl.distinct
    refine distinct_object.2 ⟨by decide, fun member hmem => ?_⟩
    exact hdistinct.2 member (List.mem_reverse.1 hmem)

def noVariables : ResolveLayerOptions := ⟨[], none, none, id⟩

theorem resolveLayer_of_reordered_hostAndUrl :
    OutcomesAlike (fun layer layer' => MembersReordered layer.tree layer'.tree ∧
        layer.variablesByPath.Agrees layer'.variablesByPath)
      (resolveLayer hostAndUrl.members noVariables) (resolveLayer urlAndHost.members noVariables) := by
  refine (resolveLayer_of_reordered hostAndUrl urlAndHost noVariables fun key => ?_).2.1
  have hlook : lookup key urlAndHost.members = lookup key hostAndUrl.members := by
    by_cases hurl : "url" = key
    · subst hurl
      rfl
    · by_cases hhost : "host" = key
      · subst hhost
        rfl
      · simp [urlAndHost, hostAndUrl, lookup, hurl, hhost]
  rw [hlook]
  exact rel_refl .refl _

def leafValue (tree : ConfigObject) : Path → Option ConfigValue
  | [] => none
  | key :: rest => (lookup key tree).bind (readData · rest)

/-- The same leaves, and the same value at each one that the variable is not behind. -/
def Withholds (name : JsString) (layer layer' : ResolvedLayer) : Prop :=
  (∀ leaf, leaf ∈ leafPathsOf layer.tree ↔ leaf ∈ leafPathsOf layer'.tree) ∧
  ∀ leaf ∈ leafPathsOf layer.tree, name ∉ (layer.variablesByPath.get? leaf).getD ∅ →
    Option.Rel Reordered (leafValue layer.tree leaf) (leafValue layer'.tree leaf)

lemma MadeAlike.withholds {name : JsString} {layer layer' : ResolvedLayer}
    (h : MadeAlike {name} (layer.tree, layer.variablesByPath) (layer'.tree, layer'.variablesByPath)) :
    Withholds name layer layer' := by
  have hpair : ∀ key value value', lookup key layer.tree = some value →
      lookup key layer'.tree = some value' →
      Alike (fun leaf => isForbiddenConfigKey key = false ∧
        Tainted {name} layer.variablesByPath (key :: leaf)) value value' := by
    intro key value value' hvalue hvalue'
    have hrel := h.members key
    rw [hvalue, hvalue'] at hrel
    cases hrel with
    | some hrel => exact hrel
  refine ⟨leafPathsOf_congr h.nodup h.nodup' (fun key => isSome_of_rel (h.members key))
    fun key value value' hvalue hvalue' => (hpair key value value' hvalue hvalue').mem_leafPaths_iff,
    fun leaf hleaf hname => ?_⟩
  obtain ⟨key, value, rest, rfl, -, hvalue, hrest⟩ := (mem_leafPathsOf h.nodup).1 hleaf
  obtain ⟨value', hvalue'⟩ : ∃ value', lookup key layer'.tree = some value' := by
    refine Option.isSome_iff_exists.1 ?_
    rw [← isSome_of_rel (h.members key)]
    exact Option.isSome_iff_exists.2 ⟨value, hvalue⟩
  rw [leafValue, leafValue, hvalue, hvalue']
  refine (hpair key value value' hvalue hvalue').leaf_value hrest fun htaint => hname ?_
  obtain ⟨-, name', rfl, hmem⟩ := htaint
  exact hmem

/-- When the value of one variable changes, from one text to another, a resolution throws
or not as before, and every leaf that differs names the variable. -/
theorem withholding_sound (tree : Tree) (name : JsString) (options options' : ResolveLayerOptions)
    (hoptions : OptionsAlike {name} options options') (hunforged : Unforgeable tree.members) :
    OutcomesAlike (Withholds name) (resolveLayer tree.members options)
      (resolveLayer tree.members options') := by
  have hroot : RootsAlike {name} tree.members tree.members :=
    ⟨.refl _, tree.distinct, tree.distinct, .inr ⟨hunforged, hunforged⟩⟩
  exact (resolveLayer_alike hroot hoptions).imp fun layer layer' hmade => hmade.withholds

/-- One variable that is read as `true`, and one that holds a text. -/
def flagAnd (text : JsString) : ResolveLayerOptions where
  environment := [fun name =>
    if name = "FLAG" then some "true"
    else if name = "PASSWORD" then some text else none]
  fallback := none
  fallbackVariables := none
  toUpperCase := id

lemma flagAnd_alike : OptionsAlike {"PASSWORD".toJs} (flagAnd "one".toJs) (flagAnd "two".toJs) := by
  refine ⟨.cons (fun name => ?_) .nil, rfl, .none, rfl⟩
  split_ifs with hflag hpassword
  · exact .inl rfl
  · exact .inr ⟨hpassword, _, _, rfl, rfl, by decide +kernel, by decide +kernel⟩
  · exact .inl rfl

lemma everywhere_toValue (substitution : Substitution) :
    Everywhere NoForgedMarker substitution.toValue := by
  refine everywhere_object.2 ⟨fun members hplain => (by cases hplain), fun member hmem => ?_⟩
  simp only [List.mem_cons, List.not_mem_nil, or_false] at hmem
  rcases hmem with rfl | rfl | rfl <;>
    exact (everywhere_of_text? rfl).2 fun members hplain => (by cases hplain)

/-- An object whose field is the password. -/
def loginTree : Tree where
  members := [("login",
    .object .plain [("password", Substitution.toValue ⟨"PASSWORD", false⟩)])]
  distinct := by
    refine distinct_object.2 ⟨by decide, fun member hmem => ?_⟩
    rw [List.mem_singleton.1 hmem]
    refine distinct_object.2 ⟨by decide, fun member hmem => ?_⟩
    rw [List.mem_singleton.1 hmem]
    exact distinct_toValue _

theorem withholding_sound_login :
    OutcomesAlike (Withholds "PASSWORD") (resolveLayer loginTree.members (flagAnd "one"))
      (resolveLayer loginTree.members (flagAnd "two")) := by
  refine withholding_sound loginTree _ _ _ flagAnd_alike fun member hmem => ?_
  rw [List.mem_singleton.1 hmem]
  refine everywhere_object.2 ⟨fun members hplain marker hmarker child hchild => ?_,
    fun member hmem => ?_⟩
  · cases hplain
    simp only [List.mem_cons, List.not_mem_nil, or_false] at hmarker
    rcases hmarker with rfl | rfl <;> cases hchild
  · rw [List.mem_singleton.1 hmem]
    exact everywhere_toValue _

/-- The same object, with a mark that a variable answers. -/
def forgedTree : Tree where
  members := [("login", .object .plain
    [("__substitution", Substitution.toValue ⟨"FLAG", false⟩),
      ("password", Substitution.toValue ⟨"PASSWORD", false⟩)])]
  distinct := by
    refine distinct_object.2 ⟨by decide, fun member hmem => ?_⟩
    rw [List.mem_singleton.1 hmem]
    refine distinct_object.2 ⟨by decide, fun member hmem => ?_⟩
    simp only [List.mem_cons, List.not_mem_nil, or_false] at hmem
    rcases hmem with rfl | rfl <;> exact distinct_toValue _

/-- What the object resolves to. -/
def forgedLogin (password : JsString) : ConfigObject :=
  [("login", .object .plain
    [("__substitution", .bool true), ("password", .str password)])]

/-- The object that reads as a substitution is one leaf, which names no variable. -/
theorem not_withholding_forged :
    ¬ ∀ (tree : Tree) (name : JsString) (options options' : ResolveLayerOptions),
      OptionsAlike {name} options options' →
        OutcomesAlike (Withholds name) (resolveLayer tree.members options)
          (resolveLayer tree.members options') := by
  intro h
  have halike := h forgedTree _ _ _ flagAnd_alike
  have hlayer : ∀ text ∈ ["one", "two"], ∃ provenance,
      resolveLayer forgedTree.members (flagAnd text) = .ok ⟨forgedLogin text, provenance⟩ ∧
        provenance.get? ["login"] = none := by
    intro text htext
    simp only [List.mem_cons, List.not_mem_nil, or_false] at htext
    rcases htext with rfl | rfl <;> exact ⟨_, rfl, rfl⟩
  obtain ⟨provenance, hone, hnone⟩ := hlayer "one" (by simp)
  obtain ⟨provenance', htwo, -⟩ := hlayer "two" (by simp)
  rw [hone, htwo] at halike
  have hleaf : ["login".toJs] ∈ leafPathsOf (forgedLogin "one".toJs) := by decide
  have hname : "PASSWORD".toJs ∉ (provenance.get? ["login".toJs]).getD ∅ := by
    rw [hnone]
    exact Finset.notMem_empty _
  have hvalues : Option.Rel Reordered (some (ConfigValue.object .plain
        [("__substitution", .bool true), ("password", .str "one")]))
      (some (ConfigValue.object .plain
        [("__substitution", .bool true), ("password", .str "two")])) :=
    halike.2 ["login"] hleaf hname
  cases hvalues with
  | some hrel =>
    obtain ⟨members, heq, hmembers⟩ := hrel.object_left
    cases heq
    have hpassword : Reordered (.str "one") (.str "two") :=
      hmembers.of_lookup (show lookup "password".toJs _ = _ from rfl) rfl
    exact absurd (ConfigValue.str.inj (hpassword.eq_of_text? rfl)) (by decide)

end ActorTs.Config
