import ActorTs.Config.ForbiddenKeys

/-!
# The trees that can be built

A tree is built by a parse, from what code hands over, and from trees by resolving,
stripping, merging and copying. Which trees are clean depends on nothing but the values
that code hands over: on what a copy of them takes over as it is.
-/

namespace ActorTs.Config

open ConfigValue

mutual

theorem cleanMembers_stripUndefined : ∀ {members : List (JsString × ConfigValue)},
    CleanMembers members → CleanMembers (stripUndefined members)
  | [], h => h
  | (key, value) :: rest, h => by
    obtain ⟨⟨hkey, hvalue⟩, hrest⟩ := cleanMembers_cons.1 h
    have hstrip := cleanMembers_stripUndefined hrest
    have hentry := clean_stripEntry hvalue
    rw [stripUndefined.eq_def]
    dsimp only
    split
    · exact hstrip
    · rw [hkey]
      exact cleanMembers_cons.2 ⟨⟨hkey, hentry⟩, hstrip⟩

theorem clean_stripEntry : ∀ {value : ConfigValue}, Clean value → Clean (stripEntry value)
  | .object prototype members, h => by
    rw [stripEntry]
    split_ifs
    · exact clean_object_iff.2 (cleanMembers_stripUndefined (clean_object_iff.1 h))
    · exact h
  | .list items, h => .list fun item hitem => clean_list_iff.1 h item (List.mem_filter.1 hitem).1
  | .undefined, h => h
  | .host _ _, h => h
  | .null, h => h
  | .bool _, h => h
  | .num _, h => h
  | .str _, h => h

end

/-- A tree that was built from values that code handed over. -/
inductive Built (given : ConfigValue → Prop) : ConfigObject → Prop
  | parsed {source : JsString} {tree : ConfigObject} (h : parseHocon source = .ok tree) :
      Built given tree
  | resolved {tree : ConfigObject} {options : ResolveLayerOptions} {layer : ResolvedLayer}
      (htree : Built given tree)
      (hfallback : ∀ fallback, options.fallback = some fallback → Built given fallback)
      (h : resolveLayer tree options = .ok layer) : Built given layer.tree
  | stripped {tree : ConfigObject} (htree : Built given tree) : Built given (stripUndefined tree)
  | handed {value : ConfigValue} {tree : ConfigObject} (hvalue : given value)
      (h : fromObject (.value value) = .ok tree) : Built given tree
  | config {tree tree' : ConfigObject} (htree : Built given tree)
      (h : fromObject (.config tree) = .ok tree') : Built given tree'
  | merged {tree overlay : ConfigObject} (htree : Built given tree)
      (hoverlay : Built given overlay) : Built given (merge tree overlay)
  | fallback {tree other : ConfigObject} (htree : Built given tree)
      (hother : Built given other) : Built given (withFallback tree other)
  | copied {tree copy : ConfigObject} (htree : Built given tree)
      (h : toJSON tree = .ok copy) : Built given copy

lemma TakenOver.clean {part : ConfigValue} {members : ConfigObject} (h : TakenOver part members)
    (hmembers : CleanMembers members) : Clean part := by
  have hcopied : ∀ {value : ConfigValue} {members : ConfigObject}, Copied value members →
      CleanMembers members → Clean value := by
    intro value members hvalue hmembers
    cases hvalue with
    | value hmem => exact (hmembers _ hmem).2
    | item hmem hkey hitem => exact clean_list_iff.1 (hmembers _ hmem).2 value hitem
  induction h with
  | here h => exact hcopied h hmembers
  | inside h hplain _ ih => exact ih ((hcopied h hmembers).plain? hplain)

lemma fromObject_value_eq_ok {value : ConfigValue} {tree : ConfigObject}
    (h : fromObject (.value value) = .ok tree) :
    (value.plain? = none ∧ tree = []) ∨
      ∃ members, value.plain? = some members ∧ cloneTree (some []) members = .ok tree := by
  rw [fromObject.eq_def] at h
  split at h
  · rename_i heq
    cases heq
  · cases h
  · rename_i heq
    cases heq
    cases h
    exact .inl ⟨rfl, rfl⟩
  · rename_i heq
    cases heq
    cases h
    exact .inl ⟨rfl, rfl⟩
  · rename_i heq
    cases heq
    split at h
    · cases h
    · rename_i members hplain
      split_ifs at h
      exact .inr ⟨members, hplain, h⟩

lemma Built.cleanMembers {given : ConfigValue → Prop}
    (hgiven : ∀ value members tree, given value → value.plain? = some members →
      fromObject (.value value) = .ok tree → ∀ part, TakenOver part members → Clean part)
    {tree : ConfigObject} (h : Built given tree) : CleanMembers tree := by
  induction h with
  | parsed h => exact cleanMembers_parseHocon h
  | resolved _ _ h _ ih => exact cleanMembers_resolveLayer ih h
  | stripped _ ih => exact cleanMembers_stripUndefined ih
  | handed hvalue h =>
    obtain ⟨-, rfl⟩ | ⟨members, hplain, hclone⟩ := fromObject_value_eq_ok h
    · exact cleanMembers_nil
    · rw [cleanMembers_cloneTree_iff _ hclone, ← takenOver_clean_iff]
      exact hgiven _ members _ hvalue hplain h
  | config _ h ih =>
    cases h
    exact ih
  | merged _ _ ih ih' => exact cleanMembers_deepMerge ih ih'
  | fallback _ _ ih ih' => exact cleanMembers_deepMerge ih' ih
  | copied _ h ih =>
    rw [cleanMembers_cloneTree_iff _ h, ← takenOver_clean_iff]
    exact fun part hpart => hpart.clean ih

/-- A parse ends on every text, and no tree has a forbidden key at any depth, exactly when no value
that code handed over has one in a list that is an item of a list, or in an object that stands for a
substitution. -/
theorem built_clean_iff (given : ConfigValue → Prop) :
    ((∀ source, parseHocon source ≠ .error .exhausted) ∧
      ∀ tree, Built given tree → Clean (.object .plain tree)) ↔
    ∀ value members tree, given value → value.plain? = some members →
      fromObject (.value value) = .ok tree → ∀ part, TakenOver part members → Clean part := by
  constructor
  · rintro ⟨-, h⟩ value members tree hvalue hplain htree
    have hclean := clean_object_iff.1 (h tree (.handed hvalue htree))
    obtain ⟨hnone, -⟩ | ⟨members', hplain', hclone⟩ := fromObject_value_eq_ok htree
    · cases hplain.symm.trans hnone
    · cases hplain.symm.trans hplain'
      rwa [takenOver_clean_iff, ← cleanMembers_cloneTree_iff _ hclone]
  · exact fun h => ⟨parseHocon_ne_exhausted, fun tree htree => clean_object_iff.2 (htree.cleanMembers h)⟩

/-- A list inside a list keeps what `JSON.parse` makes of a text that names `__proto__`. -/
theorem nested_list_keeps_forbidden_key :
    let inner := ConfigValue.object .plain [("__proto__", .bool true)]
    let value := ConfigValue.object .plain [("a", .list [.list [inner]])]
    ∃ tree, fromObject (.value value) = .ok tree ∧ ¬ Clean (.object .plain tree) := by
  refine ⟨_, rfl, fun h => ?_⟩
  have houter := (clean_object_iff.1 h _ List.mem_cons_self).2
  have hlist := clean_list_iff.1 houter _ List.mem_cons_self
  have hinner := clean_object_iff.1 (clean_list_iff.1 hlist _ List.mem_cons_self)
  exact absurd (hinner _ List.mem_cons_self).1 (by decide)

end ActorTs.Config
