import ActorTs.Serialization.JsonTreeRoundTrip

/-!
# The tagged tree as text

A tree that the encoder writes is its own normal form, so JSON text holds it
without loss: `roundTrip` is `JSON.parse` behind `JSON.stringify` between the two
walkers. `roundTrip_lossless` is the round trip on the values that the format is
for, and `roundTrip_ok_iff` says when a value that was encoded is read at all.
-/

namespace ActorTs.Serialization

open Outcome Value

variable {runtime : Runtime} {undefinedValues : UndefinedValueHandling}

/-! ### Encoded trees are in normal form -/

lemma normal_wrap (tag : Tag) {inner : Json} (h : inner.normal = inner) :
    (tag.wrap inner).normal = tag.wrap inner :=
  Json.normal_obj (by simp) (by simpa using h)

lemma normal_encodeNumber (x : JsNumber) : (encodeNumber x).normal = encodeNumber x := by
  cases x with
  | nan => exact normal_wrap _ rfl
  | infinity negative => cases negative <;> exact normal_wrap _ rfl
  | finite y =>
    rw [encodeNumber]
    split
    · exact normal_wrap _ rfl
    · next h =>
      rw [Json.normal, Json.normalNumber]
      split
      · next hzero =>
        have hy : y = .zero false := by
          obtain ⟨-, -, -, hnormal⟩ := y.canonical
          cases y
          simp_all [FiniteDouble.zero]
        rw [hy]
      · rfl

lemma nodup_writtenKeys {properties : List (JsString × Value)}
    (h : (properties.map Prod.fst).Nodup) : (writtenKeys properties).Nodup :=
  h.sublist (List.Sublist.map Prod.fst List.filter_sublist)

lemma normal_escapeObject {out : List (JsString × Json)} (hkeys : (out.map Prod.fst).Nodup)
    (h : ∀ m ∈ out, m.2.normal = m.2) : (escapeObject out).normal = escapeObject out := by
  have hout := Json.normal_obj hkeys h
  unfold escapeObject
  split
  · split
    · exact normal_wrap _ hout
    · exact hout
  · exact hout

lemma normal_encodeText {key : JsString} {text : ErrorText} (h : textWellFormed text) :
    ∀ m ∈ encodeText key text, m.2.normal = m.2 := by
  intro m hm
  cases text with
  | string s =>
    rw [encodeText, List.mem_singleton] at hm
    rw [hm]
    rfl
  | other json text =>
    cases json with
    | none => cases hm
    | some j =>
      rw [encodeText, List.mem_singleton] at hm
      rw [hm]
      exact h

lemma nodup_errorPayload (name message : ErrorText) (cause errors : Option Json) :
    ((errorPayload name message cause errors).map Prod.fst).Nodup := by
  have htext : ∀ key (text : ErrorText), (encodeText key text).map Prod.fst ∈ [[], [key]] := by
    intro key text
    cases text with
    | string s => simp [encodeText]
    | other json text => cases json <;> simp [encodeText]
  have hoption : ∀ (key : JsString) (t : Option Json),
      (t.toList.map (Prod.mk key)).map Prod.fst ∈ [[], [key]] := by
    intro key t
    cases t <;> simp
  obtain ⟨h₁, h₂, h₃, h₄, h₅, h₆⟩ := text_keys_distinct
  simp only [errorPayload, List.map_append]
  have hname := htext "name" name
  have hmessage := htext "message" message
  have hcause := hoption "cause" cause
  have herrors := hoption "errors" errors
  simp only [List.mem_cons, List.not_mem_nil, or_false] at hname hmessage hcause herrors
  rcases hname with hname | hname <;> rcases hmessage with hmessage | hmessage <;>
    rcases hcause with hcause | hcause <;> rcases herrors with herrors | herrors <;>
    simp [hname, hmessage, hcause, herrors, h₁, h₂, h₃, h₄, h₅, h₆]

mutual

theorem normal_node : ∀ (v : Value) {path : List PathSegment} {allowToJson : Bool}
    {r : Option Json}, v.WellFormed runtime →
    encodeNode runtime undefinedValues path allowToJson v = .ok r →
    (inPosition r).normal = inPosition r
  | undefined, path, allowToJson, r, _, h => by
    have hnone := isNone_of_encodeNode h
    rw [vanishes, Option.isNone_iff_eq_none] at hnone
    rw [hnone]
    exact normal_wrap _ rfl
  | null, _, _, _, _, h | .bool _, _, _, _, _, h | string _, _, _, _, _, h => by
    cases h
    rfl
  | number x, path, allowToJson, r, _, h => by
    cases h
    exact normal_encodeNumber x
  | bigint n, path, allowToJson, r, _, h => by
    obtain ⟨t, ht, rfl⟩ := map_eq_ok h
    unfold encodeBigint at ht
    split at ht <;> cases ht
    exact normal_wrap _ rfl
  | date time, path, allowToJson, r, _, h => by
    obtain ⟨t, ht, rfl⟩ := map_eq_ok h
    cases time <;> cases ht
    exact normal_wrap _ rfl
  | bytes _, _, _, _, _, h | url _, _, _, _, _, h => by
    cases h
    exact normal_wrap _ rfl
  | binary kind data, path, allowToJson, r, _, h => by
    cases h
    have hne : "kind".toJs ≠ "data".toJs := by decide
    exact normal_wrap _ (Json.normal_obj (by simp [hne]) (by simp [Json.normal]))
  | regExp source flags, path, allowToJson, r, _, h => by
    cases h
    have hne : "source".toJs ≠ "flags".toJs := by decide
    exact normal_wrap _ (Json.normal_obj (by simp [hne]) (by simp [Json.normal]))
  | exoticView _, _, _, _, _, h | unsupportedObject _, _, _, _, _, h
  | unsupportedType _, _, _, _, _, h => by
    cases h
  | map entries, path, allowToJson, r, hv, h => by
    obtain ⟨pairs, hpairs, h⟩ := bind_eq_ok h
    cases h
    exact normal_wrap _ (Json.normal_arr (normal_entries entries hv.2.2 hpairs))
  | bidirectionalMap entries, path, allowToJson, r, hv, h => by
    obtain ⟨pairs, hpairs, h⟩ := bind_eq_ok h
    cases h
    exact normal_wrap _ (Json.normal_arr (normal_entries entries hv.2.2 hpairs))
  | bidirectionalMultiMap rows, path, allowToJson, r, hv, h => by
    obtain ⟨ts, hts, h⟩ := bind_eq_ok h
    cases h
    exact normal_wrap _ (Json.normal_arr (normal_rows rows hv.2 hts))
  | .set members, path, allowToJson, r, hv, h => by
    obtain ⟨ts, hts, h⟩ := bind_eq_ok h
    cases h
    exact normal_wrap _ (Json.normal_arr (normal_items members hv.2.2 hts))
  | array items, path, allowToJson, r, hv, h => by
    obtain ⟨ts, hts, h⟩ := bind_eq_ok h
    cases h
    exact Json.normal_arr (normal_items items hv.2 hts)
  | boxed primitive, path, allowToJson, r, hv, h => by
    exact normal_node primitive hv.2 h
  | object properties, path, allowToJson, r, hv, h => by
    obtain ⟨out, hout, h⟩ := bind_eq_ok h
    cases h
    refine normal_escapeObject ?_ (normal_properties properties hv.2.2 hout)
    rw [keys_encodeProperties hout]
    exact nodup_writtenKeys hv.2.1
  | withToJson resolved properties, path, allowToJson, r, hv, h => by
    cases allowToJson with
    | true =>
      exact normal_node resolved hv.1 h
    | false =>
      obtain ⟨out, hout, h⟩ := bind_eq_ok h
      cases h
      refine normal_escapeObject ?_ (normal_properties properties hv.2.2 hout)
      rw [keys_encodeProperties hout]
      exact nodup_writtenKeys hv.2.1
  | error name message cause errors, path, allowToJson, r, hv, h => by
    obtain ⟨c, hc, h⟩ := bind_eq_ok h
    obtain ⟨e, he, h⟩ := bind_eq_ok h
    cases h
    obtain ⟨hname, hmessage, hcause, herrors⟩ := hv
    refine normal_wrap _ (Json.normal_obj (nodup_errorPayload name message c e) fun m hm => ?_)
    rcases List.mem_append.1 hm with hm | hm
    · rcases List.mem_append.1 hm with hm | hm
      · rcases List.mem_append.1 hm with hm | hm
        · exact normal_encodeText hname m hm
        · exact normal_encodeText hmessage m hm
      · obtain ⟨t, ht, rfl⟩ := List.mem_map.1 hm
        rw [Option.mem_toList] at ht
        subst ht
        by_cases hundefined : isUndefined cause = true
        · rw [if_pos hundefined] at hc
          cases hc
        · rw [if_neg hundefined] at hc
          exact normal_node cause hcause hc
    · obtain ⟨t, ht, rfl⟩ := List.mem_map.1 hm
      rw [Option.mem_toList] at ht
      subst ht
      exact normal_errors errors herrors he

theorem normal_errors : ∀ (v : Value) {path : List PathSegment} {t : Json}, v.WellFormed runtime →
    encodeErrors runtime undefinedValues path v = .ok (some t) → t.normal = t
  | array items, path, t, hv, h => by
    obtain ⟨ts, hts, h⟩ := bind_eq_ok h
    cases h
    exact Json.normal_arr (normal_items items hv.2 hts)
  | undefined, _, _, _, h | null, _, _, _, h | .bool _, _, _, _, h | number _, _, _, _, h
  | bigint _, _, _, _, h | string _, _, _, _, h | date _, _, _, _, h | bytes _, _, _, _, h
  | binary _ _, _, _, _, h | exoticView _, _, _, _, h | regExp _ _, _, _, _, h
  | url _, _, _, _, h | map _, _, _, _, h | .set _, _, _, _, h | bidirectionalMap _, _, _, _, h
  | bidirectionalMultiMap _, _, _, _, h | error _ _ _ _, _, _, _, h | boxed _, _, _, _, h
  | unsupportedObject _, _, _, _, h | unsupportedType _, _, _, _, h | object _, _, _, _, h
  | withToJson _ _, _, _, _, h => nomatch h

theorem normal_items : ∀ (vs : List Value) {path : ℕ → List PathSegment} {index : ℕ}
    {ts : List Json}, ItemsWellFormed runtime vs →
    encodeItems runtime undefinedValues path index vs = .ok ts → ∀ t ∈ ts, t.normal = t
  | [], path, index, ts, _, h => by
    cases h
    simp
  | v :: vs, path, index, ts, hv, h => by
    obtain ⟨r, hr, h⟩ := bind_eq_ok h
    obtain ⟨rest, hrest, h⟩ := bind_eq_ok h
    cases h
    rw [List.forall_mem_cons]
    exact ⟨normal_node v hv.1 hr, normal_items vs hv.2 hrest⟩

theorem normal_entries : ∀ (es : List (Value × Value)) {path : List PathSegment} {index : ℕ}
    {ts : List Json}, EntriesWellFormed runtime es →
    encodeEntryPairs runtime undefinedValues path index es = .ok ts → ∀ t ∈ ts, t.normal = t
  | [], path, index, ts, _, h => by
    cases h
    simp
  | (k, v) :: es, path, index, ts, hv, h => by
    obtain ⟨r, hr, h⟩ := bind_eq_ok h
    obtain ⟨r', hr', h⟩ := bind_eq_ok h
    obtain ⟨rest, hrest, h⟩ := bind_eq_ok h
    cases h
    rw [List.forall_mem_cons]
    refine ⟨Json.normal_arr ?_, normal_entries es hv.2.2 hrest⟩
    simpa using ⟨normal_node k hv.1 hr, normal_node v hv.2.1 hr'⟩

theorem normal_rows : ∀ (rows : List (Value × List Value)) {path : List PathSegment} {index : ℕ}
    {ts : List Json}, RowsWellFormed runtime rows →
    encodeRows runtime undefinedValues path index rows = .ok ts → ∀ t ∈ ts, t.normal = t
  | [], path, index, ts, _, h => by
    cases h
    simp
  | (l, rs) :: rows, path, index, ts, hv, h => by
    obtain ⟨r, hr, h⟩ := bind_eq_ok h
    obtain ⟨partners, hpartners, h⟩ := bind_eq_ok h
    obtain ⟨rest, hrest, h⟩ := bind_eq_ok h
    cases h
    have hpartnersNormal := Json.normal_arr (normal_items rs hv.2.2.2.1 hpartners)
    rw [List.forall_mem_cons]
    refine ⟨Json.normal_arr ?_, normal_rows rows hv.2.2.2.2 hrest⟩
    simpa using ⟨normal_node l hv.1 hr, hpartnersNormal⟩

theorem normal_properties : ∀ (ps : List (JsString × Value)) {path : List PathSegment}
    {out : List (JsString × Json)}, PropertiesWellFormed runtime ps →
    encodeProperties runtime undefinedValues path ps = .ok out → ∀ m ∈ out, m.2.normal = m.2
  | [], path, out, _, h => by
    cases h
    simp
  | (key, v) :: ps, path, out, hv, h => by
    obtain ⟨r, hr, h⟩ := bind_eq_ok h
    obtain ⟨rest, hrest, h⟩ := bind_eq_ok h
    cases h
    intro m hm
    rcases List.mem_append.1 hm with hm | hm
    · obtain ⟨t, ht, rfl⟩ := List.mem_map.1 hm
      rw [Option.mem_toList] at ht
      subst ht
      exact normal_node v hv.2.1 hr
    · exact normal_properties ps hv.2.2 hrest m hm

end

/-! ### Through the text -/

def decodeText (runtime : Runtime) (maxNestingDepth : ℕ) (text : JsString) :
    Except SerializationError Value :=
  match Json.parse text with
  | none => fail "Unexpected token in JSON"
  | some t => decodeJsonTree runtime maxNestingDepth t

/-- Encode, write as text, read, decode. -/
def roundTrip (runtime : Runtime) (undefinedValues : UndefinedValueHandling)
    (maxNestingDepth : ℕ) (v : Value) : Except SerializationError Value := do
  let t ← encodeJsonTree runtime undefinedValues v
  decodeText runtime maxNestingDepth t.stringify

lemma encodeNode_of_encodeJsonTree {v : Value} {t : Json}
    (h : encodeJsonTree runtime undefinedValues v = .ok t) :
    encodeNode runtime undefinedValues [] true v = .ok (some t) := by
  obtain ⟨r, hr, h⟩ := bind_eq_ok h
  cases r with
  | none => cases h
  | some t' =>
    cases h
    exact hr

lemma parse_stringify_encoded {v : Value} {t : Json} (hv : v.WellFormed runtime)
    (h : encodeJsonTree runtime undefinedValues v = .ok t) : Json.parse t.stringify = some t := by
  have hnormal : t.normal = t := normal_node v hv (encodeNode_of_encodeJsonTree h)
  rw [Json.parse_stringify, hnormal]

lemma yields_decodeJsonTree {v : Value} {t : Json} (hv : v.WellFormed runtime)
    (h : encodeJsonTree runtime undefinedValues v = .ok t) (maxNestingDepth : ℕ) :
    Yields (decodeJsonTree runtime maxNestingDepth t)
      (v.levels true ≤ maxNestingDepth + 1 ∧ v.hasTexts true = true) (v.restore true) := by
  have hdecode : Yields (decodeNode runtime maxNestingDepth 0 t) _ _ :=
    yields_node v 0 hv (encodeNode_of_encodeJsonTree h)
  refine hdecode.iff (and_congr_left fun _ => ?_)
  unfold Fits
  omega

lemma yields_decodeText {v : Value} {t : Json} (hv : v.WellFormed runtime)
    (h : encodeJsonTree runtime undefinedValues v = .ok t) (maxNestingDepth : ℕ) :
    Yields (decodeText runtime maxNestingDepth t.stringify)
      (v.levels true ≤ maxNestingDepth + 1 ∧ v.hasTexts true = true) (v.restore true) := by
  rw [decodeText, parse_stringify_encoded hv h]
  exact yields_decodeJsonTree hv h maxNestingDepth

/-! ### Values that the format keeps -/

/-- The leaves that come back as they are. -/
def JsonLeaf : Value → Prop
  | undefined => True
  | null => True
  | .bool _ => True
  | number _ => True
  | string _ => True
  | bytes _ => True
  | bigint n => -(2 : ℤ) ^ 8192 ≤ n ∧ n ≤ 2 ^ 8192 - 1
  | _ => False

section Lossless

variable {leaf : Value → Prop} {key : JsString → Prop}

variable {v : Value}

lemma restore_leaf (h : JsonLeaf v) (allowToJson : Bool) :
    v.restore allowToJson = v ∧ v.withoutUndefined = v ∧ v.hasTexts allowToJson = true ∧
      v.vanishes allowToJson = isUndefined v := by
  cases v <;> first | exact ⟨rfl, rfl, rfl, rfl⟩ | exact h.elim

lemma encodeNode_leaf (h : JsonLeaf v) (path : List PathSegment) (allowToJson : Bool) :
    ∃ r, encodeNode runtime .omit path allowToJson v = .ok r := by
  cases v with
  | undefined => exact ⟨none, by rw [encodeNode, encodeUndefined]⟩
  | bigint n =>
    refine ⟨some (Tag.bigint.wrap (.str (bigintText n))), ?_⟩
    rw [encodeNode, encodeBigint, outsideBignumRange_iff.2 h, if_neg Bool.false_ne_true]
    rfl
  | _ => first | exact ⟨_, by rw [encodeNode]⟩ | exact h.elim

lemma restore_eq_or_reference (h : BuiltFrom JsonLeaf key v) :
    v.restore true = v ∨ isPrimitive v = false ∧ isPrimitive (v.restore true) = false := by
  cases h with
  | leaf h => exact .inl (restore_leaf h true).1
  | array h => exact .inr ⟨rfl, rfl⟩
  | set h => exact .inr ⟨rfl, rfl⟩
  | map h h' => exact .inr ⟨rfl, rfl⟩
  | object h h' => exact .inr ⟨rfl, rfl⟩

lemma sameValueZero_restore {w : Value} (hv : BuiltFrom JsonLeaf key v)
    (hw : BuiltFrom JsonLeaf key w) :
    sameValueZero (v.restore true) (w.restore true) = sameValueZero v w := by
  rcases restore_eq_or_reference hv with hv | hv
  · rcases restore_eq_or_reference hw with hw | hw
    · rw [hv, hw]
    · rw [(sameValueZero_of_reference hw.1 v).2, (sameValueZero_of_reference hw.2 _).2]
  · rw [(sameValueZero_of_reference hv.1 w).1, (sameValueZero_of_reference hv.2 _).1]

lemma isNegativeZero_restore (hv : BuiltFrom JsonLeaf key v) :
    isNegativeZero (v.restore true) = isNegativeZero v := by
  rcases restore_eq_or_reference hv with hv | hv
  · rw [hv]
  · rw [isNegativeZero_of_reference hv.1, isNegativeZero_of_reference hv.2]

lemma keysDistinct_restore {keys : List Value} (h : KeysDistinct keys)
    (hkeys : ∀ k ∈ keys, BuiltFrom JsonLeaf key k) :
    KeysDistinct (keys.map (restore true)) := by
  constructor
  · rw [List.pairwise_map]
    refine h.1.imp_of_mem fun {a b} ha hb hab => ?_
    rw [sameValueZero_restore (hkeys b hb) (hkeys a ha), hab]
  · intro k hk
    obtain ⟨k', hk', rfl⟩ := List.mem_map.1 hk
    rw [isNegativeZero_restore (hkeys k' hk'), h.2 k' hk']

lemma restoreItems_eq_map (vs : List Value) : restoreItems vs = vs.map (restore true) := by
  induction vs with
  | nil => rfl
  | cons v vs ih => rw [restoreItems, ih, List.map_cons]

lemma keys_restoreEntries (es : List (Value × Value)) :
    (restoreEntries es).map Prod.fst = (es.map Prod.fst).map (restore true) := by
  induction es with
  | nil => rfl
  | cons e es ih => rw [restoreEntries, List.map_cons, ih, List.map_cons, List.map_cons]

/-- The value is encoded and comes back, less what is undefined in its objects. -/
structure Kept (runtime : Runtime) (v : Value) : Prop where
  restored : v.restore true = v.withoutUndefined
  texts : v.hasTexts true = true
  vanishes : v.vanishes true = isUndefined v
  encoded : ∀ path, ∃ r, encodeNode runtime .omit path true v = .ok r

lemma kept_items {vs : List Value} (h : ∀ v ∈ vs, Kept runtime v) :
    restoreItems vs = itemsWithoutUndefined vs ∧ itemsHaveTexts vs = true ∧
      ∀ path index, ∃ ts, encodeItems runtime .omit path index vs = .ok ts := by
  induction vs with
  | nil => exact ⟨rfl, rfl, fun path index => ⟨[], by rw [encodeItems]⟩⟩
  | cons v vs ih =>
    rw [List.forall_mem_cons] at h
    obtain ⟨hrestored, htexts, hencoded⟩ := ih h.2
    refine ⟨?_, ?_, fun path index => ?_⟩
    · rw [restoreItems, itemsWithoutUndefined, h.1.restored, hrestored]
    · rw [itemsHaveTexts, h.1.texts, htexts, Bool.and_self]
    · obtain ⟨r, hr⟩ := h.1.encoded (path index)
      obtain ⟨ts, hts⟩ := hencoded path (index + 1)
      exact ⟨inPosition r :: ts, by rw [encodeItems, hr, hts]; rfl⟩

lemma kept_entries {es : List (Value × Value)} (hkeys : ∀ e ∈ es, Kept runtime e.1)
    (hvalues : ∀ e ∈ es, Kept runtime e.2) :
    restoreEntries es = entriesWithoutUndefined es ∧ entriesHaveTexts es = true ∧
      ∀ path index, ∃ ts, encodeEntryPairs runtime .omit path index es = .ok ts := by
  induction es with
  | nil => exact ⟨rfl, rfl, fun path index => ⟨[], by rw [encodeEntryPairs]⟩⟩
  | cons e es ih =>
    rw [List.forall_mem_cons] at hkeys hvalues
    obtain ⟨hrestored, htexts, hencoded⟩ := ih hkeys.2 hvalues.2
    refine ⟨?_, ?_, fun path index => ?_⟩
    · rw [restoreEntries, entriesWithoutUndefined, hkeys.1.restored, hvalues.1.restored, hrestored]
    · rw [entriesHaveTexts, hkeys.1.texts, hvalues.1.texts, htexts]
      rfl
    · obtain ⟨r, hr⟩ := hkeys.1.encoded (path ++ [.index index])
      obtain ⟨r', hr'⟩ := hvalues.1.encoded (path ++ [.index index])
      obtain ⟨ts, hts⟩ := hencoded path (index + 1)
      exact ⟨.arr [inPosition r, inPosition r'] :: ts, by
        rw [encodeEntryPairs, hr, hr', hts]; rfl⟩

lemma kept_properties {ps : List (JsString × Value)} (h : ∀ p ∈ ps, Kept runtime p.2) :
    restoreProperties ps = propertiesWithoutUndefined ps ∧ propertiesHaveTexts ps = true ∧
      ∀ path, ∃ out, encodeProperties runtime .omit path ps = .ok out := by
  induction ps with
  | nil => exact ⟨rfl, rfl, fun path => ⟨[], by rw [encodeProperties]⟩⟩
  | cons p ps ih =>
    obtain ⟨k, v⟩ := p
    rw [List.forall_mem_cons] at h
    obtain ⟨hrestored, htexts, hencoded⟩ := ih h.2
    refine ⟨?_, ?_, fun path => ?_⟩
    · rw [restoreProperties, h.1.vanishes, h.1.restored, hrestored]
      cases v <;> rfl
    · rw [propertiesHaveTexts, h.1.texts, htexts, Bool.and_self]
    · obtain ⟨r, hr⟩ := h.1.encoded (path ++ [.key k])
      obtain ⟨out, hout⟩ := hencoded path
      exact ⟨r.toList.map (Prod.mk k) ++ out, by rw [encodeProperties, hr, hout]; rfl⟩

lemma kept_of_builtFrom (h : BuiltFrom JsonLeaf key v) (hv : v.WellFormed runtime) :
    Kept runtime v := by
  induction h with
  | leaf h =>
    obtain ⟨hrestore, hwithout, htexts, hvanishes⟩ := restore_leaf h true
    exact ⟨hrestore.trans hwithout.symm, htexts, hvanishes, fun path =>
      encodeNode_leaf h path true⟩
  | array h ih =>
    rw [WellFormed, itemsWellFormed_iff] at hv
    obtain ⟨hrestored, htexts, hencoded⟩ := kept_items fun v hmem => ih v hmem (hv.2 v hmem)
    refine ⟨?_, htexts, rfl, fun path => ?_⟩
    · rw [restore, withoutUndefined, hrestored]
    · obtain ⟨ts, hts⟩ := hencoded (fun i => path ++ [.index i]) 0
      exact ⟨some (.arr ts), by rw [encodeNode, hts]; rfl⟩
  | set h ih =>
    rw [WellFormed, itemsWellFormed_iff] at hv
    obtain ⟨hrestored, htexts, hencoded⟩ := kept_items fun v hmem => ih v hmem (hv.2.2 v hmem)
    refine ⟨?_, htexts, rfl, fun path => ?_⟩
    · rw [restore, restoreItems_eq_map, newSet_of_distinct (keysDistinct_restore hv.2.1 h),
        ← restoreItems_eq_map, withoutUndefined, hrestored]
    · obtain ⟨ts, hts⟩ := hencoded (fun i => path ++ [.index i]) 0
      exact ⟨some (Tag.set.wrap (.arr ts)), by rw [encodeNode, hts]; rfl⟩
  | map hkeys hvalues ihk ihv =>
    rw [WellFormed, entriesWellFormed_iff] at hv
    obtain ⟨hrestored, htexts, hencoded⟩ := kept_entries
      (fun e he => ihk e he (hv.2.2 e he).1) fun e he => ihv e he (hv.2.2 e he).2
    refine ⟨?_, htexts, rfl, fun path => ?_⟩
    · rw [restore, newMap_of_distinct, withoutUndefined, hrestored]
      rw [keys_restoreEntries]
      exact keysDistinct_restore hv.2.1 (List.forall_mem_map.2 hkeys)
    · obtain ⟨ts, hts⟩ := hencoded path 0
      exact ⟨some (Tag.map.wrap (.arr ts)), by rw [encodeNode, hts]; rfl⟩
  | object hkeys hvalues ih =>
    rw [WellFormed, propertiesWellFormed_iff] at hv
    obtain ⟨hrestored, htexts, hencoded⟩ := kept_properties fun p hp => ih p hp (hv.2.2 p hp).2
    refine ⟨?_, htexts, rfl, fun path => ?_⟩
    · rw [restore, withoutUndefined, hrestored]
    · obtain ⟨out, hout⟩ := hencoded path
      exact ⟨some (escapeObject out), by rw [encodeNode, hout]; rfl⟩

lemma encodeJsonTree_of_kept (h : Kept runtime v) (hv : v ≠ undefined) :
    ∃ t, encodeJsonTree runtime .omit v = .ok t := by
  obtain ⟨r, hr⟩ := h.encoded []
  have hnone := isNone_of_encodeNode hr
  rw [h.vanishes] at hnone
  cases r with
  | none => cases v <;> first | exact absurd rfl hv | cases hnone
  | some t => exact ⟨t, by rw [encodeJsonTree, hr]; rfl⟩

/-- The format keeps every value that is built from its leaves, as deep as the
decoder goes: what comes back is the value less the undefined properties of its
objects. -/
theorem roundTrip_lossless (runtime : Runtime) (maxNestingDepth : ℕ) (v : JsValue runtime)
    (hv : v.1.BuiltFrom JsonLeaf fun _ => True) (hroot : v.1 ≠ undefined)
    (hdepth : v.1.levels true ≤ maxNestingDepth + 1) :
    roundTrip runtime .omit maxNestingDepth v.1 = .ok v.1.withoutUndefined := by
  have hkept := kept_of_builtFrom hv v.2
  obtain ⟨t, ht⟩ := encodeJsonTree_of_kept hkept hroot
  have hdecode := (yields_decodeText v.2 ht maxNestingDepth).1 ⟨hdepth, hkept.texts⟩
  rw [roundTrip, ht, ← hkept.restored]
  exact hdecode

/-- An object in the guise of an escaped map, with the lower end of the integers. -/
def disguised : Value :=
  object [("__proto__", undefined), ("__literal__",
    map [(number .nan, undefined), (undefined, bigint (-2 ^ 8192))])]

lemma wellFormed_disguised : disguised.WellFormed bareRuntime := by
  have hkeys : "__proto__".toJs ≠ "__literal__".toJs := by decide
  have hdistinct : sameValueZero undefined (number .nan) = false := rfl
  have hzero : isNegativeZero (number .nan) = false ∧ isNegativeZero undefined = false :=
    ⟨rfl, rfl⟩
  have hlength : (Utf8.encode "__proto__".toJs).length < 9007199254740992 ∧
      (Utf8.encode "__literal__".toJs).length < 9007199254740992 := by decide
  simp [disguised, WellFormed, PropertiesWellFormed, EntriesWellFormed, KeysDistinct, SafeLength,
    hkeys, hdistinct, hzero, hlength]

theorem roundTrip_lossless_disguised :
    roundTrip bareRuntime .omit 256 disguised = .ok disguised.withoutUndefined := by
  have hpos : (0 : ℤ) < 2 ^ 8192 := pow_pos (by norm_num) _
  have hend : JsonLeaf (bigint (-2 ^ 8192)) := ⟨le_rfl, by omega⟩
  refine roundTrip_lossless bareRuntime 256 ⟨disguised, wellFormed_disguised⟩ ?_ ?_ ?_
  · refine .object (by simp) ?_
    simp only [List.forall_mem_cons]
    refine ⟨.leaf trivial, .map ?_ ?_, by simp⟩
    · simp only [List.forall_mem_cons]
      exact ⟨.leaf trivial, .leaf trivial, by simp⟩
    · simp only [List.forall_mem_cons]
      exact ⟨.leaf trivial, .leaf hend, by simp⟩
  · exact Value.noConfusion
  · decide

/-- The upper end of the integers is one below the power of two, which is refused. -/
theorem roundTrip_refuses_two_pow :
    (-2 ^ 8192 ≤ (2 : ℤ) ^ 8192 ∧ (2 : ℤ) ^ 8192 ≤ 2 ^ 8192) ∧
      (bigint (2 ^ 8192)).WellFormed bareRuntime ∧ (bigint (2 ^ 8192)).levels true ≤ 256 + 1 ∧
      roundTrip bareRuntime .omit 256 (bigint (2 ^ 8192)) ≠ .ok (bigint (2 ^ 8192)) := by
  have hpos : (0 : ℤ) < 2 ^ 8192 := pow_pos (by norm_num) _
  have hrange : outsideBignumRange (2 ^ 8192) = true := by
    rw [← Bool.not_eq_false, outsideBignumRange_iff]
    omega
  refine ⟨⟨by omega, le_rfl⟩, trivial, by simp [levels], ?_⟩
  rw [roundTrip, encodeJsonTree, encodeNode, encodeBigint, hrange, if_pos rfl]
  intro h
  cases h

end Lossless

end ActorTs.Serialization
