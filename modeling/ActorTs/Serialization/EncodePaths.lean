import ActorTs.Library.Outcome
import ActorTs.Serialization.JsonTree

/-!
# What a value is encoded to anywhere

The path of a node is spelled in the texts of errors and nowhere else: a value that is encoded
at one path is encoded to the same tree at every other.
-/

namespace ActorTs.Serialization

open Outcome

variable {runtime : Runtime} {undefinedValues : UndefinedValueHandling}

mutual

theorem encodeNode_path : ∀ (v : Value) {path path' : List PathSegment} {allowToJson : Bool}
    {r : Option Json}, encodeNode runtime undefinedValues path allowToJson v = .ok r →
    encodeNode runtime undefinedValues path' allowToJson v = .ok r
  | .undefined, _, _, _, _, h => by
    cases undefinedValues
    · cases h
    · exact h
  | .null, _, _, _, _, h | .bool _, _, _, _, _, h | .number _, _, _, _, _, h
  | .string _, _, _, _, _, h | .date _, _, _, _, _, h | .bytes _, _, _, _, _, h
  | .binary _ _, _, _, _, _, h | .regExp _ _, _, _, _, _, h | .url _, _, _, _, _, h => by
    exact h
  | .bigint n, path, path', _, _, h => by
    rw [encodeNode] at h ⊢
    obtain ⟨t, ht, rfl⟩ := map_eq_ok h
    unfold encodeBigint at ht ⊢
    split at ht
    · cases ht
    · next hinside =>
      cases ht
      rw [if_neg hinside]
      rfl
  | .exoticView _, _, _, _, _, h | .unsupportedObject _, _, _, _, _, h
  | .unsupportedType _, _, _, _, _, h => by
    cases h
  | .map entries, _, _, _, _, h | .bidirectionalMap entries, _, _, _, _, h => by
    rw [encodeNode] at h ⊢
    obtain ⟨pairs, hpairs, h⟩ := bind_eq_ok h
    rw [encodeEntryPairs_path entries hpairs]
    exact h
  | .set members, _, _, _, _, h => by
    rw [encodeNode] at h ⊢
    obtain ⟨values, hvalues, h⟩ := bind_eq_ok h
    rw [encodeItems_path members hvalues]
    exact h
  | .bidirectionalMultiMap rows, _, _, _, _, h => by
    rw [encodeNode] at h ⊢
    obtain ⟨rows', hrows, h⟩ := bind_eq_ok h
    rw [encodeRows_path rows hrows]
    exact h
  | .error name message cause errors, _, _, _, _, h => by
    rw [encodeNode] at h ⊢
    obtain ⟨encoded, hencoded, h⟩ := bind_eq_ok h
    obtain ⟨members, hmembers, h⟩ := bind_eq_ok h
    rw [encodeErrors_path errors hmembers]
    by_cases hundefined : isUndefined cause = true
    · rw [if_pos hundefined] at hencoded ⊢
      cases hencoded
      exact h
    · rw [if_neg hundefined] at hencoded ⊢
      rw [encodeNode_path cause hencoded]
      exact h
  | .boxed primitive, _, _, _, _, h => by
    exact encodeNode_path primitive h
  | .array items, _, _, _, _, h => by
    rw [encodeNode] at h ⊢
    obtain ⟨values, hvalues, h⟩ := bind_eq_ok h
    rw [encodeItems_path items hvalues]
    exact h
  | .object properties, _, _, _, _, h => by
    rw [encodeNode] at h ⊢
    obtain ⟨out, hout, h⟩ := bind_eq_ok h
    rw [encodeProperties_path properties hout]
    exact h
  | .withToJson resolved properties, _, _, allowToJson, _, h => by
    rw [encodeNode] at h ⊢
    cases allowToJson with
    | true => exact encodeNode_path resolved h
    | false =>
      obtain ⟨out, hout, h⟩ := bind_eq_ok h
      rw [encodeProperties_path properties hout]
      exact h

theorem encodeErrors_path : ∀ (v : Value) {path path' : List PathSegment} {r : Option Json},
    encodeErrors runtime undefinedValues path v = .ok r →
    encodeErrors runtime undefinedValues path' v = .ok r
  | v, path, path', r, h => by
    cases v with
    | array items =>
      rw [encodeErrors] at h ⊢
      obtain ⟨values, hvalues, h⟩ := bind_eq_ok h
      rw [encodeItems_path items hvalues]
      exact h
    | _ => exact h

theorem encodeItems_path : ∀ (vs : List Value) {path path' : ℕ → List PathSegment} {i j : ℕ}
    {ts : List Json}, encodeItems runtime undefinedValues path i vs = .ok ts →
    encodeItems runtime undefinedValues path' j vs = .ok ts
  | [], _, _, _, _, _, h => by
    exact h
  | v :: vs, _, _, _, _, _, h => by
    rw [encodeItems] at h ⊢
    obtain ⟨encoded, hencoded, h⟩ := bind_eq_ok h
    obtain ⟨rest, hrest, h⟩ := bind_eq_ok h
    rw [encodeNode_path v hencoded, encodeItems_path vs hrest]
    exact h

theorem encodeEntryPairs_path : ∀ (es : List (Value × Value)) {path path' : List PathSegment}
    {i j : ℕ} {ts : List Json}, encodeEntryPairs runtime undefinedValues path i es = .ok ts →
    encodeEntryPairs runtime undefinedValues path' j es = .ok ts
  | [], _, _, _, _, _, h => by
    exact h
  | (key, value) :: es, _, _, _, _, _, h => by
    rw [encodeEntryPairs] at h ⊢
    obtain ⟨encodedKey, hkey, h⟩ := bind_eq_ok h
    obtain ⟨encodedValue, hvalue, h⟩ := bind_eq_ok h
    obtain ⟨rest, hrest, h⟩ := bind_eq_ok h
    rw [encodeNode_path key hkey, encodeNode_path value hvalue, encodeEntryPairs_path es hrest]
    exact h

theorem encodeRows_path : ∀ (rows : List (Value × List Value)) {path path' : List PathSegment}
    {i j : ℕ} {ts : List Json}, encodeRows runtime undefinedValues path i rows = .ok ts →
    encodeRows runtime undefinedValues path' j rows = .ok ts
  | [], _, _, _, _, _, h => by
    exact h
  | (left, rights) :: rows, _, _, _, _, _, h => by
    rw [encodeRows] at h ⊢
    obtain ⟨encodedLeft, hleft, h⟩ := bind_eq_ok h
    obtain ⟨partners, hpartners, h⟩ := bind_eq_ok h
    obtain ⟨rest, hrest, h⟩ := bind_eq_ok h
    rw [encodeNode_path left hleft, encodeItems_path rights hpartners, encodeRows_path rows hrest]
    exact h

theorem encodeProperties_path : ∀ (ps : List (JsString × Value)) {path path' : List PathSegment}
    {ts : List (JsString × Json)}, encodeProperties runtime undefinedValues path ps = .ok ts →
    encodeProperties runtime undefinedValues path' ps = .ok ts
  | [], _, _, _, h => by
    exact h
  | (key, value) :: ps, _, _, _, h => by
    rw [encodeProperties] at h ⊢
    obtain ⟨encoded, hencoded, h⟩ := bind_eq_ok h
    obtain ⟨rest, hrest, h⟩ := bind_eq_ok h
    rw [encodeNode_path value hencoded, encodeProperties_path ps hrest]
    exact h

end

end ActorTs.Serialization
