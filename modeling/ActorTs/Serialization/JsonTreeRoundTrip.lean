import ActorTs.Library.Outcome
import ActorTs.Serialization.JsonTree

/-!
# What a value comes back as

`restore` is the value that stands where a value was encoded, and `levels` the
number of levels that the decoder descends for it. `decodes_node` says that the
decoder reads an encoded value exactly when its levels fit under the cap and
every error in it has a name and a message that are written as strings, and that
it then reads `restore`.
-/

open Nat OrderedMap

namespace ActorTs.Serialization

namespace ErrorText

/-- The string that is written for a name or a message. -/
def string? : ErrorText → Option JsString
  | .string s => some s
  | .other (some (.str s)) _ => some s
  | .other _ _ => none

end ErrorText

/-! ### Levels, texts and what comes back -/

/-- A level that is entered without a look at the cap. -/
def unchecked (n : ℕ) : ℕ := if n = 0 then 0 else n + 1

/-- So many levels from this depth on stay under the cap; nothing is looked at where
there are none. -/
def Fits (maxNestingDepth depth n : ℕ) : Prop := n = 0 ∨ depth + n ≤ maxNestingDepth + 1

instance (maxNestingDepth depth n : ℕ) : Decidable (Fits maxNestingDepth depth n) :=
  inferInstanceAs (Decidable (_ ∨ _))

namespace Value

/-- The value is left out of an object. -/
def vanishes (allowToJson : Bool) : Value → Bool
  | undefined => true
  | boxed primitive => vanishes false primitive
  | withToJson resolved _ => allowToJson && vanishes false resolved
  | _ => false

/-- The keys of an object that are written. -/
def writtenKeys (properties : List (JsString × Value)) : List JsString :=
  (properties.filter fun p => !vanishes true p.2).map Prod.fst

/-- The object is written under `__literal__`. -/
def isEscaped (properties : List (JsString × Value)) : Bool :=
  match writtenKeys properties with
  | [key] => (Tag.ofName? key).isSome
  | _ => false

mutual

def levels (allowToJson : Bool) : Value → ℕ
  | null => 0
  | bool _ => 0
  | string _ => 0
  | number (.finite x) => if x.negative ∧ x.significand = 0 then 1 else 0
  | map entries => 1 + entriesLevels entries
  | bidirectionalMap entries => 1 + entriesLevels entries
  | bidirectionalMultiMap rows => 1 + rowsLevels rows
  | set members => 1 + itemsLevels members
  | error _ _ cause errors =>
    1 + unchecked (max (if vanishes true cause then 0 else levels true cause)
      (errorsLevels errors))
  | boxed primitive => levels false primitive
  | array items => 1 + itemsLevels items
  | object properties =>
    1 + if isEscaped properties then unchecked (propertiesLevels properties)
      else propertiesLevels properties
  | withToJson resolved properties =>
    if allowToJson then levels false resolved
    else 1 + if isEscaped properties then unchecked (propertiesLevels properties)
      else propertiesLevels properties
  | _ => 1

def errorsLevels : Value → ℕ
  | array items => 1 + itemsLevels items
  | _ => 0

def itemsLevels : List Value → ℕ
  | [] => 0
  | v :: vs => max (levels true v) (itemsLevels vs)

def entriesLevels : List (Value × Value) → ℕ
  | [] => 0
  | (k, v) :: es => max (max (levels true k) (levels true v)) (entriesLevels es)

def rowsLevels : List (Value × List Value) → ℕ
  | [] => 0
  | (l, rs) :: rows => max (max (levels true l) (itemsLevels rs)) (rowsLevels rows)

def propertiesLevels : List (JsString × Value) → ℕ
  | [] => 0
  | (_, v) :: ps => max (if vanishes true v then 0 else levels true v) (propertiesLevels ps)

end

mutual

/-- Every error that is written has strings for its name and its message. -/
def hasTexts (allowToJson : Bool) : Value → Bool
  | map entries => entriesHaveTexts entries
  | bidirectionalMap entries => entriesHaveTexts entries
  | bidirectionalMultiMap rows => rowsHaveTexts rows
  | set members => itemsHaveTexts members
  | error name message cause errors =>
    name.string?.isSome && message.string?.isSome && hasTexts true cause && errorsHaveTexts errors
  | boxed primitive => hasTexts false primitive
  | array items => itemsHaveTexts items
  | object properties => propertiesHaveTexts properties
  | withToJson resolved properties =>
    if allowToJson then hasTexts false resolved else propertiesHaveTexts properties
  | _ => true

def errorsHaveTexts : Value → Bool
  | array items => itemsHaveTexts items
  | _ => true

def itemsHaveTexts : List Value → Bool
  | [] => true
  | v :: vs => hasTexts true v && itemsHaveTexts vs

def entriesHaveTexts : List (Value × Value) → Bool
  | [] => true
  | (k, v) :: es => hasTexts true k && hasTexts true v && entriesHaveTexts es

def rowsHaveTexts : List (Value × List Value) → Bool
  | [] => true
  | (l, rs) :: rows => hasTexts true l && itemsHaveTexts rs && rowsHaveTexts rows

def propertiesHaveTexts : List (JsString × Value) → Bool
  | [] => true
  | (_, v) :: ps => hasTexts true v && propertiesHaveTexts ps

end

mutual

def restore (allowToJson : Bool) : Value → Value
  | map entries => map (newMap (restoreEntries entries))
  | bidirectionalMap entries => bidirectionalMap (newBidirectionalMap (restoreEntries entries))
  | bidirectionalMultiMap rows => bidirectionalMultiMap (newBidirectionalMultiMap (restoreRows rows))
  | set members => set (newSet (restoreItems members))
  | error name message cause errors =>
    rebuildError (name.string?.getD []) (message.string?.getD []) (restoreErrors errors)
      (restore true cause)
  | boxed primitive => restore false primitive
  | array items => array (restoreItems items)
  | object properties => object (restoreProperties properties)
  | withToJson resolved properties =>
    if allowToJson then restore false resolved else object (restoreProperties properties)
  | v => v

def restoreErrors : Value → Option Value
  | array items => some (array (restoreItems items))
  | _ => none

def restoreItems : List Value → List Value
  | [] => []
  | v :: vs => restore true v :: restoreItems vs

def restoreEntries : List (Value × Value) → List (Value × Value)
  | [] => []
  | (k, v) :: es => (restore true k, restore true v) :: restoreEntries es

def restoreRows : List (Value × List Value) → List (Value × List Value)
  | [] => []
  | (l, rs) :: rows => (restore true l, restoreItems rs) :: restoreRows rows

def restoreProperties : List (JsString × Value) → List (JsString × Value)
  | [] => []
  | (key, v) :: ps =>
    if vanishes true v then restoreProperties ps else (key, restore true v) :: restoreProperties ps

end

end Value

section Fits

variable {maxNestingDepth depth : ℕ} {n : ℕ}

lemma fits_zero : Fits maxNestingDepth depth 0 := .inl rfl

lemma fits_max {a b : ℕ} :
    Fits maxNestingDepth depth (max a b) ↔
      Fits maxNestingDepth depth a ∧ Fits maxNestingDepth depth b := by
  unfold Fits
  omega

lemma fits_add_one :
    Fits maxNestingDepth depth (1 + n) ↔
      depth ≤ maxNestingDepth ∧ Fits maxNestingDepth (depth + 1) n := by
  unfold Fits
  omega

lemma fits_one : Fits maxNestingDepth depth 1 ↔ depth ≤ maxNestingDepth := by
  unfold Fits
  omega

lemma fits_unchecked :
    Fits maxNestingDepth depth (unchecked n) ↔ Fits maxNestingDepth (depth + 1) n := by
  unfold Fits unchecked
  split <;> omega

end Fits

/-! ### What vanishes and what is escaped -/

section Encoded

open Outcome

variable {runtime : Runtime} {undefinedValues : UndefinedValueHandling}

lemma isNone_of_encodeNode : ∀ {v : Value} {path : List PathSegment} {allowToJson : Bool}
    {r : Option Json}, encodeNode runtime undefinedValues path allowToJson v = .ok r →
    r.isNone = v.vanishes allowToJson
  | .undefined, path, allowToJson, r, h => by
    rw [encodeNode] at h
    unfold encodeUndefined at h
    split at h
    · cases h
    · cases h
      rfl
  | .boxed primitive, path, allowToJson, r, h => by
    rw [encodeNode] at h
    rw [isNone_of_encodeNode h, Value.vanishes]
  | .withToJson resolved properties, path, allowToJson, r, h => by
    rw [encodeNode] at h
    cases allowToJson with
    | true =>
      rw [isNone_of_encodeNode h, Value.vanishes, Bool.true_and]
    | false =>
      obtain ⟨out, -, hr⟩ := bind_eq_ok h
      cases hr
      rfl
  | .null, _, _, _, h | .bool _, _, _, _, h | .number _, _, _, _, h | .string _, _, _, _, h
  | .bytes _, _, _, _, h | .binary _ _, _, _, _, h | .regExp _ _, _, _, _, h
  | .url _, _, _, _, h => by
    cases h
    rfl
  | .exoticView _, _, _, _, h | .unsupportedObject _, _, _, _, h
  | .unsupportedType _, _, _, _, h => by
    cases h
  | .bigint _, _, _, _, h | .date _, _, _, _, h => by
    obtain ⟨t, -, hr⟩ := map_eq_ok h
    cases hr
    rfl
  | .map _, _, _, _, h | .set _, _, _, _, h | .bidirectionalMap _, _, _, _, h
  | .bidirectionalMultiMap _, _, _, _, h | .array _, _, _, _, h | .object _, _, _, _, h => by
    obtain ⟨ts, -, hr⟩ := bind_eq_ok h
    cases hr
    rfl
  | .error _ _ _ _, _, _, _, h => by
    obtain ⟨encoded, -, h⟩ := bind_eq_ok h
    obtain ⟨members, -, hr⟩ := bind_eq_ok h
    cases hr
    rfl

/-- The members of an encoded object are named by the keys that are written. -/
lemma keys_encodeProperties {path : List PathSegment} {properties : List (JsString × Value)}
    {out : List (JsString × Json)}
    (h : encodeProperties runtime undefinedValues path properties = .ok out) :
    out.map Prod.fst = Value.writtenKeys properties := by
  induction properties generalizing out with
  | nil =>
    cases h
    rfl
  | cons p properties ih =>
    obtain ⟨r, hr, h⟩ := bind_eq_ok h
    obtain ⟨rest, hrest, h⟩ := bind_eq_ok h
    cases h
    have hnone := isNone_of_encodeNode hr
    rw [List.map_append, ih hrest, Value.writtenKeys, Value.writtenKeys]
    cases r with
    | none => simp [← hnone]
    | some t => simp [← hnone]

end Encoded

/-! ### Leaves -/

section Bigint

open JsonText

lemma splitSign_cons_minus (ds : JsString) : splitSign (0x2D :: ds) = (true, ds) := rfl

lemma splitSign_decimal (n : ℕ) : splitSign (decimal n) = (false, decimal n) := by
  cases h : decimal n with
  | nil => rfl
  | cons u us =>
    have hu : u ≠ 0x2D := by
      rintro rfl
      have hdigit := isDigit_of_mem_decimal (n := n) (h ▸ List.mem_cons_self)
      exact absurd hdigit (by decide)
    rw [splitSign, if_neg hu]

lemma splitSign_bigintText (n : ℤ) :
    splitSign (bigintText n) = (decide (n < 0), decimal n.natAbs) := by
  unfold bigintText
  split
  · next h => rw [splitSign_cons_minus, decide_eq_true h]
  · next h => rw [splitSign_decimal, decide_eq_false h]

lemma parseBigint_bigintText (n : ℤ) : parseBigint (bigintText n) = n := by
  simp only [parseBigint, splitSign_bigintText, digitsValue_decimal, decide_eq_true_eq]
  split <;> omega

lemma isCanonicalBigint_bigintText (n : ℤ) : isCanonicalBigint (bigintText n) = true := by
  unfold isCanonicalBigint
  rw [splitSign_bigintText, Bool.or_eq_true]
  rcases Nat.eq_zero_or_pos n.natAbs with hzero | hpos
  · left
    rw [Int.natAbs_eq_zero] at hzero
    subst hzero
    decide
  · right
    obtain ⟨d, ds, hds, hd⟩ := decimal_eq_cons hpos
    have hdigits : (d :: ds).all isDigit = true := by
      rw [List.all_eq_true]
      exact fun u hu => isDigit_of_mem_decimal (hds ▸ hu)
    simp only [hds, Bool.and_eq_true, bne_iff_ne]
    exact ⟨hd, hdigits⟩

lemma length_decimal (n : ℕ) : (decimal n).length = log 10 n + 1 := by
  unfold decimal
  split
  · next h =>
    rw [h]
    rfl
  · next h => rw [List.length_reverse, List.length_map, length_digits 10 n (by norm_num) h]

/-- A power of two is no power of ten, so the number before it has as many digits. -/
lemma log_two_pow_sub_one {k : ℕ} (hk : 1 < k) :
    log 10 (2 ^ k) ≤ log 10 (2 ^ k - 1) := by
  have hbig : 2 ^ 2 ≤ 2 ^ k := Nat.pow_le_pow_right (by norm_num) hk
  have hle : 10 ^ log 10 (2 ^ k) ≤ 2 ^ k := pow_log_le_self 10 (by omega)
  refine le_log_of_pow_le (by norm_num) ?_
  rcases hle.lt_or_eq with hlt | heq
  · omega
  · cases hlog : log 10 (2 ^ k) with
    | zero => omega
    | succ m =>
      have hfive : 5 ∣ 2 ^ k := by
        rw [← heq, hlog, pow_succ]
        exact Dvd.dvd.mul_left (by norm_num) _
      have hcoprime : Nat.Coprime 5 (2 ^ k) := Nat.Coprime.pow_right k (by decide)
      exact absurd (hcoprime.eq_one_of_dvd hfive) (by norm_num)

lemma length_decimal_le_maxBigintDigits {n : ℤ} (h : outsideBignumRange n = false) :
    (decimal n.natAbs).length ≤ maxBigintDigits := by
  obtain ⟨k, hk, hmax⟩ : ∃ k, 1 < k ∧ maxBignumMagnitude = 2 ^ k - 1 :=
    ⟨8192, by norm_num, maxBignumMagnitude_eq⟩
  have hle : n.natAbs ≤ 2 ^ k := by
    have hcast : ((2 ^ k : ℕ) : ℤ) = 2 ^ k := by
      rfl
    have hrange := (outsideBignumRange_iff_of_eq hmax).1 h
    omega
  rw [maxBigintDigits, hmax, length_decimal, length_decimal]
  have hmono := log_mono_right (b := 10) hle
  have hlog := log_two_pow_sub_one hk
  omega

lemma decodeBigint_bigintText {n : ℤ} (h : outsideBignumRange n = false) :
    decodeBigint (.str (bigintText n)) = .ok (.bigint n) := by
  have hlength := (length_decimal_le_maxBigintDigits h).not_gt
  rw [decodeBigint, splitSign_bigintText, if_neg hlength,
    if_neg (not_not.2 (isCanonicalBigint_bigintText n)), parseBigint_bigintText, h,
    if_neg Bool.false_ne_true]

end Bigint

/-! ### One node of the decoder -/

section Node

open Outcome

attribute [local simp] decodeNode

variable {runtime : Runtime} {maxNestingDepth depth : ℕ} {p : Prop}

lemma yields_leaf {x : Except SerializationError Value} {v : Value} (h : x = .ok v) (hp : p) :
    Yields (if maxNestingDepth < depth then tooDeep maxNestingDepth else x)
      (Fits maxNestingDepth depth 1 ∧ p) v :=
  (Yields.guard _ (Yields.of_eq_ok h hp)).iff (by rw [fits_one, not_lt])

lemma yields_container {α : Type} {x : Except SerializationError α} {n : ℕ} {a : α}
    (f : α → Value) (h : Yields x (Fits maxNestingDepth (depth + 1) n ∧ p) a) :
    Yields (if maxNestingDepth < depth then tooDeep maxNestingDepth else do return f (← x))
      (Fits maxNestingDepth depth (1 + n) ∧ p) (f a) := by
  refine (Yields.guard _ (h.seq f)).iff ?_
  rw [fits_add_one, not_lt, and_assoc]

/-- The tags that are read without a descent. -/
def leafDecoder? (runtime : Runtime) : Tag → Option (Json → Except SerializationError Value)
  | .date => some (decodeDate runtime)
  | .bytes => some decodeBytes
  | .bigint => some decodeBigint
  | .number => some decodeNumber
  | .undefined => some decodeUndefined
  | .regexp => some (decodeRegExp runtime)
  | .url => some (decodeUrl runtime)
  | .typedarray => some (decodeBinaryView runtime)
  | _ => none

lemma decodeNode_leaf {tag : Tag} {decode : Json → Except SerializationError Value}
    (h : leafDecoder? runtime tag = some decode) (inner : Json) :
    decodeNode runtime maxNestingDepth depth (tag.wrap inner) =
      if maxNestingDepth < depth then tooDeep maxNestingDepth else decode inner := by
  cases tag <;> cases h <;> simp only [Tag.wrap, decodeNode, Tag.ofName?_name]

lemma decodeNode_error (inner : Json) :
    decodeNode runtime maxNestingDepth depth (Tag.error.wrap inner) =
      if maxNestingDepth < depth then tooDeep maxNestingDepth
      else decodeError runtime maxNestingDepth (depth + 1) inner := by
  simp only [Tag.wrap, decodeNode, Tag.ofName?_name]

lemma decodeNode_literal (members : List (JsString × Json)) :
    decodeNode runtime maxNestingDepth depth (Tag.literal.wrap (.obj members)) =
      if maxNestingDepth < depth then tooDeep maxNestingDepth
      else do
        let properties ← decodeProperties runtime maxNestingDepth (depth + 2) members
        return .object properties := by
  simp only [Tag.wrap, decodeNode, Tag.ofName?_name, decodeLiteral]

lemma decodeNode_obj {members : List (JsString × Json)}
    (h : ∀ key inner, members = [(key, inner)] → Tag.ofName? key = none) :
    decodeNode runtime maxNestingDepth depth (.obj members) =
      if maxNestingDepth < depth then tooDeep maxNestingDepth
      else do
        let properties ← decodeProperties runtime maxNestingDepth (depth + 1) members
        return .object properties := by
  by_cases hsingle : ∃ key inner, members = [(key, inner)]
  · obtain ⟨key, inner, rfl⟩ := hsingle
    simp only [decodeNode, decodeProperties]
    rw [h key inner rfl]
    cases decodeNode runtime maxNestingDepth (depth + 1) inner <;> rfl
  · rw [decodeNode]
    exact fun key inner heq => hsingle ⟨key, inner, heq⟩

end Node

/-! ### The payload of an error -/

section ErrorPayload

open Outcome

variable {runtime : Runtime} {maxNestingDepth depth : ℕ} {key : JsString} {text : ErrorText}

/-- What an error is written as, by the parts that are written. -/
def errorPayload (name message : ErrorText) (cause errors : Option Json) :
    List (JsString × Json) :=
  encodeText "name".toJs name ++ encodeText "message".toJs message ++
    cause.toList.map (Prod.mk "cause".toJs) ++ errors.toList.map (Prod.mk "errors".toJs)

lemma text_keys_distinct :
    "name".toJs ≠ "message".toJs ∧ "name".toJs ≠ "cause".toJs ∧ "name".toJs ≠ "errors".toJs ∧
      "message".toJs ≠ "cause".toJs ∧ "message".toJs ≠ "errors".toJs ∧
      "cause".toJs ≠ "errors".toJs := by decide

lemma stringMember_encodeText {rest : List (JsString × Json)} (h : ∀ m ∈ rest, m.1 ≠ key) :
    stringMember key (.obj (encodeText key text ++ rest)) = text.string? := by
  have hrest : lookup key rest = none := by
    cases hlookup : lookup key rest with
    | none => rfl
    | some j => exact absurd rfl (h _ (mem_of_lookup_eq_some hlookup))
  cases text with
  | string s => simp [stringMember, encodeText, lookup, ErrorText.string?]
  | other json text =>
    cases json with
    | none => simp [stringMember, encodeText, hrest, ErrorText.string?]
    | some j => cases j <;> simp [stringMember, encodeText, lookup, ErrorText.string?]

lemma key_of_mem_encodeText {m : JsString × Json} (h : m ∈ encodeText key text) : m.1 = key := by
  unfold encodeText at h
  split at h
  · rw [List.mem_singleton.1 h]
  · rw [List.mem_singleton.1 h]
  · cases h

lemma key_of_mem_toList {t : Option Json} {m : JsString × Json}
    (h : m ∈ t.toList.map (Prod.mk key)) : m.1 = key := by
  obtain ⟨j, -, rfl⟩ := List.mem_map.1 h
  rfl

variable {first rest : List (JsString × Json)}

lemma lookup_append_of_ne (h : ∀ m ∈ first, m.1 ≠ key) :
    lookup key (first ++ rest) = lookup key rest := by
  induction first with
  | nil => rfl
  | cons m first ih =>
    rw [List.cons_append, lookup, if_neg (h m List.mem_cons_self),
      ih fun m hm => h m (List.mem_cons_of_mem _ hm)]

lemma decodeErrors_append (h : ∀ m ∈ first, m.1 ≠ "errors".toJs) :
    decodeErrors runtime maxNestingDepth depth (first ++ rest) =
      decodeErrors runtime maxNestingDepth depth rest := by
  induction first with
  | nil => rfl
  | cons m first ih =>
    rw [List.cons_append, decodeErrors, if_neg (h m List.mem_cons_self),
      ih fun m hm => h m (List.mem_cons_of_mem _ hm)]

lemma decodeCause_append (h : ∀ m ∈ first, m.1 ≠ "cause".toJs) :
    decodeCause runtime maxNestingDepth depth (first ++ rest) =
      decodeCause runtime maxNestingDepth depth rest := by
  induction first with
  | nil => rfl
  | cons m first ih =>
    rw [List.cons_append, decodeCause, if_neg (h m List.mem_cons_self),
      ih fun m hm => h m (List.mem_cons_of_mem _ hm)]

variable {name message : ErrorText} {cause errors : Option Json}

lemma stringMember_name :
    stringMember "name".toJs (.obj (errorPayload name message cause errors)) = name.string? := by
  obtain ⟨h₁, h₂, h₃, -⟩ := text_keys_distinct
  simp only [errorPayload, List.append_assoc]
  refine stringMember_encodeText fun m hm => ?_
  rcases List.mem_append.1 hm with hm | hm
  · rw [key_of_mem_encodeText hm]
    exact h₁.symm
  · rcases List.mem_append.1 hm with hm | hm
    · rw [key_of_mem_toList hm]
      exact h₂.symm
    · rw [key_of_mem_toList hm]
      exact h₃.symm

lemma stringMember_message :
    stringMember "message".toJs (.obj (errorPayload name message cause errors)) =
      message.string? := by
  obtain ⟨h₁, -, -, h₂, h₃, -⟩ := text_keys_distinct
  have hskip : ∀ m ∈ encodeText "name".toJs name, m.1 ≠ "message".toJs := by
    intro m hm
    rw [key_of_mem_encodeText hm]
    exact h₁
  have hrest := @stringMember_encodeText "message".toJs message
    (cause.toList.map (Prod.mk "cause".toJs) ++ errors.toList.map (Prod.mk "errors".toJs)) (by
      intro m hm
      rcases List.mem_append.1 hm with hm | hm
      · rw [key_of_mem_toList hm]
        exact h₂.symm
      · rw [key_of_mem_toList hm]
        exact h₃.symm)
  simp only [stringMember, errorPayload, List.append_assoc, lookup_append_of_ne hskip] at hrest ⊢
  exact hrest

/-- A cause that may not be written. -/
def readCause (runtime : Runtime) (maxNestingDepth depth : ℕ) :
    Option Json → Except SerializationError Value
  | none => .ok .undefined
  | some t => decodeNode runtime maxNestingDepth depth t

/-- Errors that may not be written. -/
def readErrors (runtime : Runtime) (maxNestingDepth depth : ℕ) :
    Option Json → Except SerializationError (Option Value)
  | none => .ok none
  | some t => if isArray t then some <$> decodeNode runtime maxNestingDepth depth t else .ok none

lemma decodeCause_errorPayload :
    decodeCause runtime maxNestingDepth depth (errorPayload name message cause errors) =
      readCause runtime maxNestingDepth depth cause := by
  obtain ⟨-, h₁, -, h₂, -, h₃⟩ := text_keys_distinct
  rw [errorPayload, List.append_assoc, decodeCause_append]
  · cases cause with
    | none =>
      cases errors with
      | none => rfl
      | some e => simp [decodeCause, readCause, h₃.symm]
    | some t => simp [decodeCause, readCause]
  · intro m hm
    rcases List.mem_append.1 hm with hm | hm
    · rw [key_of_mem_encodeText hm]
      exact h₁
    · rw [key_of_mem_encodeText hm]
      exact h₂

lemma decodeErrors_errorPayload :
    decodeErrors runtime maxNestingDepth depth (errorPayload name message cause errors) =
      readErrors runtime maxNestingDepth depth errors := by
  obtain ⟨-, -, h₁, -, h₂, h₃⟩ := text_keys_distinct
  rw [errorPayload, decodeErrors_append]
  · cases errors with
    | none => rfl
    | some t => simp [decodeErrors, readErrors]
  · intro m hm
    rcases List.mem_append.1 hm with hm | hm
    · rcases List.mem_append.1 hm with hm | hm
      · rw [key_of_mem_encodeText hm]
        exact h₁
      · rw [key_of_mem_encodeText hm]
        exact h₂
    · rw [key_of_mem_toList hm]
      exact h₃

end ErrorPayload

/-! ### Decoding what was encoded -/

namespace Value

lemma restore_of_vanishes : ∀ {v : Value} {allowToJson : Bool}, v.vanishes allowToJson = true →
    v.restore allowToJson = undefined ∧ v.hasTexts allowToJson = true
  | undefined, _, _ => ⟨rfl, rfl⟩
  | boxed primitive, _, h => by
    rw [restore, hasTexts]
    exact restore_of_vanishes h
  | withToJson resolved properties, allowToJson, h => by
    rw [vanishes, Bool.and_eq_true] at h
    rw [restore, hasTexts, h.1, if_pos rfl, if_pos rfl]
    exact restore_of_vanishes h.2
  | null, _, h | bool _, _, h | number _, _, h | bigint _, _, h | string _, _, h | date _, _, h
  | bytes _, _, h | binary _ _, _, h | exoticView _, _, h | regExp _ _, _, h | url _, _, h
  | map _, _, h | set _, _, h | bidirectionalMap _, _, h | bidirectionalMultiMap _, _, h
  | error _ _ _ _, _, h | unsupportedObject _, _, h | unsupportedType _, _, h | array _, _, h
  | object _, _, h => nomatch h

end Value

section RoundTrip

open Outcome Value

variable {runtime : Runtime} {undefinedValues : UndefinedValueHandling} {maxNestingDepth : ℕ}

lemma yields_number (x : JsNumber) (allowToJson : Bool) (depth : ℕ) :
    Yields (decodeNode runtime maxNestingDepth depth (encodeNumber x))
      (Fits maxNestingDepth depth ((number x).levels allowToJson) ∧
        (number x).hasTexts allowToJson = true) (number x) := by
  cases x with
  | nan =>
    rw [encodeNumber, decodeNode_leaf rfl, levels]
    · exact yields_leaf rfl rfl
    all_goals simp
  | infinity negative =>
    cases negative with
    | true =>
      rw [encodeNumber, decodeNode_leaf rfl, levels]
      · exact yields_leaf rfl rfl
      all_goals simp
    | false =>
      rw [encodeNumber, decodeNode_leaf rfl, levels]
      · exact yields_leaf rfl rfl
      all_goals simp
  | finite y =>
    rw [encodeNumber, levels]
    split
    · next h =>
      have hzero : y = .zero true := by
        obtain ⟨-, -, -, hnormal⟩ := y.canonical
        cases y
        simp_all [FiniteDouble.zero]
      rw [decodeNode_leaf rfl, hzero]
      exact yields_leaf rfl rfl
    · rw [decodeNode]
      exact Yields.of_eq_ok rfl ⟨fits_zero, rfl⟩

lemma yields_escapeObject {out : List (JsString × Json)} {properties : List (JsString × Value)}
    {depth : ℕ} (hkeys : out.map Prod.fst = writtenKeys properties)
    (h : ∀ depth, Yields (decodeProperties runtime maxNestingDepth depth out)
      (Fits maxNestingDepth depth (propertiesLevels properties) ∧
        propertiesHaveTexts properties = true) (restoreProperties properties)) :
    Yields (decodeNode runtime maxNestingDepth depth (escapeObject out))
      (Fits maxNestingDepth depth (1 + if isEscaped properties then
          unchecked (propertiesLevels properties) else propertiesLevels properties) ∧
        propertiesHaveTexts properties = true) (object (restoreProperties properties)) := by
  by_cases hescaped : ∃ key inner, out = [(key, inner)] ∧ (Tag.ofName? key).isSome
  · obtain ⟨key, inner, rfl, hkey⟩ := hescaped
    have hisEscaped : isEscaped properties = true := by
      rw [isEscaped, ← hkeys]
      exact hkey
    rw [escapeObject, if_pos hkey, decodeNode_literal, hisEscaped, if_pos rfl]
    refine yields_container object ((h (depth + 2)).iff ?_)
    rw [fits_unchecked]
  · have hisEscaped : isEscaped properties = false := by
      rw [isEscaped, ← hkeys]
      split
      · next key hsingle =>
        obtain ⟨m, rfl, rfl⟩ := List.map_eq_singleton_iff.1 hsingle
        rw [← Bool.not_eq_true]
        exact fun hkey => hescaped ⟨m.1, m.2, rfl, hkey⟩
      · rfl
    have hescape : escapeObject out = .obj out := by
      unfold escapeObject
      split
      · next key inner =>
        rw [if_neg fun hkey => hescaped ⟨key, inner, rfl, hkey⟩]
      · rfl
    rw [hescape, decodeNode_obj, hisEscaped, if_neg Bool.false_ne_true]
    · exact yields_container object (h (depth + 1))
    · intro key inner hsingle
      rw [← Option.not_isSome_iff_eq_none]
      exact fun hkey => hescaped ⟨key, inner, hsingle, hkey⟩

lemma decodeBinaryView_obj {kind : BinaryKind} {data : Bytes}
    (h : kind ≠ .float16Array ∨ runtime.float16 = true)
    (hdata : data.length % kind.bytesPerElement = 0) :
    decodeBinaryView runtime
      (.obj [("kind".toJs, .str kind.name), ("data".toJs, .str (Base64.encode data))]) =
        .ok (binary kind data) := by
  have hne : "kind".toJs ≠ "data".toJs := by decide
  simp [decodeBinaryView, stringMember, lookup, hne, Base64.decode_encode,
    Runtime.rebuildBinaryView_name h hdata]

lemma decodeRegExp_obj {source flags : JsString}
    (h : runtime.regExp? source flags = some (source, flags)) :
    decodeRegExp runtime (.obj [("source".toJs, .str source), ("flags".toJs, .str flags)]) =
      .ok (regExp source flags) := by
  have hne : "source".toJs ≠ "flags".toJs := by decide
  simp [decodeRegExp, stringMember, lookup, hne, h]

lemma yields_error {name message : ErrorText} {c e : Option Json} {depth n m : ℕ} {p q : Bool}
    {cause : Value} {errors : Option Value}
    (hcause : Yields (readCause runtime maxNestingDepth (depth + 2) c)
      (Fits maxNestingDepth (depth + 2) n ∧ p = true) cause)
    (herrors : Yields (readErrors runtime maxNestingDepth (depth + 2) e)
      (Fits maxNestingDepth (depth + 2) m ∧ q = true) errors) :
    Yields (decodeNode runtime maxNestingDepth depth
        (Tag.error.wrap (.obj (errorPayload name message c e))))
      (Fits maxNestingDepth depth (1 + unchecked (max n m)) ∧
        (name.string?.isSome && message.string?.isSome && p && q) = true)
      (rebuildError (name.string?.getD []) (message.string?.getD []) errors cause) := by
  rw [decodeNode_error, decodeError, stringMember_name, stringMember_message,
    decodeErrors_errorPayload, decodeCause_errorPayload]
  cases hname : name.string? with
  | none => exact (Yields.guard _ (Yields.error _ _)).iff (by simp)
  | some s =>
    cases hmessage : message.string? with
    | none => exact (Yields.guard _ (Yields.error _ _)).iff (by simp)
    | some s' =>
      refine (Yields.guard _ (herrors.bind (hcause.seq (rebuildError s s' errors)))).iff ?_
      rw [fits_add_one, fits_unchecked, fits_max, not_lt]
      simp only [Option.isSome_some, Bool.true_and, Bool.and_eq_true]
      tauto

mutual

theorem yields_node : ∀ (v : Value) {path : List PathSegment} {allowToJson : Bool}
    {r : Option Json} (depth : ℕ), v.WellFormed runtime →
    encodeNode runtime undefinedValues path allowToJson v = .ok r →
    Yields (decodeNode runtime maxNestingDepth depth (inPosition r))
      (Fits maxNestingDepth depth (v.levels allowToJson) ∧ v.hasTexts allowToJson = true)
      (v.restore allowToJson)
  | undefined, path, allowToJson, r, depth, _, h => by
    have hnone := isNone_of_encodeNode h
    rw [vanishes, Option.isNone_iff_eq_none] at hnone
    rw [hnone, inPosition, decodeNode_leaf rfl]
    exact yields_leaf rfl rfl
  | null, path, allowToJson, r, depth, _, h => by
    cases h
    exact Yields.of_eq_ok rfl ⟨fits_zero, rfl⟩
  | .bool b, path, allowToJson, r, depth, _, h => by
    cases h
    exact Yields.of_eq_ok rfl ⟨fits_zero, rfl⟩
  | string s, path, allowToJson, r, depth, _, h => by
    cases h
    exact Yields.of_eq_ok rfl ⟨fits_zero, rfl⟩
  | number x, path, allowToJson, r, depth, _, h => by
    cases h
    exact yields_number x allowToJson depth
  | bigint n, path, allowToJson, r, depth, _, h => by
    obtain ⟨t, ht, rfl⟩ := map_eq_ok h
    unfold encodeBigint at ht
    split at ht
    · cases ht
    · next hrange =>
      cases ht
      exact yields_leaf (decodeBigint_bigintText (by simpa using hrange)) rfl
  | date time, path, allowToJson, r, depth, hv, h => by
    obtain ⟨t, ht, rfl⟩ := map_eq_ok h
    cases time with
    | none => cases ht
    | some time =>
      cases ht
      exact yields_leaf (by rw [decodeDate, hv]; rfl) rfl
  | bytes data, path, allowToJson, r, depth, _, h => by
    cases h
    exact yields_leaf (by rw [decodeBytes, Base64.decode_encode]; rfl) rfl
  | binary kind data, path, allowToJson, r, depth, hv, h => by
    cases h
    exact yields_leaf (decodeBinaryView_obj hv.1 hv.2) rfl
  | regExp source flags, path, allowToJson, r, depth, hv, h => by
    cases h
    exact yields_leaf (decodeRegExp_obj hv) rfl
  | url href, path, allowToJson, r, depth, hv, h => by
    cases h
    exact yields_leaf (by rw [decodeUrl, hv]; rfl) rfl
  | exoticView _, _, _, _, _, _, h | unsupportedObject _, _, _, _, _, _, h
  | unsupportedType _, _, _, _, _, _, h => by
    cases h
  | map entries, path, allowToJson, r, depth, hv, h => by
    obtain ⟨pairs, hpairs, h⟩ := bind_eq_ok h
    cases h
    exact yields_container (fun es => map (newMap es))
      (yields_entries entries .map (depth + 1) hv.2.2 hpairs)
  | bidirectionalMap entries, path, allowToJson, r, depth, hv, h => by
    obtain ⟨pairs, hpairs, h⟩ := bind_eq_ok h
    cases h
    exact yields_container (fun es => bidirectionalMap (newBidirectionalMap es))
      (yields_entries entries .bidirectionalMap (depth + 1) hv.2.2 hpairs)
  | bidirectionalMultiMap rows, path, allowToJson, r, depth, hv, h => by
    obtain ⟨ts, hts, h⟩ := bind_eq_ok h
    cases h
    exact yields_container (fun rows => bidirectionalMultiMap (newBidirectionalMultiMap rows))
      (yields_rows rows (depth + 1) hv.2 hts)
  | .set members, path, allowToJson, r, depth, hv, h => by
    obtain ⟨ts, hts, h⟩ := bind_eq_ok h
    cases h
    exact yields_container (fun vs => Value.set (newSet vs))
      (yields_items members (depth + 1) hv.2.2 hts)
  | array items, path, allowToJson, r, depth, hv, h => by
    obtain ⟨ts, hts, h⟩ := bind_eq_ok h
    cases h
    exact yields_container array (yields_items items (depth + 1) hv.2 hts)
  | boxed primitive, path, allowToJson, r, depth, hv, h => by
    exact yields_node primitive depth hv.2 h
  | object properties, path, allowToJson, r, depth, hv, h => by
    obtain ⟨out, hout, h⟩ := bind_eq_ok h
    cases h
    exact yields_escapeObject (keys_encodeProperties hout) fun depth =>
      yields_properties properties depth hv.2.2 hout
  | withToJson resolved properties, path, allowToJson, r, depth, hv, h => by
    cases allowToJson with
    | true =>
      exact yields_node resolved depth hv.1 h
    | false =>
      obtain ⟨out, hout, h⟩ := bind_eq_ok h
      cases h
      exact yields_escapeObject (keys_encodeProperties hout) fun depth =>
        yields_properties properties depth hv.2.2 hout
  | error name message cause errors, path, allowToJson, r, depth, hv, h => by
    obtain ⟨c, hc, h⟩ := bind_eq_ok h
    obtain ⟨e, he, h⟩ := bind_eq_ok h
    cases h
    obtain ⟨-, -, hcause, herrors⟩ := hv
    refine yields_error (c := c) (e := e) ?_ (yields_errors errors (depth + 2) herrors he)
    by_cases hundefined : isUndefined cause = true
    · rw [if_pos hundefined] at hc
      cases hc
      have hvanishes : cause.vanishes true = true := by
        cases cause <;> first | rfl | cases hundefined
      obtain ⟨hrestore, htexts⟩ := restore_of_vanishes hvanishes
      rw [hvanishes, hrestore, htexts, if_pos rfl]
      exact Yields.of_eq_ok rfl ⟨fits_zero, rfl⟩
    · rw [if_neg hundefined] at hc
      have hnone := isNone_of_encodeNode hc
      cases c with
      | none =>
        obtain ⟨hrestore, htexts⟩ := restore_of_vanishes hnone.symm
        rw [← hnone, hrestore, htexts, Option.isNone_none, if_pos rfl]
        exact Yields.of_eq_ok rfl ⟨fits_zero, rfl⟩
      | some t =>
        rw [← hnone, Option.isNone_some, if_neg Bool.false_ne_true]
        exact yields_node cause (depth + 2) hcause hc

theorem yields_errors : ∀ (v : Value) {path : List PathSegment} {r : Option Json} (depth : ℕ),
    v.WellFormed runtime → encodeErrors runtime undefinedValues path v = .ok r →
    Yields (readErrors runtime maxNestingDepth depth r)
      (Fits maxNestingDepth depth (errorsLevels v) ∧ errorsHaveTexts v = true) (restoreErrors v)
  | array items, path, r, depth, hv, h => by
    obtain ⟨ts, hts, h⟩ := bind_eq_ok h
    cases h
    refine Yields.map some ?_
    exact yields_container array (yields_items items (depth + 1) hv.2 hts)
  | undefined, _, _, _, _, h | null, _, _, _, _, h | .bool _, _, _, _, _, h
  | number _, _, _, _, _, h | bigint _, _, _, _, _, h | string _, _, _, _, _, h
  | date _, _, _, _, _, h | bytes _, _, _, _, _, h | binary _ _, _, _, _, _, h
  | exoticView _, _, _, _, _, h | regExp _ _, _, _, _, _, h | url _, _, _, _, _, h
  | map _, _, _, _, _, h | .set _, _, _, _, _, h | bidirectionalMap _, _, _, _, _, h
  | bidirectionalMultiMap _, _, _, _, _, h | error _ _ _ _, _, _, _, _, h
  | boxed _, _, _, _, _, h | unsupportedObject _, _, _, _, _, h
  | unsupportedType _, _, _, _, _, h | object _, _, _, _, _, h
  | withToJson _ _, _, _, _, _, h => by
    cases h
    exact Yields.of_eq_ok rfl ⟨fits_zero, rfl⟩

theorem yields_items : ∀ (vs : List Value) {path : ℕ → List PathSegment} {index : ℕ}
    {ts : List Json} (depth : ℕ), ItemsWellFormed runtime vs →
    encodeItems runtime undefinedValues path index vs = .ok ts →
    Yields (decodeItems runtime maxNestingDepth depth ts)
      (Fits maxNestingDepth depth (itemsLevels vs) ∧ itemsHaveTexts vs = true) (restoreItems vs)
  | [], path, index, ts, depth, _, h => by
    cases h
    exact Yields.of_eq_ok rfl ⟨fits_zero, rfl⟩
  | v :: vs, path, index, ts, depth, hv, h => by
    obtain ⟨r, hr, h⟩ := bind_eq_ok h
    obtain ⟨rest, hrest, h⟩ := bind_eq_ok h
    cases h
    rw [decodeItems, itemsLevels, itemsHaveTexts, restoreItems]
    refine ((yields_node v depth hv.1 hr).bind
      ((yields_items vs depth hv.2 hrest).seq (List.cons _))).iff ?_
    rw [fits_max, Bool.and_eq_true]
    tauto

theorem yields_entries : ∀ (es : List (Value × Value)) {path : List PathSegment} {index : ℕ}
    {ts : List Json} (tag : Tag) (depth : ℕ), EntriesWellFormed runtime es →
    encodeEntryPairs runtime undefinedValues path index es = .ok ts →
    Yields (decodeEntryPairs runtime maxNestingDepth tag depth ts)
      (Fits maxNestingDepth depth (entriesLevels es) ∧ entriesHaveTexts es = true)
      (restoreEntries es)
  | [], path, index, ts, tag, depth, _, h => by
    cases h
    exact Yields.of_eq_ok rfl ⟨fits_zero, rfl⟩
  | (k, v) :: es, path, index, ts, tag, depth, hv, h => by
    obtain ⟨r, hr, h⟩ := bind_eq_ok h
    obtain ⟨r', hr', h⟩ := bind_eq_ok h
    obtain ⟨rest, hrest, h⟩ := bind_eq_ok h
    cases h
    rw [decodeEntryPairs, entriesLevels, entriesHaveTexts, restoreEntries]
    refine ((yields_node k depth hv.1 hr).bind ((yields_node v depth hv.2.1 hr').bind
      ((yields_entries es tag depth hv.2.2 hrest).seq (List.cons _)))).iff ?_
    rw [fits_max, fits_max, Bool.and_eq_true, Bool.and_eq_true]
    tauto

theorem yields_rows : ∀ (rows : List (Value × List Value)) {path : List PathSegment} {index : ℕ}
    {ts : List Json} (depth : ℕ), RowsWellFormed runtime rows →
    encodeRows runtime undefinedValues path index rows = .ok ts →
    Yields (decodeRows runtime maxNestingDepth depth ts)
      (Fits maxNestingDepth depth (rowsLevels rows) ∧ rowsHaveTexts rows = true)
      (restoreRows rows)
  | [], path, index, ts, depth, _, h => by
    cases h
    exact Yields.of_eq_ok rfl ⟨fits_zero, rfl⟩
  | (l, rs) :: rows, path, index, ts, depth, hv, h => by
    obtain ⟨r, hr, h⟩ := bind_eq_ok h
    obtain ⟨partners, hpartners, h⟩ := bind_eq_ok h
    obtain ⟨rest, hrest, h⟩ := bind_eq_ok h
    cases h
    rw [decodeRows, rowsLevels, rowsHaveTexts, restoreRows]
    refine ((yields_node l depth hv.1 hr).bind ((yields_items rs depth hv.2.2.2.1 hpartners).bind
        ((yields_rows rows depth hv.2.2.2.2 hrest).seq (List.cons _)))).iff ?_
    rw [fits_max, fits_max, Bool.and_eq_true, Bool.and_eq_true]
    tauto

theorem yields_properties : ∀ (ps : List (JsString × Value)) {path : List PathSegment}
    {out : List (JsString × Json)} (depth : ℕ), PropertiesWellFormed runtime ps →
    encodeProperties runtime undefinedValues path ps = .ok out →
    Yields (decodeProperties runtime maxNestingDepth depth out)
      (Fits maxNestingDepth depth (propertiesLevels ps) ∧ propertiesHaveTexts ps = true)
      (restoreProperties ps)
  | [], path, out, depth, _, h => by
    cases h
    exact Yields.of_eq_ok rfl ⟨fits_zero, rfl⟩
  | (key, v) :: ps, path, out, depth, hv, h => by
    obtain ⟨r, hr, h⟩ := bind_eq_ok h
    obtain ⟨rest, hrest, h⟩ := bind_eq_ok h
    cases h
    have hnone := isNone_of_encodeNode hr
    have hps := yields_properties ps depth hv.2.2 hrest
    rw [propertiesLevels, propertiesHaveTexts, restoreProperties, ← hnone, fits_max,
      Bool.and_eq_true]
    cases r with
    | none =>
      refine hps.iff ?_
      have htexts := (restore_of_vanishes hnone.symm).2
      simp [htexts, fits_zero]
    | some t =>
      refine ((yields_node v depth hv.2.1 hr).bind (hps.seq (List.cons _))).iff ?_
      tauto

end

end RoundTrip

end ActorTs.Serialization
