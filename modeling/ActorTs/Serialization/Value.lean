import ActorTs.Library.Base64
import ActorTs.Library.Json

/-!
# The values a codec is handed

A value is a tree: what a walker reaches from the root when nothing is its own
ancestor. Objects are the lists of their own enumerable properties, maps and sets
the lists of their entries, each in the order in which it is iterated. Two
references of a tree are never the same object, so only primitives can be equal
as keys.

What depends on the runtime is a parameter: dates in text, the patterns and locations its
constructors accept, and whether it has `Float16Array`. `Value.WellFormed` says which trees stand
for values that exist.
-/

open List

namespace ActorTs.Serialization

inductive BinaryKind where
  | arrayBuffer | dataView | int8Array | uint8ClampedArray | int16Array | uint16Array | int32Array
  | uint32Array | float32Array | float64Array | bigInt64Array | bigUint64Array | float16Array
  deriving DecidableEq

namespace BinaryKind

def name : BinaryKind → JsString
  | arrayBuffer => "ArrayBuffer"
  | dataView => "DataView"
  | int8Array => "Int8Array"
  | uint8ClampedArray => "Uint8ClampedArray"
  | int16Array => "Int16Array"
  | uint16Array => "Uint16Array"
  | int32Array => "Int32Array"
  | uint32Array => "Uint32Array"
  | float32Array => "Float32Array"
  | float64Array => "Float64Array"
  | bigInt64Array => "BigInt64Array"
  | bigUint64Array => "BigUint64Array"
  | float16Array => "Float16Array"

/-- `BYTES_PER_ELEMENT`; a buffer and a data view take any number of bytes. -/
def bytesPerElement : BinaryKind → ℕ
  | arrayBuffer | dataView | int8Array | uint8ClampedArray => 1
  | int16Array | uint16Array | float16Array => 2
  | int32Array | uint32Array | float32Array => 4
  | float64Array | bigInt64Array | bigUint64Array => 8

def all : List BinaryKind :=
  [arrayBuffer, dataView, int8Array, uint8ClampedArray, int16Array, uint16Array, int32Array,
    uint32Array, float32Array, float64Array, bigInt64Array, bigUint64Array, float16Array]

end BinaryKind

/-- The name or the message of an error. The type says that it is a string; what
is not is handed to `JSON.stringify` and to `TextEncoder` as it is. -/
inductive ErrorText where
  | string (s : JsString)
  | other (json : Option Json) (text : JsString)

inductive Value where
  | undefined
  | null
  | bool (b : Bool)
  | number (x : JsNumber)
  | bigint (n : ℤ)
  | string (s : JsString)
  /-- A date by its time value, which an invalid date has none of. -/
  | date (time : Option ℤ)
  | bytes (data : Bytes)
  | binary (kind : BinaryKind) (data : Bytes)
  /-- A view that is an instance of none of the constructors of this realm. -/
  | exoticView (constructorName : JsString)
  | regExp (source flags : JsString)
  | url (href : JsString)
  | map (entries : List (Value × Value))
  | set (members : List Value)
  | bidirectionalMap (entries : List (Value × Value))
  | bidirectionalMultiMap (rows : List (Value × List Value))
  | error (name message : ErrorText) (cause errors : Value)
  | boxed (primitive : Value)
  /-- A promise or a weak collection. -/
  | unsupportedObject (constructorName : JsString)
  /-- A function or a symbol. -/
  | unsupportedType (typeName : JsString)
  | array (items : List Value)
  | object (properties : List (JsString × Value))
  /-- An object with a `toJSON` method, by its result and its own properties. -/
  | withToJson (resolved : Value) (properties : List (JsString × Value))

structure Runtime where
  float16 : Bool
  toISOString : ℤ → JsString
  dateParse : JsString → Option ℤ
  /-- The source and the flags of the expression that `new RegExp` builds. -/
  regExp? : JsString → JsString → Option (JsString × JsString)
  /-- The `href` of what `new URL` builds. -/
  url? : JsString → Option JsString

namespace Runtime

/-- `TYPED_ARRAY_CONSTRUCTORS` and the two kinds beside it. -/
def binaryKinds (runtime : Runtime) : List BinaryKind :=
  BinaryKind.all.filter fun kind => kind ≠ .float16Array ∨ runtime.float16

def isBinaryKind (runtime : Runtime) (name : JsString) : Bool :=
  runtime.binaryKinds.any fun kind => kind.name = name

def rebuildBinaryView (runtime : Runtime) (name : JsString) (data : Bytes) : Option Value :=
  match runtime.binaryKinds.find? fun kind => kind.name = name with
  | none => none
  | some kind => if data.length % kind.bytesPerElement ≠ 0 then none else some (.binary kind data)

lemma find?_binaryKinds {runtime : Runtime} {kind : BinaryKind}
    (h : kind ≠ .float16Array ∨ runtime.float16 = true) :
    (runtime.binaryKinds.find? fun k => k.name = kind.name) = some kind := by
  have hnames : ∀ f : Bool, ∀ kind ∈ BinaryKind.all, kind ≠ .float16Array ∨ f = true →
      ((BinaryKind.all.filter fun k => k ≠ .float16Array ∨ f).find? fun k =>
        k.name = kind.name) = some kind := by
    decide
  exact hnames runtime.float16 kind (by cases kind <;> decide) h

lemma rebuildBinaryView_name {runtime : Runtime} {kind : BinaryKind} {data : Bytes}
    (h : kind ≠ .float16Array ∨ runtime.float16 = true)
    (hdata : data.length % kind.bytesPerElement = 0) :
    runtime.rebuildBinaryView kind.name data = some (.binary kind data) := by
  simp [rebuildBinaryView, find?_binaryKinds h, hdata]

end Runtime

/-- Only an `AggregateError` takes its `errors` back. -/
def rebuildError (name message : JsString) (errors : Option Value) (cause : Value) : Value :=
  .error (.string name) (.string message) cause
    (if name = "AggregateError" then errors.getD .undefined else .undefined)

def isUndefined : Value → Bool
  | .undefined => true
  | _ => false

namespace Value

/-- `SameValueZero`, where no two references are the same object. -/
def sameValueZero : Value → Value → Bool
  | undefined, undefined => true
  | null, null => true
  | bool a, bool b => a = b
  | number (.finite a), number (.finite b) => a = b ∨ a.significand = 0 ∧ b.significand = 0
  | number a, number b => a = b
  | bigint a, bigint b => a = b
  | string a, string b => a = b
  | _, _ => false

/-- The number is a negative zero. -/
def isNegativeZero : Value → Bool
  | number (.finite x) => x.negative && x.significand = 0
  | _ => false

/-- A negative zero is no key of its own. -/
def normalizeKey (v : Value) : Value :=
  if isNegativeZero v then number (.finite (.zero false)) else v

/-- `Map.prototype.set`. -/
def mapSet (k v : Value) : List (Value × Value) → List (Value × Value)
  | [] => [(normalizeKey k, v)]
  | (k', v') :: es => if sameValueZero k k' then (k', v) :: es else (k', v') :: mapSet k v es

/-- `Set.prototype.add`. -/
def setAdd (v : Value) : List Value → List Value
  | [] => [normalizeKey v]
  | w :: ws => if sameValueZero v w then w :: ws else w :: setAdd v ws

def newMap (entries : List (Value × Value)) : List (Value × Value) :=
  entries.foldl (fun m e => mapSet e.1 e.2 m) []

def newSet (members : List Value) : List Value := members.foldl (fun s v => setAdd v s) []

/-- `BidirectionalMap.prototype.set`: a pair that holds the value under another
key goes. -/
def bidirectionalSet (k v : Value) (m : List (Value × Value)) : List (Value × Value) :=
  mapSet k v (m.filter fun e => !sameValueZero v e.2 || sameValueZero k e.1)

def newBidirectionalMap (entries : List (Value × Value)) : List (Value × Value) :=
  entries.foldl (fun m e => bidirectionalSet e.1 e.2 m) []

/-- `BidirectionalMultiMap.prototype.add` of one left participant with each of its
partners. -/
def multiMapAdd (left : Value) (rights : List Value) :
    List (Value × List Value) → List (Value × List Value)
  | [] => if rights.isEmpty then [] else [(normalizeKey left, newSet rights)]
  | (l, rs) :: rows =>
    if sameValueZero left l then (l, rights.foldl (fun s v => setAdd v s) rs) :: rows
    else (l, rs) :: multiMapAdd left rights rows

def newBidirectionalMultiMap (rows : List (Value × List Value)) : List (Value × List Value) :=
  rows.foldl (fun m row => multiMapAdd row.1 row.2 m) []

def isPrimitive : Value → Bool
  | undefined | null | bool _ | number _ | bigint _ | string _ => true
  | _ => false

/-- The keys of a map or the members of a set. -/
def KeysDistinct (keys : List Value) : Prop :=
  keys.Pairwise (fun a b => sameValueZero b a = false) ∧ ∀ k ∈ keys, isNegativeZero k = false

section Keyed

variable {v : Value}

lemma sameValueZero_of_reference (h : isPrimitive v = false) (w : Value) :
    sameValueZero v w = false ∧ sameValueZero w v = false := by
  constructor
  · cases v <;> first | rfl | cases h
  · cases v <;> first
      | cases w with
        | number x => cases x <;> rfl
        | _ => rfl
      | cases h

lemma isNegativeZero_of_reference (h : isPrimitive v = false) : isNegativeZero v = false := by
  cases v <;> first | rfl | cases h

lemma normalizeKey_of_false (h : isNegativeZero v = false) : normalizeKey v = v := by
  simp [normalizeKey, h]

lemma mapSet_of_new {k : Value} {m : List (Value × Value)} (hk : isNegativeZero k = false)
    (h : ∀ e ∈ m, sameValueZero k e.1 = false) : mapSet k v m = m ++ [(k, v)] := by
  induction m with
  | nil => rw [mapSet, normalizeKey_of_false hk, nil_append]
  | cons e m ih =>
    rw [mapSet, h e List.mem_cons_self, if_neg Bool.false_ne_true,
      ih fun e he => h e (mem_cons_of_mem _ he), cons_append]

lemma setAdd_of_new {s : List Value} (hv : isNegativeZero v = false)
    (h : ∀ w ∈ s, sameValueZero v w = false) : setAdd v s = s ++ [v] := by
  induction s with
  | nil => rw [setAdd, normalizeKey_of_false hv, nil_append]
  | cons w s ih =>
    rw [setAdd, h w List.mem_cons_self, if_neg Bool.false_ne_true,
      ih fun w hw => h w (mem_cons_of_mem _ hw), cons_append]

lemma newMap_of_distinct {entries : List (Value × Value)}
    (h : KeysDistinct (entries.map Prod.fst)) : newMap entries = entries := by
  induction entries using List.reverseRecOn with
  | nil => rfl
  | append_singleton es e ih =>
    obtain ⟨hpair, hzero⟩ := h
    rw [map_append, pairwise_append] at hpair
    rw [newMap, foldl_append]
    have hrest : newMap es = es :=
      ih ⟨hpair.1, fun k hk => hzero k (by rw [map_append]; exact mem_append_left _ hk)⟩
    rw [newMap] at hrest
    rw [hrest, foldl_cons, foldl_nil]
    refine mapSet_of_new (hzero e.1 (by simp)) fun e' he' => ?_
    exact hpair.2.2 e'.1 (mem_map_of_mem he') e.1 (by simp)

lemma newSet_of_distinct {members : List Value} (h : KeysDistinct members) :
    newSet members = members := by
  induction members using List.reverseRecOn with
  | nil => rfl
  | append_singleton vs v ih =>
    obtain ⟨hpair, hzero⟩ := h
    rw [pairwise_append] at hpair
    rw [newSet, foldl_append]
    have hrest : newSet vs = vs := ih ⟨hpair.1, fun k hk => hzero k (mem_append_left _ hk)⟩
    rw [newSet] at hrest
    rw [hrest, foldl_cons, foldl_nil]
    exact setAdd_of_new (hzero v (by simp)) fun w hw => hpair.2.2 w hw v (by simp)

end Keyed

/-- What stands in the text for something else is what the text reads back as. -/
def textWellFormed : ErrorText → Prop
  | .string _ => True
  | .other none _ => True
  | .other (some j) _ => j.normal = j

/-- Not longer than a number can say. -/
def SafeLength {α : Type} (l : List α) : Prop := l.length < 2 ^ 53

instance {α : Type} (l : List α) : Decidable (SafeLength l) :=
  inferInstanceAs (Decidable (l.length < 2 ^ 53))

/-- A wrapper object holds a number, a string or a boolean. -/
def isBoxable : Value → Bool
  | number _ | string _ | bool _ => true
  | _ => false

mutual

def WellFormed (runtime : Runtime) : Value → Prop
  | string s => SafeLength (Utf8.encode s)
  | bytes data => SafeLength data
  | date (some t) => runtime.dateParse (runtime.toISOString t) = some t
  | binary kind data => (kind ≠ .float16Array ∨ runtime.float16 = true) ∧
      data.length % kind.bytesPerElement = 0
  | regExp source flags => runtime.regExp? source flags = some (source, flags)
  | url href => runtime.url? href = some href
  | map entries => SafeLength entries ∧ KeysDistinct (entries.map Prod.fst) ∧
      EntriesWellFormed runtime entries
  | set members => SafeLength members ∧ KeysDistinct members ∧ ItemsWellFormed runtime members
  | bidirectionalMap entries => KeysDistinct (entries.map Prod.fst) ∧
      (entries.map Prod.snd).Pairwise (fun a b => sameValueZero b a = false) ∧
      EntriesWellFormed runtime entries
  | bidirectionalMultiMap rows => KeysDistinct (rows.map Prod.fst) ∧ RowsWellFormed runtime rows
  | error name message cause errors => textWellFormed name ∧ textWellFormed message ∧
      WellFormed runtime cause ∧ WellFormed runtime errors
  | boxed primitive => isBoxable primitive = true ∧ WellFormed runtime primitive
  | array items => SafeLength items ∧ ItemsWellFormed runtime items
  | object properties => SafeLength properties ∧ (properties.map Prod.fst).Nodup ∧
      PropertiesWellFormed runtime properties
  | withToJson resolved properties => WellFormed runtime resolved ∧
      (properties.map Prod.fst).Nodup ∧ PropertiesWellFormed runtime properties
  | _ => True

def ItemsWellFormed (runtime : Runtime) : List Value → Prop
  | [] => True
  | v :: vs => WellFormed runtime v ∧ ItemsWellFormed runtime vs

def EntriesWellFormed (runtime : Runtime) : List (Value × Value) → Prop
  | [] => True
  | (k, v) :: es => WellFormed runtime k ∧ WellFormed runtime v ∧ EntriesWellFormed runtime es

def PropertiesWellFormed (runtime : Runtime) : List (JsString × Value) → Prop
  | [] => True
  | (key, v) :: ps => SafeLength (Utf8.encode key) ∧ WellFormed runtime v ∧ PropertiesWellFormed runtime ps

def RowsWellFormed (runtime : Runtime) : List (Value × List Value) → Prop
  | [] => True
  | (l, rs) :: rows => WellFormed runtime l ∧ rs ≠ [] ∧ KeysDistinct rs ∧
      ItemsWellFormed runtime rs ∧ RowsWellFormed runtime rows

end

section Members

variable {runtime : Runtime}

lemma itemsWellFormed_iff {vs : List Value} :
    ItemsWellFormed runtime vs ↔ ∀ v ∈ vs, v.WellFormed runtime := by
  induction vs with
  | nil => simp [ItemsWellFormed]
  | cons v vs ih => rw [ItemsWellFormed, ih, forall_mem_cons]

lemma entriesWellFormed_iff {es : List (Value × Value)} :
    EntriesWellFormed runtime es ↔
      ∀ e ∈ es, e.1.WellFormed runtime ∧ e.2.WellFormed runtime := by
  induction es with
  | nil => simp [EntriesWellFormed]
  | cons e es ih => rw [EntriesWellFormed, ih, List.forall_mem_cons, and_assoc]

lemma propertiesWellFormed_iff {ps : List (JsString × Value)} :
    PropertiesWellFormed runtime ps ↔
      ∀ p ∈ ps, SafeLength (Utf8.encode p.1) ∧ p.2.WellFormed runtime := by
  induction ps with
  | nil => simp [PropertiesWellFormed]
  | cons p ps ih => rw [PropertiesWellFormed, ih, List.forall_mem_cons, and_assoc]

end Members

/-- The values that arrays, maps, sets and plain objects make of some leaves, with
some strings for keys. -/
inductive BuiltFrom (leaf : Value → Prop) (key : JsString → Prop) : Value → Prop
  | leaf {v : Value} (h : leaf v) : BuiltFrom leaf key v
  | array {items : List Value} (h : ∀ v ∈ items, BuiltFrom leaf key v) :
      BuiltFrom leaf key (array items)
  | set {members : List Value} (h : ∀ v ∈ members, BuiltFrom leaf key v) :
      BuiltFrom leaf key (set members)
  | map {entries : List (Value × Value)} (hkeys : ∀ e ∈ entries, BuiltFrom leaf key e.1)
      (hvalues : ∀ e ∈ entries, BuiltFrom leaf key e.2) : BuiltFrom leaf key (map entries)
  | object {properties : List (JsString × Value)} (hkeys : ∀ p ∈ properties, key p.1)
      (hvalues : ∀ p ∈ properties, BuiltFrom leaf key p.2) :
      BuiltFrom leaf key (object properties)

mutual

/-- The value less the properties of its objects that are undefined. -/
def withoutUndefined : Value → Value
  | array items => array (itemsWithoutUndefined items)
  | set members => set (itemsWithoutUndefined members)
  | map entries => map (entriesWithoutUndefined entries)
  | object properties => object (propertiesWithoutUndefined properties)
  | v => v

def itemsWithoutUndefined : List Value → List Value
  | [] => []
  | v :: vs => withoutUndefined v :: itemsWithoutUndefined vs

def entriesWithoutUndefined : List (Value × Value) → List (Value × Value)
  | [] => []
  | (k, v) :: es => (withoutUndefined k, withoutUndefined v) :: entriesWithoutUndefined es

def propertiesWithoutUndefined : List (JsString × Value) → List (JsString × Value)
  | [] => []
  | (_, undefined) :: ps => propertiesWithoutUndefined ps
  | (key, v) :: ps => (key, withoutUndefined v) :: propertiesWithoutUndefined ps

end

end Value

/-- A value that exists. -/
def JsValue (runtime : Runtime) : Type := { v : Value // v.WellFormed runtime }

/-- A runtime that builds no date, no pattern and no location. -/
def bareRuntime : Runtime := ⟨true, fun _ => [], fun _ => none, fun _ _ => none, fun _ => none⟩

end ActorTs.Serialization
