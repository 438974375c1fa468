import ActorTs.Serialization.Constants
import ActorTs.Serialization.Value

/-!
# The tagged JSON tree

`encodeNode` turns a value into a tree that JSON text can hold. What JSON would
lose is wrapped in an object with a tag for its sole key, and an object of the
user that looks like such a wrapper is itself wrapped under `__literal__`.
`decodeNode` takes the tree apart again, down to a number of levels.

A result `none` of `encodeNode` is a node that vanishes: an object drops the
property, an array, a map or a set writes `__undefined__` in its place.
-/

namespace ActorTs.Serialization

inductive Tag where
  | date | bytes | map | set | bidirectionalMap | bidirectionalMultiMap | bigint | number
  | undefined | regexp | url | error | typedarray | literal | serialized
  deriving DecidableEq

namespace Tag

def name : Tag → JsString
  | date => "__date__"
  | bytes => "__bytes__"
  | map => "__map__"
  | set => "__set__"
  | bidirectionalMap => "__bidirectionalmap__"
  | bidirectionalMultiMap => "__bidirectionalmultimap__"
  | bigint => "__bigint__"
  | number => "__number__"
  | undefined => "__undefined__"
  | regexp => "__regexp__"
  | url => "__url__"
  | error => "__error__"
  | typedarray => "__typedarray__"
  | literal => "__literal__"
  | serialized => "__serialized__"

def typeTags : List Tag :=
  [date, bytes, map, set, bidirectionalMap, bidirectionalMultiMap, bigint, number, undefined,
    regexp, url, error, typedarray]

def framingTags : List Tag := [literal, serialized]

def reservedTags : List Tag := typeTags ++ framingTags

/-- The reserved tag that a key spells. -/
def ofName? (key : JsString) : Option Tag := reservedTags.find? fun tag => tag.name = key

lemma ofName?_name (tag : Tag) : ofName? tag.name = some tag := by cases tag <;> decide

/-- The object with the tag for its sole key. -/
def wrap (tag : Tag) (inner : Json) : Json := .obj [(tag.name, inner)]

end Tag

structure SerializationError where
  message : JsString
  deriving DecidableEq

inductive UndefinedValueHandling where
  | reject
  | omit
  deriving DecidableEq

inductive PathSegment where
  | index (n : ℕ)
  | key (k : JsString)

def formatPath (path : List PathSegment) : JsString :=
  "$".toJs ++ path.flatMap fun
    | .index n => "[".toJs ++ JsonText.decimal n ++ "]".toJs
    | .key k => ".".toJs ++ k

/-- `BigInt.prototype.toString`. -/
def bigintText (n : ℤ) : JsString :=
  if n < 0 then 0x2D :: JsonText.decimal n.natAbs else JsonText.decimal n.natAbs

section Encode

def fail {α : Type} (message : JsString) : Except SerializationError α := .error ⟨message⟩

def encodeUndefined (undefinedValues : UndefinedValueHandling) (path : List PathSegment) :
    Except SerializationError (Option Json) :=
  match undefinedValues with
  | .reject => fail ("undefined is not JSON-serialisable at " ++ formatPath path)
  | .omit => .ok none

def encodeNumber (x : JsNumber) : Json :=
  match x with
  | .nan => Tag.number.wrap (.str "nan")
  | .infinity false => Tag.number.wrap (.str "infinity")
  | .infinity true => Tag.number.wrap (.str "-infinity")
  | .finite y =>
    if y.negative ∧ y.significand = 0 then Tag.number.wrap (.str "-0") else .num x

def encodeBigint (path : List PathSegment) (n : ℤ) : Except SerializationError Json :=
  if outsideBignumRange n then
    fail ("bigint outside " ++ bignumRange ++ " at " ++ formatPath path)
  else .ok (Tag.bigint.wrap (.str (bigintText n)))

/-- An invalid date has no text: `toISOString` throws. -/
def encodeDate (runtime : Runtime) (time : Option ℤ) : Except SerializationError Json :=
  match time with
  | none => fail "Invalid time value"
  | some t => .ok (Tag.date.wrap (.str (runtime.toISOString t)))

def encodeBinaryView (kind : BinaryKind) (data : Bytes) : Json :=
  Tag.typedarray.wrap
    (.obj [("kind", .str kind.name), ("data", .str (Base64.encode data))])

/-- A member that `JSON.stringify` writes for the name or the message of an error. -/
def encodeText (key : JsString) : ErrorText → List (JsString × Json)
  | .string s => [(key, .str s)]
  | .other (some j) _ => [(key, j)]
  | .other none _ => []

/-- A node in a value position: what vanishes elsewhere is marked here. -/
def inPosition : Option Json → Json
  | none => Tag.undefined.wrap (.bool true)
  | some t => t

/-- The escape check runs on the encoded form. -/
def escapeObject (out : List (JsString × Json)) : Json :=
  match out with
  | [(key, _)] => if (Tag.ofName? key).isSome then Tag.literal.wrap (.obj out) else .obj out
  | _ => .obj out

variable (runtime : Runtime) (undefinedValues : UndefinedValueHandling)

mutual

def encodeNode (path : List PathSegment) (allowToJson : Bool) :
    Value → Except SerializationError (Option Json)
  | .undefined => encodeUndefined undefinedValues path
  | .null => .ok (some .null)
  | .bool b => .ok (some (.bool b))
  | .number x => .ok (some (encodeNumber x))
  | .bigint n => some <$> encodeBigint path n
  | .string s => .ok (some (.str s))
  | .date time => some <$> encodeDate runtime time
  | .bytes data => .ok (some (Tag.bytes.wrap (.str (Base64.encode data))))
  | .binary kind data => .ok (some (encodeBinaryView kind data))
  | .exoticView constructorName =>
    fail ("Unsupported binary view ".toJs ++ constructorName ++ " at ".toJs ++ formatPath path)
  | .regExp source flags =>
    .ok (some (Tag.regexp.wrap (.obj [("source".toJs, .str source), ("flags".toJs, .str flags)])))
  | .url href => .ok (some (Tag.url.wrap (.str href)))
  | .map entries => do
      let pairs ← encodeEntryPairs path 0 entries
      return some (Tag.map.wrap (.arr pairs))
  | .set members => do
      let values ← encodeItems (fun i => path ++ [.index i]) 0 members
      return some (Tag.set.wrap (.arr values))
  | .bidirectionalMap entries => do
      let pairs ← encodeEntryPairs path 0 entries
      return some (Tag.bidirectionalMap.wrap (.arr pairs))
  | .bidirectionalMultiMap rows => do
      let rows ← encodeRows path 0 rows
      return some (Tag.bidirectionalMultiMap.wrap (.arr rows))
  | .error name message cause errors => do
      let causePath := path ++ [.key "cause".toJs]
      let encoded ← (if isUndefined cause then .ok none else encodeNode causePath true cause)
      let members ← encodeErrors (path ++ [.key "errors".toJs]) errors
      return some (Tag.error.wrap (.obj (encodeText "name".toJs name ++
        encodeText "message".toJs message ++ encoded.toList.map (Prod.mk "cause".toJs) ++
        members.toList.map (Prod.mk "errors".toJs))))
  | .boxed primitive => encodeNode path false primitive
  | .unsupportedObject constructorName =>
    fail ("Unsupported value of type ".toJs ++ constructorName ++ " at ".toJs ++ formatPath path)
  | .unsupportedType typeName =>
    fail ("Unsupported value of type ".toJs ++ typeName ++ " at ".toJs ++ formatPath path)
  | .array items => do
      let values ← encodeItems (fun i => path ++ [.index i]) 0 items
      return some (.arr values)
  | .object properties => do
      let out ← encodeProperties path properties
      return some (escapeObject out)
  | .withToJson resolved properties =>
    if allowToJson then encodeNode path false resolved
    else do
      let out ← encodeProperties path properties
      return some (escapeObject out)

/-- The `errors` of an error are written when they are an array. -/
def encodeErrors (path : List PathSegment) : Value → Except SerializationError (Option Json)
  | .array items => do
      let values ← encodeItems (fun i => path ++ [.index i]) 0 items
      return some (.arr values)
  | _ => .ok none

def encodeItems (path : ℕ → List PathSegment) (index : ℕ) :
    List Value → Except SerializationError (List Json)
  | [] => .ok []
  | v :: vs => do
      let encoded ← encodeNode (path index) true v
      let rest ← encodeItems path (index + 1) vs
      return inPosition encoded :: rest

def encodeEntryPairs (path : List PathSegment) (index : ℕ) :
    List (Value × Value) → Except SerializationError (List Json)
  | [] => .ok []
  | (key, value) :: entries => do
      let encodedKey ← encodeNode (path ++ [.index index]) true key
      let encodedValue ← encodeNode (path ++ [.index index]) true value
      let rest ← encodeEntryPairs path (index + 1) entries
      return .arr [inPosition encodedKey, inPosition encodedValue] :: rest

def encodeRows (path : List PathSegment) (index : ℕ) :
    List (Value × List Value) → Except SerializationError (List Json)
  | [] => .ok []
  | (left, rights) :: rows => do
      let encodedLeft ← encodeNode (path ++ [.index index]) true left
      let partners ← encodeItems (fun _ => path ++ [.index index]) 0 rights
      let rest ← encodeRows path (index + 1) rows
      return .arr [inPosition encodedLeft, .arr partners] :: rest

def encodeProperties (path : List PathSegment) :
    List (JsString × Value) → Except SerializationError (List (JsString × Json))
  | [] => .ok []
  | (key, value) :: properties => do
      let encoded ← encodeNode (path ++ [.key key]) true value
      let rest ← encodeProperties path properties
      return encoded.toList.map (Prod.mk key) ++ rest

end

def encodeJsonTree (v : Value) : Except SerializationError Json := do
  match ← encodeNode runtime undefinedValues [] true v with
  | none => fail "undefined is not JSON-serialisable"
  | some t => .ok t

end Encode

section Decode

def malformedTag {α : Type} (tag : Tag) (expected : JsString) : Except SerializationError α :=
  fail ("Malformed " ++ tag.name ++ " tag: expected " ++ expected)

def decodeDate (runtime : Runtime) : Json → Except SerializationError Value
  | .str iso => .ok (.date (runtime.dateParse iso))
  | _ => malformedTag .date "a string"

def decodeBytes : Json → Except SerializationError Value
  | .str text => .ok (.bytes (Base64.decode text))
  | _ => malformedTag .bytes "a string"

def decodeNumber : Json → Except SerializationError Value
  | .str s =>
    if s = "nan" then .ok (.number .nan)
    else if s = "infinity" then .ok (.number (.infinity false))
    else if s = "-infinity" then .ok (.number (.infinity true))
    else if s = "-0" then .ok (.number (.finite (.zero true)))
    else malformedTag .number "'nan', 'infinity', '-infinity' or '-0'"
  | _ => malformedTag .number "'nan', 'infinity', '-infinity' or '-0'"

def decodeUndefined : Json → Except SerializationError Value
  | .bool true => .ok .undefined
  | _ => malformedTag .undefined "true"

/-- The sign, and the digits behind it. -/
def splitSign : JsString → Bool × JsString
  | [] => (false, [])
  | u :: us => if u = 0x2D then (true, us) else (false, u :: us)

/-- `CANONICAL_BIGINT_PATTERN`. -/
def isCanonicalBigint (text : JsString) : Bool :=
  text == "0" ||
    match (splitSign text).2 with
    | [] => false
    | u :: us => u != 0x30 && (u :: us).all JsonText.isDigit

/-- `BigInt` of a text of the canonical form. -/
def parseBigint (text : JsString) : ℤ :=
  let magnitude : ℤ := JsonText.digitsValue (splitSign text).2
  if (splitSign text).1 then -magnitude else magnitude

def decodeBigint : Json → Except SerializationError Value
  | .str text =>
    if maxBigintDigits < (splitSign text).2.length then
      malformedTag .bigint ("at most " ++ JsonText.decimal maxBigintDigits ++
        " digits")
    else if ¬ isCanonicalBigint text then malformedTag .bigint "a decimal integer string"
    else if outsideBignumRange (parseBigint text) then
      malformedTag .bigint ("an integer from " ++ bignumRange)
    else .ok (.bigint (parseBigint text))
  | _ => malformedTag .bigint "a string"

/-- The string that an object holds under a key. -/
def stringMember (key : JsString) (inner : Json) : Option JsString :=
  match inner with
  | .obj members =>
    match OrderedMap.lookup key members with
    | some (.str s) => some s
    | _ => none
  | _ => none

def decodeRegExp (runtime : Runtime) (inner : Json) : Except SerializationError Value :=
  match stringMember "source" inner, stringMember "flags" inner with
  | some source, some flags =>
    match runtime.regExp? source flags with
    | some (source, flags) => .ok (.regExp source flags)
    | none => malformedTag .regexp
        ("a valid pattern (got /" ++ source ++ "/" ++ flags ++ ")")
  | _, _ => malformedTag .regexp "a \x7b source, flags \x7d pair of strings"

def decodeUrl (runtime : Runtime) : Json → Except SerializationError Value
  | .str href =>
    match runtime.url? href with
    | some href => .ok (.url href)
    | none => malformedTag .url ("an absolute URL (got '" ++ href ++ "')")
  | _ => malformedTag .url "a string"

def decodeBinaryView (runtime : Runtime) (inner : Json) : Except SerializationError Value :=
  match stringMember "kind" inner, stringMember "data" inner with
  | some kind, some data =>
    match runtime.rebuildBinaryView kind (Base64.decode data) with
    | some view => .ok view
    | none => malformedTag .typedarray
        ("a known binary kind with a whole number of elements (got '" ++ kind ++ "')")
  | _, _ => malformedTag .typedarray "a \x7b kind, data \x7d object"

def isArray : Json → Bool
  | .arr _ => true
  | _ => false

variable (runtime : Runtime) (maxNestingDepth : ℕ)

def tooDeep {α : Type} : Except SerializationError α :=
  fail ("JSON nesting deeper than " ++ JsonText.decimal maxNestingDepth)

mutual

def decodeNode (depth : ℕ) : Json → Except SerializationError Value
  | .null => .ok .null
  | .bool b => .ok (.bool b)
  | .num x => .ok (.number x)
  | .str s => .ok (.string s)
  | .arr items =>
    if maxNestingDepth < depth then tooDeep maxNestingDepth
    else do
      let values ← decodeItems (depth + 1) items
      return .array values
  | .obj members =>
    if maxNestingDepth < depth then tooDeep maxNestingDepth
    else
      match members with
      | [(key, inner)] =>
        match Tag.ofName? key with
        | some .date => decodeDate runtime inner
        | some .bytes => decodeBytes inner
        | some .map => do
            let pairs ← decodeEntries .map (depth + 1) inner
            return .map (Value.newMap pairs)
        | some .bidirectionalMap => do
            let pairs ← decodeEntries .bidirectionalMap (depth + 1) inner
            return .bidirectionalMap (Value.newBidirectionalMap pairs)
        | some .bidirectionalMultiMap => do
            let rows ← decodeAdjacency (depth + 1) inner
            return .bidirectionalMultiMap (Value.newBidirectionalMultiMap rows)
        | some .set => do
            let values ← decodeMembers (depth + 1) inner
            return .set (Value.newSet values)
        | some .bigint => decodeBigint inner
        | some .number => decodeNumber inner
        | some .undefined => decodeUndefined inner
        | some .regexp => decodeRegExp runtime inner
        | some .url => decodeUrl runtime inner
        | some .error => decodeError (depth + 1) inner
        | some .typedarray => decodeBinaryView runtime inner
        | some .literal => decodeLiteral (depth + 1) inner
        | some .serialized => do
            let value ← decodeNode (depth + 1) inner
            return .object [(key, value)]
        | none => do
            let value ← decodeNode (depth + 1) inner
            return .object [(key, value)]
      | members => do
          let properties ← decodeProperties (depth + 1) members
          return .object properties

/-- The entries under a tag for a map. -/
def decodeEntries (tag : Tag) (depth : ℕ) :
    Json → Except SerializationError (List (Value × Value))
  | .arr entries => decodeEntryPairs tag depth entries
  | _ => malformedTag tag "an array of entry pairs"

/-- The rows under the tag for a relation. -/
def decodeAdjacency (depth : ℕ) : Json → Except SerializationError (List (Value × List Value))
  | .arr rows => decodeRows depth rows
  | _ => malformedTag .bidirectionalMultiMap "an array of [left, right[]] rows"

/-- The members under the tag for a set. -/
def decodeMembers (depth : ℕ) : Json → Except SerializationError (List Value)
  | .arr items => decodeItems depth items
  | _ => malformedTag .set "an array"

def decodeError (depth : ℕ) : Json → Except SerializationError Value
  | .obj payload =>
    match stringMember "name" (.obj payload), stringMember "message" (.obj payload) with
    | some name, some message => do
        let errors ← decodeErrors (depth + 1) payload
        let cause ← decodeCause (depth + 1) payload
        return rebuildError name message errors cause
    | _, _ => malformedTag .error "a \x7b name, message \x7d object"
  | _ => malformedTag .error "a \x7b name, message \x7d object"

/-- The keys of the wrapped object are plain data, its values are not. Anything else
is a node at this depth. -/
def decodeLiteral (depth : ℕ) : Json → Except SerializationError Value
  | .obj members => do
      let properties ← decodeProperties (depth + 1) members
      return .object properties
  | .arr items =>
    if maxNestingDepth < depth then tooDeep maxNestingDepth
    else do
      let values ← decodeItems (depth + 1) items
      return .array values
  | .null => .ok .null
  | .bool b => .ok (.bool b)
  | .num x => .ok (.number x)
  | .str s => .ok (.string s)

def decodeItems (depth : ℕ) : List Json → Except SerializationError (List Value)
  | [] => .ok []
  | item :: items => do
      let value ← decodeNode depth item
      let rest ← decodeItems depth items
      return value :: rest

def decodeEntryPairs (tag : Tag) (depth : ℕ) :
    List Json → Except SerializationError (List (Value × Value))
  | [] => .ok []
  | .arr [key, value] :: entries => do
      let key ← decodeNode depth key
      let value ← decodeNode depth value
      let rest ← decodeEntryPairs tag depth entries
      return (key, value) :: rest
  | _ :: _ => malformedTag tag "an array of entry pairs"

def decodeRows (depth : ℕ) : List Json → Except SerializationError (List (Value × List Value))
  | [] => .ok []
  | .arr [left, .arr rights] :: rows => do
      let left ← decodeNode depth left
      let rights ← decodeItems depth rights
      let rest ← decodeRows depth rows
      return (left, rights) :: rest
  | _ :: _ => malformedTag .bidirectionalMultiMap "an array of [left, right[]] rows"

def decodeProperties (depth : ℕ) :
    List (JsString × Json) → Except SerializationError (List (JsString × Value))
  | [] => .ok []
  | (key, member) :: members => do
      let value ← decodeNode depth member
      let rest ← decodeProperties depth members
      return (key, value) :: rest

/-- `payload.errors`, where it is an array. -/
def decodeErrors (depth : ℕ) :
    List (JsString × Json) → Except SerializationError (Option Value)
  | [] => .ok none
  | (key, member) :: members =>
    if key = "errors" then
      if isArray member then some <$> decodeNode depth member else .ok none
    else decodeErrors depth members

/-- `payload.cause`; an error without one has none to read either. -/
def decodeCause (depth : ℕ) : List (JsString × Json) → Except SerializationError Value
  | [] => .ok .undefined
  | (key, member) :: members =>
    if key = "cause" then decodeNode depth member else decodeCause depth members

end

def decodeJsonTree (t : Json) : Except SerializationError Value :=
  decodeNode runtime maxNestingDepth 0 t

end Decode

end ActorTs.Serialization
