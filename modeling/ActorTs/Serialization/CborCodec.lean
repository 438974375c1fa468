import ActorTs.Library.BigEndian
import ActorTs.Library.ByteReader
import ActorTs.Library.Float64
import ActorTs.Serialization.Constants
import ActorTs.Serialization.Value

/-!
# The CBOR codec

`writeValue` appends a value to the bytes written so far. `depth` counts the levels that the decoder
will spend on the value, and every level is checked against the same ceiling.

`readValue` reads one item. The levels that are left are its fuel, so the ceiling of
the reader is also what bounds its recursion. An item is a header, the major type and
a length, and then what the major type says.
-/

namespace ActorTs.Serialization.Cbor

open JsonText

structure CborEncodeError where
  message : JsString
  deriving DecidableEq

structure CborDecodeError where
  message : JsString
  deriving DecidableEq

namespace Tag

def datetime : ℕ := 0

def epochDatetime : ℕ := 1

def unsignedBignum : ℕ := 2

def negativeBignum : ℕ := 3

/-- A type name and the arguments of its constructor. -/
def genericObject : ℕ := 27

def uri : ℕ := 32

def set : ℕ := 258

def map : ℕ := 259

end Tag

def maxSafeInteger : ℕ := 2 ^ 53 - 1

section Encode

def writeHeader (major value : ℕ) : Bytes :=
  if value < 24 then [UInt8.ofNat (major * 32 + value)]
  else if value < 2 ^ 8 then UInt8.ofNat (major * 32 + 24) :: BigEndian.bytes 1 value
  else if value < 2 ^ 16 then UInt8.ofNat (major * 32 + 25) :: BigEndian.bytes 2 value
  else if value < 2 ^ 32 then UInt8.ofNat (major * 32 + 26) :: BigEndian.bytes 4 value
  else UInt8.ofNat (major * 32 + 27) :: BigEndian.bytes 8 value

def writeTag (tag : ℕ) : Bytes := writeHeader 6 tag

def writeSimple (value : ℕ) : Bytes := [UInt8.ofNat (7 * 32 + value)]

def writeDouble (x : JsNumber) : Bytes := UInt8.ofNat (7 * 32 + 27) :: BigEndian.bytes 8 x.bits

def writeInt (n : ℤ) : Bytes :=
  if 0 ≤ n then writeHeader 0 n.toNat else writeHeader 1 (-n - 1).toNat

def safeInteger? : JsNumber → Option ℤ
  | .finite x => x.integer?.filter fun n => n.natAbs ≤ maxSafeInteger
  | _ => none

def writeNumber (x : JsNumber) : Bytes :=
  if x.isNegativeZero then writeDouble x
  else
    match safeInteger? x with
    | some n => writeInt n
    | none => writeDouble x

def writeBytes (data : Bytes) : Bytes := writeHeader 2 data.length ++ data

def writeString (text : JsString) : Bytes :=
  writeHeader 3 (Utf8.encode text).length ++ Utf8.encode text

def writeBigInt (n : ℤ) : Except CborEncodeError Bytes :=
  if outsideBignumRange n then
    .error ⟨"Cannot encode a bigint outside " ++ bignumRange⟩
  else
    .ok (writeTag (if 0 ≤ n then Tag.unsignedBignum else Tag.negativeBignum) ++
      writeBytes (BigEndian.minimalBytes (bignumMagnitude n)))

/-- `getTime() / 1000`. -/
def epochSeconds : Option ℤ → JsNumber
  | none => .nan
  | some t => JsNumber.ofMagnitude (decide (t < 0)) (t.natAbs / 1000)

/-- What `TextEncoder` makes of the name or the message of an error. -/
def writeText : ErrorText → Bytes
  | .string s => writeString s
  | .other _ text => writeString text

def requireDepth (depth : ℕ) : Except CborEncodeError Unit :=
  if maxNestingDepth < depth then
    .error ⟨"CBOR nesting deeper than " ++ decimal maxNestingDepth⟩
  else .ok ()

def isArray : Value → Bool
  | .array _ => true
  | _ => false

/-- The front of a generic object with so many elements. -/
def writeGeneric (elements : ℕ) (name : JsString) : Bytes :=
  writeTag Tag.genericObject ++ writeHeader 4 elements ++ writeString name

/-- The body of a map behind its tag. -/
def writeMapHeader (size : ℕ) : Bytes := writeTag Tag.map ++ writeHeader 5 size

mutual

def writeValue (depth : ℕ) (allowToJson : Bool) (value : Value) : Except CborEncodeError Bytes :=
  if maxNestingDepth < depth then
    .error ⟨"CBOR nesting deeper than " ++ decimal maxNestingDepth⟩
  else
    match value with
    | .null => .ok (writeSimple 22)
    | .undefined => .ok (writeSimple 23)
    | .bool b => .ok (writeSimple (if b then 21 else 20))
    | .number x => .ok (writeNumber x)
    | .bigint n => do
        requireDepth (depth + 1)
        writeBigInt n
    | .string s => .ok (writeString s)
    | .bytes data => .ok (writeBytes data)
    | .date time => do
        requireDepth (depth + 1)
        return writeTag Tag.epochDatetime ++ writeDouble (epochSeconds time)
    | .bidirectionalMap entries => do
        requireDepth (depth + 2)
        let body ← writeEntries (depth + 3) entries
        return writeGeneric 2 "BidirectionalMap" ++ writeMapHeader entries.length ++ body
    | .bidirectionalMultiMap rows => do
        requireDepth (depth + 2)
        let body ← writeRows (depth + 3) rows
        return writeGeneric 2 "BidirectionalMultiMap" ++ writeMapHeader rows.length ++ body
    | .map entries => do
        let body ← writeEntries (depth + 1) entries
        return writeMapHeader entries.length ++ body
    | .set members => do
        requireDepth (depth + 1)
        let body ← writeItems (depth + 2) members
        return writeTag Tag.set ++ writeHeader 4 members.length ++ body
    | .binary kind data => do
        requireDepth (depth + 2)
        return writeGeneric 2 kind.name ++ writeBytes data
    | .exoticView constructorName =>
      .error ⟨"Cannot encode binary view " ++ constructorName⟩
    | .regExp source flags => do
        requireDepth (depth + 2)
        return writeGeneric 3 "RegExp" ++ writeString source ++ writeString flags
    | .url href => do
        requireDepth (depth + 1)
        return writeTag Tag.uri ++ writeString href
    | .error name message cause errors => do
        requireDepth (depth + 3)
        let causeBytes ← (if isUndefined cause then .ok []
          else (writeString "cause" ++ ·) <$> writeValue (depth + 3) true cause)
        let errorsBytes ← (if isArray errors then
          (writeString "errors" ++ ·) <$> writeValue (depth + 3) true errors else .ok [])
        let fields := 2 + (if isUndefined cause then 0 else 1) + (if isArray errors then 1 else 0)
        return writeGeneric 2 "Error" ++ writeHeader 5 fields ++
          writeString "name" ++ writeText name ++ writeString "message" ++
          writeText message ++ causeBytes ++ errorsBytes
    | .boxed primitive => writeValue depth false primitive
    | .unsupportedObject constructorName =>
      .error ⟨"Cannot encode a " ++ constructorName⟩
    | .array items => do
        let body ← writeItems (depth + 1) items
        return writeHeader 4 items.length ++ body
    | .withToJson resolved properties =>
      if allowToJson then writeValue depth false resolved
      else do
        let body ← writeProperties (depth + 1) properties
        return writeHeader 5 properties.length ++ body
    | .object properties => do
        let body ← writeProperties (depth + 1) properties
        return writeHeader 5 properties.length ++ body
    | .unsupportedType typeName => .error ⟨"Cannot encode value of type " ++ typeName⟩

def writeItems (depth : ℕ) : List Value → Except CborEncodeError Bytes
  | [] => .ok []
  | v :: vs => do
      let item ← writeValue depth true v
      let rest ← writeItems depth vs
      return item ++ rest

def writeEntries (depth : ℕ) : List (Value × Value) → Except CborEncodeError Bytes
  | [] => .ok []
  | (k, v) :: entries => do
      let key ← writeValue depth true k
      let value ← writeValue depth true v
      let rest ← writeEntries depth entries
      return key ++ value ++ rest

/-- Each row is written as a participant and the set of its partners. -/
def writeRows (depth : ℕ) : List (Value × List Value) → Except CborEncodeError Bytes
  | [] => .ok []
  | (left, partners) :: rows => do
      let key ← writeValue depth true left
      requireDepth depth
      requireDepth (depth + 1)
      let members ← writeItems (depth + 2) partners
      let rest ← writeRows depth rows
      return key ++ (writeTag Tag.set ++ writeHeader 4 partners.length ++ members) ++ rest

def writeProperties (depth : ℕ) : List (JsString × Value) → Except CborEncodeError Bytes
  | [] => .ok []
  | (key, v) :: properties => do
      let value ← writeValue depth true v
      let rest ← writeProperties depth properties
      return writeString key ++ value ++ rest

end

/-- `CborEncoder.encode`. -/
def encode (value : Value) : Except CborEncodeError Bytes := writeValue 0 true value

end Encode

section Decode

abbrev CborReader := Reader CborDecodeError

/-- `Number` of a length, which is a bigint where it is not safe. -/
def toNumber (n : ℕ) : ℕ :=
  if n ≤ maxSafeInteger then n
  else
    match JsNumber.ofInt n with
    | .finite x => (x.integer?.getD 0).toNat
    | _ => n

/-- A count as it is printed. -/
def countText (n : ℕ) : JsString := numberText (JsNumber.ofInt n)

def truncated (count pos : ℕ) : CborDecodeError :=
  ⟨"Truncated input: need " ++ countText count ++ " bytes at offset " ++
    decimal pos⟩

def tooDeep {α : Type} (constraints : ReadConstraints) : CborReader α := Reader.failAt fun pos =>
  ⟨"CBOR nesting deeper than " ++ decimal constraints.maxNestingDepth ++
    " at offset " ++ decimal pos⟩

def unexpectedEnd (pos : ℕ) : CborDecodeError :=
  ⟨"Unexpected end of input at offset " ++ decimal pos⟩

def fail {α : Type} (message : JsString) : Except CborDecodeError α := .error ⟨message⟩

def readByte : CborReader ℕ := do
  let data ← Reader.take 1 unexpectedEnd
  return BigEndian.value data

def readUint (byteLen : ℕ) : CborReader ℕ := do
  let data ← Reader.take byteLen (truncated byteLen)
  return BigEndian.value data

def readLength (add : ℕ) : CborReader ℕ :=
  if add < 24 then pure add
  else if add = 24 then readUint 1
  else if add = 25 then readUint 2
  else if add = 26 then readUint 4
  else if add = 27 then readUint 8
  else fail ("Unsupported additional info " ++ decimal add)

def requireStringLength (constraints : ReadConstraints) (count : ℕ) : CborReader Unit :=
  if 0 < constraints.maxStringLength ∧ constraints.maxStringLength < count then
    Reader.failAt fun pos =>
      ⟨"CBOR string of " ++ countText count ++ " bytes exceeds maxStringLength " ++
        countText constraints.maxStringLength ++ " at offset " ++ decimal pos⟩
  else pure ()

/-- The bytes of a byte string or of a text string. -/
def readBytes (constraints : ReadConstraints) (count : ℕ) : CborReader Bytes := do
  requireStringLength constraints count
  Reader.take count (truncated count)

def readHalfFloat : CborReader JsNumber := do
  let data ← Reader.take 2 fun _ => ⟨"Truncated float16"⟩
  let n := BigEndian.value data
  let negative := decide (2 ^ 15 ≤ n)
  let exp : ℕ := n / 2 ^ 10 % 32
  let mant : ℕ := n % 2 ^ 10
  return if exp = 0 then JsNumber.ofMagnitude negative (2 ^ (-14 : ℤ) * (mant / 1024))
    else if exp = 31 then if mant ≠ 0 then .nan else .infinity negative
    else JsNumber.ofMagnitude negative (2 ^ ((exp : ℤ) - 15) * (1 + mant / 1024))

/-- `DataView.getFloat32`. -/
def ofFloat32Bits (n : ℕ) : JsNumber :=
  let negative := decide (2 ^ 31 ≤ n)
  let exp : ℕ := n / 2 ^ 23 % 256
  let mant : ℕ := n % 2 ^ 23
  if exp = 0 then JsNumber.ofMagnitude negative (mant * 2 ^ (-149 : ℤ))
  else if exp = 255 then if mant ≠ 0 then .nan else .infinity negative
  else JsNumber.ofMagnitude negative ((2 ^ 23 + mant) * 2 ^ ((exp : ℤ) - 150))

def readSimple (add : ℕ) : CborReader Value :=
  if add = 20 then pure (.bool false)
  else if add = 21 then pure (.bool true)
  else if add = 22 then pure .null
  else if add = 23 then pure .undefined
  else if add = 25 then Value.number <$> readHalfFloat
  else if add = 26 then do
    let data ← Reader.take 4 fun _ => ⟨"Truncated float32"⟩
    return .number (ofFloat32Bits (BigEndian.value data))
  else if add = 27 then do
    let data ← Reader.take 8 fun _ => ⟨"Truncated float64"⟩
    return .number (JsNumber.ofBits (BigEndian.value data))
  else fail ("Unsupported simple value " ++ decimal add)

/-- `new Date(seconds * 1000)`: the time value, where there is one. -/
def dateOfSeconds : JsNumber → Option ℤ
  | .finite x =>
    match JsNumber.ofMagnitude x.negative (x.magnitude * 1000) with
    | .finite y =>
      if y.magnitude ≤ 8640000000000000 then
        some (if y.negative then -(⌊y.magnitude⌋₊ : ℤ) else ⌊y.magnitude⌋₊)
      else none
    | _ => none
  | _ => none

/-! What stands behind a tag -/

def buildBidirectionalMap : List Value → Except CborDecodeError Value
  | .map entries :: _ => .ok (.bidirectionalMap (Value.newBidirectionalMap entries))
  | _ => fail "BidirectionalMap expects a map of entries"

/-- The partners in each row of a relation. -/
def adjacencyRows : List (Value × Value) → Except CborDecodeError (List (Value × List Value))
  | [] => .ok []
  | (left, .set partners) :: rows => do
      let rest ← adjacencyRows rows
      return (left, partners) :: rest
  | _ :: _ => fail "BidirectionalMultiMap expects every row to hold a set of partners"

def buildBidirectionalMultiMap : List Value → Except CborDecodeError Value
  | .map rows :: _ => do
      let rows ← adjacencyRows rows
      return .bidirectionalMultiMap (Value.newBidirectionalMultiMap rows)
  | _ => fail "BidirectionalMultiMap expects a map of adjacency rows"

def buildRegExp (runtime : Runtime) : List Value → Except CborDecodeError Value
  | .string source :: .string flags :: _ =>
    match runtime.regExp? source flags with
    | some (source, flags) => .ok (.regExp source flags)
    | none =>
      fail ("RegExp cannot be built from /" ++ source ++ "/" ++ flags)
  | _ => fail "RegExp expects a source string and a flags string"

def buildBinaryView (runtime : Runtime) (kind : JsString) : List Value → Except CborDecodeError Value
  | .bytes data :: _ =>
    match runtime.rebuildBinaryView kind data with
    | some view => .ok view
    | none => fail (kind ++ " cannot be built from " ++ decimal data.length ++
        " bytes")
  | _ => fail (kind ++ " expects a byte string")

/-- The name, the message, the errors and the cause that the payload of an error has. -/
def errorFields : Value → Option (Value × Value × Value × Value)
  | .object properties =>
    let field key := (OrderedMap.lookup key properties).getD .undefined
    some (field "name", field "message", field "errors", field "cause")
  | .error (.string name) (.string message) cause errors =>
    some (.string name, .string message, errors, cause)
  | _ => none

def buildError : List Value → Except CborDecodeError Value
  | payload :: _ =>
    match errorFields payload with
    | some (.string name, .string message, errors, cause) =>
      .ok (rebuildError name message (if isArray errors then some errors else none) cause)
    | _ => fail "Error expects a \x7b name, message \x7d object"
  | [] => fail "Error expects a \x7b name, message \x7d object"

def readGenericObject (runtime : Runtime) : Value → Except CborDecodeError Value
  | .array (.string name :: args) =>
    if name = "BidirectionalMap" then buildBidirectionalMap args
    else if name = "BidirectionalMultiMap" then buildBidirectionalMultiMap args
    else if name = "RegExp" then buildRegExp runtime args
    else if name = "Error" then buildError args
    else if runtime.isBinaryKind name then buildBinaryView runtime name args
    else .ok (.array (.string name :: args))
  | _ => fail ("Tag " ++ decimal Tag.genericObject ++
      " expects [name, ...arguments]")

def applyBignum (tag : ℕ) : Value → Except CborDecodeError Value
  | .bytes data =>
    if maxBignumBytes < data.length then
      fail ("Tag " ++ decimal tag ++ " bignum is " ++
        decimal data.length ++ " bytes, over the " ++
        decimal maxBignumBytes ++ "-byte limit")
    else if tag = Tag.unsignedBignum then .ok (.bigint (BigEndian.value data))
    else .ok (.bigint (-1 - (BigEndian.value data : ℤ)))
  | _ => fail ("Tag " ++ decimal tag ++ " expects a byte string")

def applyDatetime (runtime : Runtime) : Value → Except CborDecodeError Value
  | .string iso => .ok (.date (runtime.dateParse iso))
  | _ => fail "Tag 0 expects a string"

def applyEpochDatetime : Value → Except CborDecodeError Value
  | .number x => .ok (.date (dateOfSeconds x))
  | _ => fail "Tag 1 expects a number"

def applyUri (runtime : Runtime) : Value → Except CborDecodeError Value
  | .string text =>
    match runtime.url? text with
    | some href => .ok (.url href)
    | none => fail ("Tag " ++ decimal Tag.uri ++
        " expects an absolute URL (got '" ++ text ++ "')")
  | _ => fail ("Tag " ++ decimal Tag.uri ++ " expects a string")

def applySet : Value → Except CborDecodeError Value
  | .array items => .ok (.set (Value.newSet items))
  | _ => fail ("Tag " ++ decimal Tag.set ++ " expects an array")

/-- A tag that is not known passes what it is on through. -/
def applyTag (runtime : Runtime) (tag : ℕ) (inner : Value) : Except CborDecodeError Value :=
  if tag = Tag.datetime then applyDatetime runtime inner
  else if tag = Tag.epochDatetime then applyEpochDatetime inner
  else if tag = Tag.unsignedBignum ∨ tag = Tag.negativeBignum then applyBignum tag inner
  else if tag = Tag.uri then applyUri runtime inner
  else if tag = Tag.set then applySet inner
  else .ok inner

variable (runtime : Runtime) (constraints : ReadConstraints)

def readPair (read : CborReader Value) : CborReader (Value × Value) := do
  let key ← read
  let value ← read
  return (key, value)

def readProperty (read : CborReader Value) : CborReader (JsString × Value) := do
  let key ← read
  let value ← read
  match key with
  | .string key => return (key, value)
  | _ => fail "Only string keys are supported in maps"

/-- `Object.defineProperty` of one property after another. -/
def defineProperties (properties : List (JsString × Value)) : List (JsString × Value) :=
  properties.foldl (fun out p => OrderedMap.bind p.1 p.2 out) []

/-- The entries behind the tag of a map, which are read with the guards of an item. -/
def readEntryPairs (depth : ℕ) (read : CborReader Value) : CborReader (List (Value × Value)) :=
  if constraints.maxNestingDepth < depth then tooDeep constraints
  else do
    let ib ← readByte
    if ib / 32 ≠ 5 then
      Reader.failAt fun pos => ⟨"Tag " ++ decimal Tag.map ++
        " expects a map at offset " ++ decimal (pos - 1)⟩
    else do
      let len ← readLength (ib % 32)
      Reader.many (readPair read) (toNumber len)

def readTagged (depth : ℕ) (read : CborReader Value) (tag : ℕ) : CborReader Value :=
  if tag = Tag.map then do
    let pairs ← readEntryPairs constraints depth read
    return .map (Value.newMap pairs)
  else do
    let inner ← read
    if tag = Tag.genericObject then readGenericObject runtime inner
    else applyTag runtime tag inner

/-- What stands behind a header. -/
def readBody (depth : ℕ) (read : CborReader Value) (major len : ℕ) : CborReader Value :=
  match major with
  | 0 => pure (if len ≤ maxSafeInteger then .number (JsNumber.ofInt len) else .bigint len)
  | 1 => pure (if len ≤ maxSafeInteger then .number (JsNumber.ofInt (-len - 1))
      else .bigint (-len - 1))
  | 2 => Value.bytes <$> readBytes constraints (toNumber len)
  | 3 => (fun data => Value.string (Utf8.decode data)) <$> readBytes constraints (toNumber len)
  | 4 => Value.array <$> Reader.many read (toNumber len)
  | 5 => (fun properties => Value.object (defineProperties properties)) <$>
      Reader.many (readProperty read) (toNumber len)
  | 6 => readTagged runtime constraints depth read (toNumber len)
  | _ => fail ("Unknown major type " ++ decimal major)

/-- One item, where `read` reads an item that is one level deeper. -/
def readItem (depth : ℕ) (read : CborReader Value) : CborReader Value := do
  let ib ← readByte
  if ib / 32 = 7 then readSimple (ib % 32)
  else do
    let len ← readLength (ib % 32)
    readBody runtime constraints depth read (ib / 32) len

/-- An item at the depth that leaves so many levels. -/
def readValue : ℕ → CborReader Value
  | 0 => tooDeep constraints
  | levels + 1 =>
    readItem runtime constraints (constraints.maxNestingDepth - levels) (readValue levels)

/-- `CborDecoder.decode`. -/
def decode (data : Bytes) : Except CborDecodeError Value := do
  let (value, cursor) ← readValue runtime constraints (constraints.maxNestingDepth + 1) ⟨0, data⟩
  if cursor.rest ≠ [] then
    fail ("Trailing CBOR bytes at offset " ++ decimal cursor.pos)
  else return value

end Decode

end ActorTs.Serialization.Cbor
