import ActorTs.Library.BigEndian
import ActorTs.Library.JsArithmetic
import ActorTs.Library.JsonNumber
import ActorTs.Library.Outcome

/-!
# Bodies in an object store

A snapshot or a durable state is stored as four magic bytes, a byte of flags, the fields
that the flags announce, the payload and, where an integrity key is configured, a tag over
everything before it. The cryptography and the two real compressors come from the runtime.
-/

namespace ActorTs.Persistence.ObjectStorage

inductive CompressionAlgo where
  | none
  | gzip
  | zstd
  deriving DecidableEq

/-- What the codec calls and does not implement. `encrypt` and `decrypt` are AES-256-GCM with the
authentication tag at the end of the ciphertext, `sign` is HMAC-SHA256. -/
structure CodecRuntime where
  sign (key input : Bytes) : Bytes
  encrypt (subKey iv plaintext : Bytes) (additionalData : Option Bytes) : Bytes
  decrypt (subKey iv ciphertext : Bytes) (additionalData : Option Bytes) : Except JsString Bytes
  gzip (level : Option JsNumber) (input : Bytes) : Except JsString Bytes
  gunzip (maxOutputBytes : JsNumber) (input : Bytes) : Except JsString Bytes
  zstdCompress (level : Option JsNumber) (input : Bytes) : Except JsString Bytes
  zstdDecompress (maxOutputBytes : JsNumber) (input : Bytes) : Except JsString Bytes

variable (runtime : CodecRuntime)

def numberString : JsNumber → JsString
  | .nan => "NaN"
  | .infinity negative => if negative then "-Infinity" else "Infinity"
  | .finite x => JsonText.numberText (.finite x)

def natString (n : ℕ) : JsString := (Nat.repr n).toJs

def assertWithinCap (size : ℕ) (maxOutputBytes : JsNumber) (algorithm : JsString) :
    Except JsString Unit :=
  match maxOutputBytes with
  | .finite x =>
    if x.toRat < size then
      .error (algorithm ++ " decompression exceeded maxOutputBytes=" ++
        numberString maxOutputBytes ++ " (got " ++ natString size ++ ")")
    else .ok ()
  | _ => .ok ()

def compress (algo : CompressionAlgo) (input : Bytes) (level : Option JsNumber) :
    Except JsString Bytes :=
  match algo with
  | .none => .ok input
  | .gzip => runtime.gzip level input
  | .zstd => runtime.zstdCompress level input

def decompress (algo : CompressionAlgo) (input : Bytes) (maxOutputBytes : JsNumber) :
    Except JsString Bytes :=
  match algo with
  | .none => do
      assertWithinCap input.length maxOutputBytes "stored"
      return input
  | .gzip => do
      let out ← runtime.gunzip maxOutputBytes input
      assertWithinCap out.length maxOutputBytes "gzip"
      return out
  | .zstd => do
      let out ← runtime.zstdDecompress maxOutputBytes input
      assertWithinCap out.length maxOutputBytes "zstd"
      return out

def hmacKeyLength : ℕ := 32

def hmacTagLength : ℕ := 16

def contextLengthPrefixBytes : ℕ := 4

def withContextPrefix (context data : Bytes) : Except JsString Bytes :=
  if 0xFFFFFFFF < context.length then
    .error ("integrity context must be at most 4294967295 bytes, got " ++
      natString context.length)
  else .ok (BigEndian.bytes contextLengthPrefixBytes context.length ++ context ++ data)

def signedInput (data : Bytes) : Option Bytes → Except JsString Bytes
  | none => .ok data
  | some context => withContextPrefix context data

def hmacSha256 (key data : Bytes) (context : Option Bytes) : Except JsString Bytes :=
  if key.length ≠ hmacKeyLength then
    .error ("integrity key must be 32 bytes, got " ++ natString key.length)
  else do
    let input ← signedInput data context
    return (runtime.sign key input).take hmacTagLength

def ivLength : ℕ := 12

def keyLength : ℕ := 32

def aesGcmEncrypt (subKey iv plaintext : Bytes) (additionalData : Option Bytes) :
    Except JsString Bytes :=
  if subKey.length ≠ keyLength then .error "subkey must be 32 bytes"
  else if iv.length ≠ ivLength then .error "iv must be 12 bytes"
  else .ok (runtime.encrypt subKey iv plaintext additionalData)

def aesGcmDecrypt (subKey iv ciphertext : Bytes) (additionalData : Option Bytes) :
    Except JsString Bytes :=
  if subKey.length ≠ keyLength then .error "subkey must be 32 bytes"
  else if iv.length ≠ ivLength then .error "iv must be 12 bytes"
  else runtime.decrypt subKey iv ciphertext additionalData

def ats1Magic : Bytes := [0x41, 0x54, 0x53, 0x31]

def flagEncrypted : UInt8 := 0b100

def flagKeyVersioned : UInt8 := 0b1000

def flagIntegrityHmac : UInt8 := 0b10000

def flagContextBound : UInt8 := 0b100000

def hasFlag (flags flag : UInt8) : Bool := flags &&& flag ≠ 0

def encodeCompression : CompressionAlgo → UInt8
  | .none => 0b00
  | .gzip => 0b01
  | .zstd => 0b10

def decodeCompression (flags : UInt8) : Except JsString CompressionAlgo :=
  if flags &&& 0b11 = 0b00 then .ok .none
  else if flags &&& 0b11 = 0b01 then .ok .gzip
  else if flags &&& 0b11 = 0b10 then .ok .zstd
  else .error "BodyCodec: unknown compression flags 11"

/-- `flags |= flag` under a condition. -/
def withFlag (on : Bool) (flag flags : UInt8) : UInt8 := if on then flags ||| flag else flags

def manifestFlags (algo : CompressionAlgo) (encrypted versioned tagged bound : Bool) : UInt8 :=
  withFlag bound flagContextBound <| withFlag tagged flagIntegrityHmac <|
    withFlag versioned flagKeyVersioned <| withFlag encrypted flagEncrypted <|
      encodeCompression algo

lemma decodeCompression_manifestFlags (algo : CompressionAlgo) (e v t b : Bool) :
    decodeCompression (manifestFlags algo e v t b) = .ok algo := by
  cases algo <;> cases e <;> cases v <;> cases t <;> cases b <;> rfl

lemma hasFlag_manifestFlags (algo : CompressionAlgo) (e v t b : Bool) :
    hasFlag (manifestFlags algo e v t b) flagEncrypted = e ∧
      hasFlag (manifestFlags algo e v t b) flagKeyVersioned = v ∧
      hasFlag (manifestFlags algo e v t b) flagIntegrityHmac = t ∧
      hasFlag (manifestFlags algo e v t b) flagContextBound = b := by
  cases algo <;> cases e <;> cases v <;> cases t <;> cases b <;> decide

structure EncodeKey where
  subKey : Bytes
  keyVersion : Option JsNumber := none

structure EncodeOptions where
  compression : CompressionAlgo := .none
  compressionLevel : Option JsNumber := none
  encryption : Option EncodeKey := none
  integrityKey : Option Bytes := none
  context : Option JsString := none

/-- The empty context counts as none. -/
def suppliedContext : Option JsString → Option JsString
  | none => none
  | some context => if 0 < context.length then some context else none

/-- The context that the authenticators of a body cover. -/
def EncodeOptions.boundContext (options : EncodeOptions) : Option Bytes :=
  if options.encryption.isSome || options.integrityKey.isSome then
    (suppliedContext options.context).map Utf8.encode
  else none

/-- The version byte of a key, which is refused where it is not one byte. -/
def keyVersionByte (keyVersion : JsNumber) : Except JsString UInt8 :=
  match keyVersion with
  | .finite x =>
    if x.toRat.den = 1 ∧ 0 ≤ x.toRat ∧ x.toRat ≤ 255 then .ok (UInt8.ofNat x.toRat.num.toNat)
    else refused
  | _ => refused
where
  refused : Except JsString UInt8 :=
    .error ("BodyCodec: keyVersion must be an integer in [0, 255], got " ++ numberString keyVersion)

/-- The body without its tag. -/
def bodyBeforeIntegrity (iv compressed : Bytes) (options : EncodeOptions) :
    Except JsString Bytes :=
  match options.encryption with
  | some key => do
      let version ← key.keyVersion.mapM keyVersionByte
      let ciphertext ← aesGcmEncrypt runtime key.subKey iv compressed options.boundContext
      let flags := manifestFlags options.compression true version.isSome
        options.integrityKey.isSome options.boundContext.isSome
      return ats1Magic ++ flags :: (version.toList ++ iv ++ ciphertext)
  | none =>
    let flags := manifestFlags options.compression false false options.integrityKey.isSome
      options.boundContext.isSome
    .ok (ats1Magic ++ flags :: compressed)

/-- `iv` is the one that is drawn for this call. -/
def encodeBody (iv jsonBytes : Bytes) (options : EncodeOptions) : Except JsString Bytes := do
  let compressed ← compress runtime options.compression jsonBytes options.compressionLevel
  let body ← bodyBeforeIntegrity runtime iv compressed options
  match options.integrityKey with
  | some integrityKey => do
      let tag ← hmacSha256 runtime integrityKey body options.boundContext
      return body ++ tag
  | none => return body

inductive DecodeKey where
  | subKey (key : Bytes)
  | subKeyFor (resolver : UInt8 → Except JsString (Option Bytes))

structure DecodeIntegrity where
  integrityKey : Bytes
  allowUntaggedBodies : Bool := false

def defaultMaxDecompressedBytes : JsNumber := .ofMagnitude false (512 * 1024 * 1024)

structure DecodeOptions where
  encryption : Option DecodeKey := none
  integrity : Option DecodeIntegrity := none
  context : Option JsString := none
  requireContextBinding : Bool := false
  maxOutputBytes : Option JsNumber := none

structure DecodedBody where
  compression : CompressionAlgo
  encrypted : Bool
  keyVersion : Option UInt8
  contextBound : Bool
  payload : Bytes
  deriving DecidableEq

/-- The context that the body is checked against. -/
def decodeContext (flags : UInt8) (options : DecodeOptions) : Except JsString (Option Bytes) :=
  let contextBound := hasFlag flags flagContextBound
  let givenContext := suppliedContext options.context
  if contextBound && !hasFlag flags flagEncrypted && !hasFlag flags flagIntegrityHmac then
    .error ("BodyCodec: body claims FLAG_CONTEXT_BOUND but carries neither encryption nor an "
      ++ "integrity tag, so nothing binds its storage key.  The flag was set by whoever "
      ++ "wrote the body and cannot be verified.")
  else if options.requireContextBinding && givenContext.isNone then
    .error ("BodyCodec: requireContextBinding was set but no context was supplied — there is "
      ++ "nothing to verify the binding against.")
  else if options.requireContextBinding && !contextBound then
    .error ("BodyCodec: body is not context-bound but requireContextBinding was set for "
      ++ "decoding.  It was either written before context binding was enabled — clear "
      ++ "requireContextBinding for the read-then-write migration window — or it is an "
      ++ "authentic body replayed onto a storage key it was never written to.")
  else if contextBound && givenContext.isNone then
    .error ("BodyCodec: body carries FLAG_CONTEXT_BOUND but no context was supplied for "
      ++ "decoding.")
  else .ok (if contextBound then givenContext.map Utf8.encode else none)

/-- The body without its tag, once the tag is verified. -/
def verifyIntegrity (flags : UInt8) (options : DecodeOptions) (context : Option Bytes)
    (framed : Bytes) : Except JsString Bytes :=
  if hasFlag flags flagIntegrityHmac then
    if framed.length < 5 + hmacTagLength then
      .error "BodyCodec: integrity-tagged body is shorter than the HMAC tag requires."
    else
      match options.integrity with
      | none =>
        .error ("BodyCodec: body carries FLAG_INTEGRITY_HMAC but no integrityKey was "
          ++ "supplied for decoding.")
      | some integrity => do
          let sigOffset := framed.length - hmacTagLength
          let actual ← hmacSha256 runtime integrity.integrityKey (framed.take sigOffset) context
          if actual = framed.drop sigOffset then .ok (framed.take sigOffset)
          else .error ("BodyCodec: integrity check failed — body tampered or wrong integrity "
            ++ "key.")
  else
    match options.integrity with
    | some integrity =>
      if integrity.allowUntaggedBodies then .ok framed
      else .error
        ("BodyCodec: body carries no integrity tag but an integrityKey was supplied for "
          ++ "decoding.  It was either written before integrity was enabled — set "
          ++ "allowUntaggedBodies: true for the read-then-write migration window — or its "
          ++ "tag was stripped as part of a downgrade attack.")
    | none => .ok framed

/-- The subkey for a manifest's key version, which is 0 where it has none. -/
def resolveSubKey (keyVersion : Option UInt8) : DecodeKey → Except JsString Bytes
  | .subKey key => .ok key
  | .subKeyFor resolver => do
      match ← resolver (keyVersion.getD 0) with
      | some key => return key
      | none =>
        throw ("BodyCodec: no master key registered for version " ++
          natString (keyVersion.getD 0).toNat ++ " — add it to the keyring's `retired` list "
          ++ "to decrypt historical blobs.")

/-- The key version of an encrypted body and where its IV starts. -/
def readKeyVersion (flags : UInt8) (body : Bytes) : Except JsString (Option UInt8 × ℕ) :=
  if hasFlag flags flagKeyVersioned then
    match body.drop 5 with
    | [] => .error ("BodyCodec: encrypted body claims key-versioned but is shorter than the "
        ++ "version byte requires.")
    | version :: _ => .ok (some version, 6)
  else .ok (none, 5)

/-- The key version and the compressed payload. -/
def openBody (flags : UInt8) (options : DecodeOptions) (context : Option Bytes) (body : Bytes) :
    Except JsString (Option UInt8 × Bytes) :=
  if hasFlag flags flagEncrypted then
    match options.encryption with
    | none =>
      .error "BodyCodec: body is encrypted but no subKey/resolver was supplied for decoding."
    | some encryption => do
        let (keyVersion, offset) ← readKeyVersion flags body
        if body.length < offset + ivLength then
          .error "BodyCodec: encrypted body is shorter than the manifest IV requires."
        else
          let iv := (body.drop offset).take ivLength
          let ciphertext := body.drop (offset + ivLength)
          let subKey ← resolveSubKey keyVersion encryption
          let compressed ← aesGcmDecrypt runtime subKey iv ciphertext context
          return (keyVersion, compressed)
  else .ok (none, body.drop 5)

def decodeBody (framed : Bytes) (options : DecodeOptions) : Except JsString DecodedBody :=
  match framed.drop 4 with
  | [] => .error "BodyCodec: unrecognised body — expected ATS1 magic bytes."
  | flags :: _ =>
    if framed.take 4 ≠ ats1Magic then
      .error "BodyCodec: unrecognised body — expected ATS1 magic bytes."
    else do
      let compression ← decodeCompression flags
      let context ← decodeContext flags options
      let body ← verifyIntegrity runtime flags options context framed
      let (keyVersion, compressed) ← openBody runtime flags options context body
      let payload ← decompress runtime compression compressed
        (options.maxOutputBytes.getD defaultMaxDecompressedBytes)
      return { compression, encrypted := hasFlag flags flagEncrypted, keyVersion
               contextBound := hasFlag flags flagContextBound, payload }

end ActorTs.Persistence.ObjectStorage
