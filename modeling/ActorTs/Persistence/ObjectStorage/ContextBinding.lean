import ActorTs.Persistence.ObjectStorage.BodyCodec

/-!
# What a required binding says about a body

Whoever can write to the bucket and holds no key can store what the key holders made, or parts of
it, and bytes of his own. Under that assumption about tags and ciphertexts, a body that decodes
under a required context comes from a call of a key holder with that context. A tag settles the
payload too; AES-GCM alone leaves open how it is compressed.
-/

open List Option Outcome BigEndian

namespace ActorTs.Persistence.ObjectStorage

variable {runtime : CodecRuntime} {flags : UInt8} {options : DecodeOptions}
  {context : Option Bytes} {framed body compressed : Bytes} {version : Option UInt8}

/-! ## What decoding has checked -/

lemma decodeContext_eq_ok (hrequire : options.requireContextBinding = true)
    (h : decodeContext flags options = .ok context) :
    hasFlag flags flagContextBound = true ∧
      (hasFlag flags flagEncrypted = true ∨ hasFlag flags flagIntegrityHmac = true) ∧
        ∃ given, suppliedContext options.context = some given ∧
          context = some (Utf8.encode given) := by
  unfold decodeContext at h
  cases hbound : hasFlag flags flagContextBound <;>
    cases hgiven : suppliedContext options.context <;>
      cases hencrypted : hasFlag flags flagEncrypted <;>
        cases htagged : hasFlag flags flagIntegrityHmac <;>
          simp_all

lemma hmacSha256_eq_ok {key tag : Bytes} (h : hmacSha256 runtime key body context = .ok tag) :
    ∃ input, signedInput body context = .ok input ∧
      tag = (runtime.sign key input).take hmacTagLength := by
  unfold hmacSha256 at h
  split at h
  · cases h
  · obtain ⟨input, hinput, h⟩ := bind_eq_ok h
    exact ⟨input, hinput, (Except.ok.inj h).symm⟩

lemma verifyIntegrity_eq_ok
    (h : verifyIntegrity runtime flags options context framed = .ok body) :
    (hasFlag flags flagIntegrityHmac = true ∧ 5 ≤ body.length ∧
      ∃ integrity input, options.integrity = some integrity ∧
        signedInput body context = .ok input ∧
          framed = body ++ (runtime.sign integrity.integrityKey input).take hmacTagLength) ∨
    hasFlag flags flagIntegrityHmac = false ∧ body = framed := by
  unfold verifyIntegrity at h
  cases htagged : hasFlag flags flagIntegrityHmac with
  | false =>
    rw [htagged, if_neg Bool.false_ne_true] at h
    refine .inr ⟨rfl, ?_⟩
    split at h
    · split at h
      · exact (Except.ok.inj h).symm
      · cases h
    · exact (Except.ok.inj h).symm
  | true =>
    rw [htagged, if_pos rfl] at h
    refine .inl ⟨rfl, ?_⟩
    split at h
    · cases h
    · next hlength =>
      split at h
      · cases h
      · next integrity hintegrity =>
        obtain ⟨tag, htag, h⟩ := bind_eq_ok h
        split at h
        · next hsame =>
          cases h
          obtain ⟨input, hinput, rfl⟩ := hmacSha256_eq_ok htag
          refine ⟨?_, integrity, input, hintegrity, hinput, ?_⟩
          · rw [length_take]
            omega
          · rw [hsame, take_append_drop]
        · cases h

lemma aesGcmDecrypt_eq_ok {subKey iv ciphertext plaintext : Bytes}
    (h : aesGcmDecrypt runtime subKey iv ciphertext context = .ok plaintext) :
    iv.length = ivLength ∧ runtime.decrypt subKey iv ciphertext context = .ok plaintext := by
  unfold aesGcmDecrypt at h
  split at h
  · cases h
  · split at h
    · cases h
    · next hiv => exact ⟨not_not.1 hiv, h⟩

lemma readKeyVersion_eq_ok {offset : ℕ} (h : readKeyVersion flags body = .ok (version, offset)) :
    version.isSome = hasFlag flags flagKeyVersioned ∧
      body.drop 5 = version.toList ++ body.drop offset := by
  unfold readKeyVersion at h
  cases hversioned : hasFlag flags flagKeyVersioned with
  | false =>
    rw [hversioned, if_neg Bool.false_ne_true] at h
    cases h
    exact ⟨rfl, rfl⟩
  | true =>
    rw [hversioned, if_pos rfl] at h
    split at h
    · cases h
    · next byte rest hrest =>
      cases h
      refine ⟨rfl, ?_⟩
      rw [hrest, toList_some, singleton_append, cons.injEq]
      refine ⟨rfl, ?_⟩
      rw [show 6 = 5 + 1 from rfl, ← drop_drop, hrest, drop_one, tail_cons]

lemma openBody_eq_ok (h : openBody runtime flags options context body =
    .ok (version, compressed)) :
    (hasFlag flags flagEncrypted = true ∧
      ∃ encryption subKey iv ciphertext, options.encryption = some encryption ∧
        resolveSubKey version encryption = .ok subKey ∧
        version.isSome = hasFlag flags flagKeyVersioned ∧
        body.drop 5 = version.toList ++ iv ++ ciphertext ∧ iv.length = ivLength ∧
          runtime.decrypt subKey iv ciphertext context = .ok compressed) ∨
    hasFlag flags flagEncrypted = false ∧ compressed = body.drop 5 := by
  unfold openBody at h
  cases hencrypted : hasFlag flags flagEncrypted with
  | false =>
    rw [hencrypted, if_neg Bool.false_ne_true] at h
    cases h
    exact .inr ⟨rfl, rfl⟩
  | true =>
    rw [hencrypted, if_pos rfl] at h
    refine .inl ⟨rfl, ?_⟩
    split at h
    · cases h
    · next encryption hencryption =>
      obtain ⟨⟨version', offset⟩, hversion, h⟩ := bind_eq_ok h
      dsimp only at h
      split at h
      · cases h
      · obtain ⟨subKey, hsubKey, h⟩ := bind_eq_ok h
        obtain ⟨plaintext, hplaintext, h⟩ := bind_eq_ok h
        cases h
        obtain ⟨hiv, hdecrypt⟩ := aesGcmDecrypt_eq_ok hplaintext
        obtain ⟨hsome, hdrop⟩ := readKeyVersion_eq_ok hversion
        refine ⟨encryption, subKey, _, _, hencryption, hsubKey, hsome, ?_, hiv, hdecrypt⟩
        rw [hdrop, append_assoc, ← drop_drop, take_append_drop]

lemma decodeBody_eq_ok {decoded : DecodedBody} (h : decodeBody runtime framed options =
    .ok decoded) :
    ∃ flags rest context body compressed, framed = ats1Magic ++ flags :: rest ∧
      decodeCompression flags = .ok decoded.compression ∧
      decodeContext flags options = .ok context ∧
      verifyIntegrity runtime flags options context framed = .ok body ∧
      openBody runtime flags options context body = .ok (decoded.keyVersion, compressed) ∧
      decompress runtime decoded.compression compressed
        (options.maxOutputBytes.getD defaultMaxDecompressedBytes) = .ok decoded.payload := by
  unfold decodeBody at h
  split at h
  · cases h
  · next flags rest hdrop =>
    split at h
    · cases h
    · next hmagic =>
      obtain ⟨compression, hcompression, h⟩ := bind_eq_ok h
      obtain ⟨context, hcontext, h⟩ := bind_eq_ok h
      obtain ⟨body, hbody, h⟩ := bind_eq_ok h
      obtain ⟨⟨version, compressed⟩, hopen, h⟩ := bind_eq_ok h
      obtain ⟨payload, hpayload, h⟩ := bind_eq_ok h
      cases h
      refine ⟨flags, rest, context, body, compressed, ?_, hcompression, hcontext, hbody,
        hopen, hpayload⟩
      rw [← not_not.1 hmagic, ← hdrop, take_append_drop]

/-! ## What encoding has signed and encrypted -/

lemma aesGcmEncrypt_eq_ok {subKey iv plaintext ciphertext : Bytes}
    (h : aesGcmEncrypt runtime subKey iv plaintext context = .ok ciphertext) :
    iv.length = ivLength := by
  unfold aesGcmEncrypt at h
  split at h
  · cases h
  · split at h
    · cases h
    · next hiv => exact not_not.1 hiv

lemma bodyBeforeIntegrity_eq_ok {iv : Bytes} {options : EncodeOptions}
    (h : bodyBeforeIntegrity runtime iv compressed options = .ok body) :
    ∃ (version : Option UInt8) (rest : Bytes),
      body = ats1Magic ++ manifestFlags options.compression options.encryption.isSome
        version.isSome options.integrityKey.isSome options.boundContext.isSome :: rest ∧
      (options.encryption.isSome = false → rest = compressed) ∧
      (options.encryption.isSome = true → iv.length = ivLength ∧
        ∃ ciphertext, rest = version.toList ++ iv ++ ciphertext) := by
  unfold bodyBeforeIntegrity at h
  cases hencryption : options.encryption with
  | none =>
    rw [hencryption] at h
    cases h
    refine ⟨none, compressed, rfl, fun _ => rfl, fun hsome => ?_⟩
    cases hsome
  | some key =>
    rw [hencryption] at h
    obtain ⟨version, _, h⟩ := bind_eq_ok h
    obtain ⟨ciphertext, hciphertext, h⟩ := bind_eq_ok h
    cases h
    refine ⟨version, version.toList ++ iv ++ ciphertext, rfl, fun hsome => ?_,
      fun _ => ⟨aesGcmEncrypt_eq_ok hciphertext, ciphertext, rfl⟩⟩
    cases hsome

variable {bound : Bytes}

lemma withContextPrefix_eq_ok {input : Bytes} (h : withContextPrefix bound body = .ok input) :
    bound.length < 256 ^ contextLengthPrefixBytes ∧
      input = bytes contextLengthPrefixBytes bound.length ++ bound ++ body := by
  unfold withContextPrefix at h
  split at h
  · cases h
  · next hlength =>
    refine ⟨?_, (Except.ok.inj h).symm⟩
    rw [contextLengthPrefixBytes]
    omega

lemma withContextPrefix_injective {bound' body' input : Bytes}
    (h : withContextPrefix bound body = .ok input)
    (h' : withContextPrefix bound' body' = .ok input) : bound = bound' ∧ body = body' := by
  obtain ⟨hlength, rfl⟩ := withContextPrefix_eq_ok h
  obtain ⟨hlength', hinput⟩ := withContextPrefix_eq_ok h'
  rw [append_assoc, append_assoc] at hinput
  obtain ⟨hstarts, hrest⟩ := append_inj hinput (by rw [length_bytes, length_bytes])
  have hlengths := congrArg value hstarts
  rw [value_bytes_of_lt hlength, value_bytes_of_lt hlength'] at hlengths
  exact append_inj hrest hlengths

lemma length_of_withContextPrefix_eq_body {rest : Bytes}
    (h : withContextPrefix bound body = .ok (ats1Magic ++ rest)) :
    bound.length = value ats1Magic := by
  obtain ⟨hlength, hinput⟩ := withContextPrefix_eq_ok h
  rw [append_assoc] at hinput
  have hstarts := (append_inj hinput (by rw [length_bytes]; rfl)).1
  rw [hstarts, value_bytes_of_lt hlength]

lemma signedInput_inj {rest input : Bytes} {own : Option Bytes}
    (hlength : bound.length ≠ value ats1Magic)
    (h : signedInput (ats1Magic ++ rest) own = .ok input)
    (h' : signedInput body (some bound) = .ok input) :
    own = some bound ∧ body = ats1Magic ++ rest := by
  cases own with
  | none =>
    cases h
    exact absurd (length_of_withContextPrefix_eq_body h') hlength
  | some own =>
    obtain ⟨hbound, hbody⟩ := withContextPrefix_injective h h'
    exact ⟨congrArg some hbound, hbody.symm⟩

/-! ## The key holders and whoever holds no key -/

/-- A call of `encodeBody` by a holder of its keys, with the IV that was drawn for it. -/
structure HonestCall where
  iv : Bytes
  jsonBytes : Bytes
  options : EncodeOptions

namespace HonestCall

variable (runtime) (call : HonestCall)

def compressedPayload : Except JsString Bytes :=
  compress runtime call.options.compression call.jsonBytes call.options.compressionLevel

/-- The call computed a tag over `input`. -/
def Signed (key input : Bytes) : Prop :=
  call.options.integrityKey = some key ∧
    ∃ compressed body, call.compressedPayload runtime = .ok compressed ∧
      bodyBeforeIntegrity runtime call.iv compressed call.options = .ok body ∧
        signedInput body call.options.boundContext = .ok input

/-- The call made a ciphertext of `plaintext`. -/
def Encrypted (subKey iv : Bytes) (additionalData : Option Bytes) (plaintext : Bytes) : Prop :=
  (∃ key, call.options.encryption = some key ∧ key.subKey = subKey) ∧ call.iv = iv ∧
    call.options.boundContext = additionalData ∧ call.compressedPayload runtime = .ok plaintext

/-- The context was given to the call: up to what UTF-8 tells apart, which is everything
where no surrogate stands alone. -/
def GivenAt (context : JsString) : Prop :=
  ∃ own, call.options.context = some own ∧ Utf8.encode own = Utf8.encode context ∧
    (Utf8.paired own = true → Utf8.paired context = true → own = context)

end HonestCall

/-- No two ciphertexts are made with one IV. -/
def FreshIvs (calls : List HonestCall) : Prop :=
  ∀ call ∈ calls, ∀ call' ∈ calls, call.options.encryption.isSome = true →
    call'.options.encryption.isSome = true → call.iv = call'.iv → call = call'

/-- What a compressor wrote is read back, or the reading is refused. -/
def RoundTrips (runtime : CodecRuntime) : Prop :=
  ∀ algo level input compressed maxOutputBytes output,
    compress runtime algo input level = .ok compressed →
      decompress runtime algo compressed maxOutputBytes = .ok output → output = input

/-- Bytes that hold no forgery under the keys of a configuration: a tag at their end was
computed by a key holder over the same input, and what decrypts inside them was encrypted by
one with the same additional data. -/
structure Storable (runtime : CodecRuntime) (calls : List HonestCall) (options : DecodeOptions)
    (framed : Bytes) : Prop where
  tag : ∀ integrity, options.integrity = some integrity → ∀ input,
    (runtime.sign integrity.integrityKey input).take hmacTagLength <:+ framed →
      ∃ call ∈ calls, call.Signed runtime integrity.integrityKey input
  ciphertext : ∀ encryption, options.encryption = some encryption → ∀ version subKey,
    resolveSubKey version encryption = .ok subKey → ∀ iv ciphertext additionalData plaintext,
      iv ++ ciphertext <:+: framed →
        runtime.decrypt subKey iv ciphertext additionalData = .ok plaintext →
          ∃ call ∈ calls, call.Encrypted runtime subKey iv additionalData plaintext

/-! ## What comes back -/

variable {calls : List HonestCall} {decoded : DecodedBody} {given : JsString}
  {call : HonestCall}

lemma eq_some_of_suppliedContext {context : Option JsString}
    (h : suppliedContext context = some given) : context = some given := by
  cases context with
  | none => cases h
  | some own =>
    rw [suppliedContext] at h
    split at h
    · exact h
    · cases h

lemma HonestCall.GivenAt.of_boundContext (h : call.options.boundContext = some (Utf8.encode given)) :
    call.GivenAt given := by
  rw [EncodeOptions.boundContext] at h
  split at h
  · obtain ⟨own, hown, hencode⟩ := map_eq_some_iff.1 h
    exact ⟨own, eq_some_of_suppliedContext hown, hencode,
      fun hpaired hpaired' => Utf8.eq_of_encode_eq hpaired hpaired' hencode⟩
  · cases h

variable {plaintext : Bytes}

lemma HonestCall.Encrypted.isSome {subKey iv : Bytes}
    (h : call.Encrypted runtime subKey iv context plaintext) :
    call.options.encryption.isSome = true := by
  obtain ⟨⟨key, hkey, _⟩, _⟩ := h
  rw [hkey, isSome_some]

lemma infix_of_drop {a b : Bytes} (h : body.drop 5 = a ++ b) (hbody : body <+: framed) :
    b <:+: framed := by
  have hsuffix : b <:+ body.drop 5 := h ▸ suffix_append a b
  exact (hsuffix.isInfix.trans (drop_suffix 5 body).isInfix).trans hbody.isInfix

lemma Storable.encrypted (hstorable : Storable runtime calls options framed)
    (hbody : body <+: framed) (hencrypted : hasFlag flags flagEncrypted = true)
    (hopen : openBody runtime flags options context body = .ok (version, compressed)) :
    ∃ call ∈ calls, ∃ subKey iv ciphertext, call.Encrypted runtime subKey iv context compressed ∧
      version.isSome = hasFlag flags flagKeyVersioned ∧
      body.drop 5 = version.toList ++ iv ++ ciphertext ∧ iv.length = ivLength := by
  rcases openBody_eq_ok hopen with
    ⟨-, encryption, subKey, iv, ciphertext, hencryption, hsubKey, hversion, hdrop, hiv, hdecrypt⟩
    | ⟨hplain, -⟩
  · have hinfix := infix_of_drop (by rwa [append_assoc] at hdrop) hbody
    obtain ⟨call, hcall, hmade⟩ := hstorable.ciphertext encryption hencryption version subKey
      hsubKey iv ciphertext context compressed hinfix hdecrypt
    exact ⟨call, hcall, subKey, iv, ciphertext, hmade, hversion, hdrop, hiv⟩
  · rw [hencrypted] at hplain
    cases hplain

lemma Storable.opens_signed (hstorable : Storable runtime calls options framed)
    (hfresh : FreshIvs calls) (hcall : call ∈ calls)
    (hplaintext : call.compressedPayload runtime = .ok plaintext)
    (hmade : bodyBeforeIntegrity runtime call.iv plaintext call.options = .ok body) {rest : Bytes}
    (hflags : body = ats1Magic ++ flags :: rest) (hbody : body <+: framed)
    (hopen : openBody runtime flags options context body = .ok (version, compressed)) :
    compressed = plaintext := by
  obtain ⟨version', rest', hbody', hplain, hcipher⟩ := bodyBeforeIntegrity_eq_ok hmade
  have hsame := append_cancel_left (hflags.symm.trans hbody')
  obtain ⟨hflags', rfl⟩ := cons.inj hsame
  have hdrop : body.drop 5 = rest := by
    rw [hflags]
    rfl
  obtain ⟨hencrypted, hversioned, -, -⟩ := hasFlag_manifestFlags call.options.compression
    call.options.encryption.isSome version'.isSome call.options.integrityKey.isSome
    call.options.boundContext.isSome
  rw [← hflags'] at hencrypted hversioned
  cases hkind : hasFlag flags flagEncrypted with
  | false =>
    rcases openBody_eq_ok hopen with ⟨hkind', -⟩ | ⟨-, hcompressed⟩
    · rw [hkind] at hkind'
      cases hkind'
    · rw [hcompressed, hdrop, hplain (hencrypted.symm.trans hkind)]
  | true =>
    obtain ⟨call', hcall', subKey, iv, ciphertext, hmade', hversion, hparts, hiv⟩ :=
      hstorable.encrypted hbody hkind hopen
    obtain ⟨hiv', ciphertext', hrest⟩ := hcipher (hencrypted.symm.trans hkind)
    rw [hdrop, hrest, append_assoc, append_assoc] at hparts
    have hlengths : version'.toList.length = version.toList.length := by
      rw [hversioned] at hversion
      cases version <;> cases version' <;> simp_all
    have hivs := (append_inj (append_inj hparts hlengths).2 (hiv'.trans hiv.symm)).1
    -- The IV was drawn once, so the ciphertext is this call's own.
    have hsame : call = call' := hfresh call hcall call' hcall' (hencrypted.symm.trans hkind)
      hmade'.isSome (hivs.trans hmade'.2.1.symm)
    subst hsame
    rw [hmade'.2.2.2] at hplaintext
    exact Except.ok.inj hplaintext

/-- A stored body that decodes under a required context was made by a call with that context. What
comes back is the call's own payload wherever a tag was verified or the manifest names its
compression. -/
theorem decodeBody_authentic (hround : RoundTrips runtime) (hfresh : FreshIvs calls)
    (hstorable : Storable runtime calls options framed)
    (hrequire : options.requireContextBinding = true) (hgiven : options.context = some given)
    (hlength : (Utf8.encode given).length ≠ value ats1Magic)
    (hok : decodeBody runtime framed options = .ok decoded) :
    ∃ call ∈ calls, call.GivenAt given ∧
      (∃ compressed, call.compressedPayload runtime = .ok compressed ∧
        decompress runtime decoded.compression compressed
          (options.maxOutputBytes.getD defaultMaxDecompressedBytes) = .ok decoded.payload) ∧
      ((∃ flags, framed[4]? = some flags ∧ hasFlag flags flagIntegrityHmac = true) ∨
        decoded.compression = call.options.compression → decoded.payload = call.jsonBytes) := by
  obtain ⟨flags, rest, context, body, compressed, hframed, hcompression, hcontext, hverify,
    hopen, hpayload⟩ := decodeBody_eq_ok hok
  obtain ⟨-, hauthenticated, given', hgiven', rfl⟩ := decodeContext_eq_ok hrequire hcontext
  cases hgiven.symm.trans (eq_some_of_suppliedContext hgiven')
  rcases verifyIntegrity_eq_ok hverify with
    ⟨-, -, integrity, input, hintegrity, hinput, hsigned⟩ | ⟨huntagged, rfl⟩
  · obtain ⟨call, hcall, -, plaintext, signed, hplaintext, hmade, hinput'⟩ :=
      hstorable.tag integrity hintegrity input ⟨body, hsigned.symm⟩
    obtain ⟨version, rest', hparts, -⟩ := bodyBeforeIntegrity_eq_ok hmade
    rw [hparts] at hinput'
    obtain ⟨hbound, hbody⟩ := signedInput_inj hlength hinput' hinput
    have hbegins : body <+: framed := ⟨_, hsigned.symm⟩
    rw [hbody, hframed, append_assoc] at hsigned
    have hflags := (cons.inj (append_cancel_left hsigned)).1
    rw [← hparts] at hbody
    rw [← hbody] at hmade
    rw [← hbody, ← hflags] at hparts
    have hsame := hstorable.opens_signed hfresh hcall hplaintext hmade hparts hbegins hopen
    have hnamed : decoded.compression = call.options.compression := by
      rw [hflags, decodeCompression_manifestFlags] at hcompression
      exact (Except.ok.inj hcompression).symm
    rw [hsame] at hpayload
    refine ⟨call, hcall, .of_boundContext hbound, ⟨plaintext, hplaintext, hpayload⟩, fun _ => ?_⟩
    rw [hnamed] at hpayload
    exact hround _ _ _ _ _ _ hplaintext hpayload
  · have hencrypted : hasFlag flags flagEncrypted = true :=
      hauthenticated.resolve_right (by rw [huntagged]; exact Bool.false_ne_true)
    obtain ⟨call, hcall, subKey, iv, ciphertext, hmade, -⟩ :=
      hstorable.encrypted (prefix_refl _) hencrypted hopen
    refine ⟨call, hcall, .of_boundContext hmade.2.2.1, ⟨compressed, hmade.2.2.2, hpayload⟩, ?_⟩
    rintro (⟨flags', hflags', htagged⟩ | hnamed)
    · have hsame : flags' = flags := by
        rw [hframed] at hflags'
        exact (some.inj hflags').symm
      rw [hsame, huntagged] at htagged
      cases htagged
    · rw [hnamed] at hpayload
      exact hround _ _ _ _ _ _ hmade.2.2.2 hpayload

/-! ## One body

The payload `1`, compressed with gzip, under the subkey `00 … 1f`, the IV `40 … 4b` and the
integrity key `20 … 3f`, for the storage key `k`. -/

def oneSubKey : Bytes := (List.range 32).map UInt8.ofNat

def oneIntegrityKey : Bytes := (List.range 32).map fun n => UInt8.ofNat (0x20 + n)

def oneIv : Bytes := (List.range 12).map fun n => UInt8.ofNat (0x40 + n)

def oneCompressed : Bytes :=
  [0x1F, 0x8B, 0x08, 0x00, 0x00, 0x00, 0x00, 0x00, 0x00, 0x03, 0x33, 0x04, 0x00, 0xB7, 0xEF,
   0xDC, 0x83, 0x01, 0x00, 0x00, 0x00]

def oneCiphertext : Bytes :=
  [0xFD, 0x32, 0xA6, 0x23, 0x26, 0x3C, 0x87, 0x03, 0xCD, 0xC7, 0x24, 0x32, 0x9B, 0xD3, 0xFC,
   0x87, 0xFA, 0xC7, 0x52, 0x5C, 0xB7, 0x34, 0xED, 0xE7, 0x0A, 0x91, 0x88, 0x28, 0x03, 0xA8,
   0xEA, 0x8F, 0x6E, 0xDC, 0xA4, 0x10, 0xA2]

def oneSignature : Bytes :=
  [0x7C, 0x0F, 0xF1, 0x30, 0xD4, 0xB4, 0x06, 0xF8, 0xA8, 0xEE, 0x55, 0x08, 0xD3, 0x6E, 0x02,
   0x9D, 0x79, 0x82, 0xF1, 0x9B, 0x82, 0xFA, 0xC2, 0x12, 0xE5, 0x28, 0xC8, 0xF1, 0xB2, 0x1E,
   0x9D, 0xBE]

/-- The body without its tag, under the given flags. -/
def oneBody (flags : UInt8) : Bytes := ats1Magic ++ flags :: (oneIv ++ oneCiphertext)

/-- The input of the tag: the length of the storage key, the key and the body. -/
def oneSigned : Bytes := [0, 0, 0, 1, 0x6B] ++ oneBody 0b110101

/-- A runtime that answers as the real one does for this body and knows no other. -/
def oneRuntime : CodecRuntime where
  sign key input :=
    if key = oneIntegrityKey ∧ input = oneSigned then oneSignature else List.replicate 32 0
  encrypt subKey iv plaintext additionalData :=
    if subKey = oneSubKey ∧ iv = oneIv ∧ plaintext = oneCompressed ∧ additionalData = some [0x6B]
    then oneCiphertext else []
  decrypt subKey iv ciphertext additionalData :=
    if subKey = oneSubKey ∧ iv = oneIv ∧ ciphertext = oneCiphertext ∧
      additionalData = some [0x6B]
    then .ok oneCompressed else .error "OperationError"
  gzip _ input := if input = [0x31] then .ok oneCompressed else .error "unavailable"
  gunzip _ input := if input = oneCompressed then .ok [0x31] else .error "incorrect header"
  zstdCompress _ _ := .error "unavailable"
  zstdDecompress _ _ := .error "unavailable"

def oneCall (integrityKey : Option Bytes) : HonestCall where
  iv := oneIv
  jsonBytes := [0x31]
  options := { compression := .gzip, encryption := some { subKey := oneSubKey }
               integrityKey, context := some [0x6B] }

def oneOptions (integrity : Option DecodeIntegrity) : DecodeOptions :=
  { encryption := some (.subKey oneSubKey), integrity, context := some [0x6B]
    requireContextBinding := true, maxOutputBytes := some (.infinity false) }

lemma oneRuntime_roundTrips : RoundTrips oneRuntime := by
  intro algo level input compressed maxOutputBytes output hcompress hdecompress
  cases algo with
  | none =>
    cases hcompress
    obtain ⟨_, _, h⟩ := bind_eq_ok hdecompress
    exact (Except.ok.inj h).symm
  | gzip =>
    obtain ⟨out, hout, h⟩ := bind_eq_ok hdecompress
    obtain ⟨_, _, h⟩ := bind_eq_ok h
    cases h
    simp only [compress, oneRuntime] at hcompress hout
    split at hcompress
    · next hinput =>
      split at hout
      · rw [hinput]
        exact (Except.ok.inj hout).symm
      · cases hout
    · cases hcompress
  | zstd => cases hcompress

lemma freshIvs_singleton (call : HonestCall) : FreshIvs [call] := by
  intro call' hcall' call'' hcall'' _ _ _
  rw [mem_singleton.1 hcall', mem_singleton.1 hcall'']

lemma oneCall_boundContext (integrityKey : Option Bytes) :
    (oneCall integrityKey).options.boundContext = some [0x6B] := by
  cases integrityKey <;> rfl

lemma oneRuntime_encrypted {integrityKey : Option Bytes} {subKey iv ciphertext : Bytes}
    {additionalData : Option Bytes}
    (h : oneRuntime.decrypt subKey iv ciphertext additionalData = .ok plaintext) :
    (oneCall integrityKey).Encrypted oneRuntime subKey iv additionalData plaintext := by
  simp only [oneRuntime] at h
  split at h
  · next hsame =>
    obtain ⟨rfl, rfl, -, rfl⟩ := hsame
    cases h
    exact ⟨⟨_, rfl, rfl⟩, rfl, oneCall_boundContext integrityKey, rfl⟩
  · cases h

lemma oneRuntime_storable_tagged : Storable oneRuntime [oneCall (some oneIntegrityKey)]
    (oneOptions (some ⟨oneIntegrityKey, false⟩))
      (oneBody 0b110101 ++ oneSignature.take hmacTagLength) where
  tag integrity hintegrity input hsuffix := by
    cases hintegrity
    by_cases hinput : input = oneSigned
    · rw [hinput]
      exact ⟨_, List.mem_singleton_self _, rfl, oneCompressed, oneBody 0b110101, rfl, by decide,
        by decide⟩
    · simp only [oneRuntime, hinput, and_false, if_false] at hsuffix
      exact absurd hsuffix (by decide)
  ciphertext _ _ _ _ _ _ _ _ _ _ h := ⟨_, List.mem_singleton_self _, oneRuntime_encrypted h⟩

lemma decodeBody_oneBody :
    decodeBody oneRuntime (oneBody 0b110101 ++ oneSignature.take hmacTagLength)
      (oneOptions (some ⟨oneIntegrityKey, false⟩)) = .ok ⟨.gzip, true, none, true, [0x31]⟩ :=
  rfl

/-- The tagged body as it was written. -/
theorem decodeBody_authentic_one :
    ∃ call ∈ [oneCall (some oneIntegrityKey)], call.GivenAt [0x6B] ∧
      (∃ compressed, call.compressedPayload oneRuntime = .ok compressed ∧
        decompress oneRuntime .gzip compressed (.infinity false) = .ok [0x31]) ∧
      ((∃ flags, (oneBody 0b110101 ++ oneSignature.take hmacTagLength)[4]? = some flags ∧
        hasFlag flags flagIntegrityHmac = true) ∨ .gzip = call.options.compression →
          [0x31] = call.jsonBytes) :=
  decodeBody_authentic oneRuntime_roundTrips (freshIvs_singleton _) oneRuntime_storable_tagged rfl
    rfl (by decide) decodeBody_oneBody

/-- Under AES-GCM alone the manifest's compression can be cleared, and the compressed bytes
come back as the payload. -/
theorem not_decodeBody_payload_honest :
    ¬ ∀ (runtime : CodecRuntime) (calls : List HonestCall) (options : DecodeOptions)
      (framed : Bytes) (given : JsString) (decoded : DecodedBody), RoundTrips runtime →
        FreshIvs calls → Storable runtime calls options framed →
          options.requireContextBinding = true → options.context = some given →
            decodeBody runtime framed options = .ok decoded →
              ∃ call ∈ calls, call.options.context = some given ∧
                call.jsonBytes = decoded.payload := by
  intro h
  obtain ⟨call, hcall, -, hpayload⟩ := h oneRuntime [oneCall none] (oneOptions none)
    (oneBody 0b100100) [0x6B] ⟨.none, true, none, true, oneCompressed⟩ oneRuntime_roundTrips
    (freshIvs_singleton _)
    { tag := fun _ hintegrity => by cases hintegrity
      ciphertext := fun _ _ _ _ _ _ _ _ _ _ h =>
        ⟨_, mem_singleton_self _, oneRuntime_encrypted h⟩ } rfl rfl (by rfl)
  rw [mem_singleton.1 hcall] at hpayload
  exact absurd hpayload (by decide)

end ActorTs.Persistence.ObjectStorage
