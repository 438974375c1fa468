import ActorTs.Persistence.ObjectStorage.ContextBinding

/-!
# Bodies that are read back

What `encodeBody` made for a payload is the payload again to `decodeBody`, under the keys and
the context it was made with, for every choice of compression, encryption and integrity key.
-/

open List Outcome

namespace ActorTs.Persistence.ObjectStorage

/-- A cap on the output that a payload of a size keeps to. -/
def LetsThrough (size : ℕ) : JsNumber → Prop
  | .finite x => size ≤ x.toRat
  | .infinity negative => negative = false
  | .nan => False

/-- The compressors and the cipher are undone, and a signature is longer than a tag. -/
structure Undoes (runtime : CodecRuntime) : Prop where
  decompress {algo : CompressionAlgo} {level : Option JsNumber} {input compressed : Bytes}
    {cap : JsNumber} : compress runtime algo input level = .ok compressed →
      LetsThrough input.length cap → decompress runtime algo compressed cap = .ok input
  decrypt {subKey iv : Bytes} (plaintext : Bytes) (context : Option Bytes) :
    subKey.length = keyLength → iv.length = ivLength →
      runtime.decrypt subKey iv (runtime.encrypt subKey iv plaintext context) context =
        .ok plaintext
  sign (key input : Bytes) : hmacTagLength ≤ (runtime.sign key input).length

/-- The keys, the context and the cap to read a body of an encoding with. -/
structure Matches (options : EncodeOptions) (size : ℕ) (decode : DecodeOptions) : Prop where
  encryption : ∀ key, options.encryption = some key → ∃ supplied,
    decode.encryption = some supplied ∧ ∀ version,
      key.keyVersion.mapM keyVersionByte = .ok version →
        resolveSubKey version supplied = .ok key.subKey
  tagged : ∀ key, options.integrityKey = some key → ∃ integrity,
    decode.integrity = some integrity ∧ integrity.integrityKey = key
  untagged : options.integrityKey = none → ∀ integrity, decode.integrity = some integrity →
    integrity.allowUntaggedBodies = true
  context : decode.context = options.context
  binding : decode.requireContextBinding = true → options.boundContext.isSome = true
  cap : LetsThrough size (decode.maxOutputBytes.getD defaultMaxDecompressedBytes)

variable {runtime : CodecRuntime} {options : EncodeOptions} {decode : DecodeOptions} {size : ℕ}
  {version : Option UInt8} {body compressed iv rest : Bytes}

/-- The flags of a body with a version or without. -/
def EncodeOptions.flags (options : EncodeOptions) (version : Option UInt8) : UInt8 :=
  manifestFlags options.compression options.encryption.isSome version.isSome
    options.integrityKey.isSome options.boundContext.isSome

lemma hasFlag_flags (options : EncodeOptions) (version : Option UInt8) :
    hasFlag (options.flags version) flagEncrypted = options.encryption.isSome ∧
      hasFlag (options.flags version) flagKeyVersioned = version.isSome ∧
      hasFlag (options.flags version) flagIntegrityHmac = options.integrityKey.isSome ∧
      hasFlag (options.flags version) flagContextBound = options.boundContext.isSome :=
  hasFlag_manifestFlags ..

lemma Matches.decodeContext (h : Matches options size decode) :
    decodeContext (options.flags version) decode = .ok options.boundContext := by
  obtain ⟨hencrypted, -, htagged, hbound⟩ := hasFlag_flags options version
  have hbinding := h.binding
  rw [ObjectStorage.decodeContext, hencrypted, htagged, hbound, h.context]
  rw [EncodeOptions.boundContext] at hbinding ⊢
  revert hbinding
  cases options.encryption.isSome <;> cases options.integrityKey.isSome <;>
    cases suppliedContext options.context <;> cases decode.requireContextBinding <;> simp

lemma Matches.verifyIntegrity (h : Matches options size decode) (version : Option UInt8)
    (hundoes : Undoes runtime) {framed : Bytes} (hbody : 5 ≤ body.length)
    (hframed : (match options.integrityKey with
      | some key => do
          let tag ← hmacSha256 runtime key body options.boundContext
          return body ++ tag
      | none => return body) = Except.ok framed) :
    verifyIntegrity runtime (options.flags version) decode options.boundContext framed =
      .ok body := by
  obtain ⟨-, -, htagged, -⟩ := hasFlag_flags options version
  rw [ObjectStorage.verifyIntegrity, htagged]
  cases hkey : options.integrityKey with
  | none =>
    rw [hkey] at hframed
    cases hframed
    rw [Option.isSome_none, if_neg Bool.false_ne_true]
    split
    · next integrity hintegrity => rw [if_pos (h.untagged hkey integrity hintegrity)]
    · rfl
  | some key =>
    rw [hkey] at hframed
    obtain ⟨tag, htag, hframed⟩ := bind_eq_ok hframed
    cases hframed
    obtain ⟨integrity, hintegrity, rfl⟩ := h.tagged key hkey
    obtain ⟨input, -, rfl⟩ := hmacSha256_eq_ok htag
    have hlength : ((runtime.sign integrity.integrityKey input).take hmacTagLength).length =
        hmacTagLength := length_take_of_le (hundoes.sign ..)
    rw [Option.isSome_some, if_pos rfl, if_neg (by rw [length_append, hlength]; omega), hintegrity]
    simp only [length_append, hlength, Nat.add_sub_cancel, take_left, drop_left, htag]
    exact if_pos rfl

/-- The version a key was given, as the one byte it is stored in. -/
def StoredAs (given : JsNumber) (version : UInt8) : Prop :=
  ∃ x, given = .finite x ∧ x.toRat = version.toNat

lemma keyVersionByte_eq_ok {given : JsNumber} {version : UInt8}
    (h : keyVersionByte given = .ok version) : StoredAs given version := by
  unfold keyVersionByte at h
  split at h
  · next x =>
    split at h
    · next hinteger =>
      obtain ⟨hden, hle, hge⟩ := hinteger
      obtain rfl := Except.ok.inj h
      have hnum : (x.toRat.num : ℚ) = x.toRat := (Rat.den_eq_one_iff _).1 hden
      rw [← hnum] at hle hge
      obtain ⟨n, hn⟩ := Int.eq_ofNat_of_zero_le (Int.cast_nonneg_iff.1 hle)
      rw [hn] at hge
      have hlt : n < 2 ^ 8 := Nat.lt_succ_of_le (by exact_mod_cast hge)
      refine ⟨x, rfl, ?_⟩
      rw [hn, Int.toNat_natCast, UInt8.toNat_ofNat_of_lt' hlt, ← hnum, hn]
      rfl
    · cases h
  · cases h

lemma aesGcmDecrypt_of_encrypt (hundoes : Undoes runtime) {subKey ciphertext : Bytes}
    {context : Option Bytes}
    (h : aesGcmEncrypt runtime subKey iv compressed context = .ok ciphertext) :
    aesGcmDecrypt runtime subKey iv ciphertext context = .ok compressed := by
  unfold aesGcmEncrypt at h
  unfold aesGcmDecrypt
  split at h
  · cases h
  · next hkey =>
    split at h
    · cases h
    · next hiv =>
      obtain rfl := Except.ok.inj h
      rw [if_neg hkey, if_neg hiv]
      exact hundoes.decrypt _ _ (not_not.1 hkey) (not_not.1 hiv)

lemma readKeyVersion_flags (options : EncodeOptions) (version : Option UInt8) (rest : Bytes) :
    readKeyVersion (options.flags version)
      (ats1Magic ++ options.flags version :: (version.toList ++ rest)) =
        .ok (version, 5 + version.toList.length) := by
  obtain ⟨-, hversioned, -, -⟩ := hasFlag_flags options version
  rw [readKeyVersion, hversioned]
  cases version <;> rfl

lemma Matches.openBody (h : Matches options size decode) (hundoes : Undoes runtime)
    (hbody : bodyBeforeIntegrity runtime iv compressed options = .ok body) :
    ∃ version rest, body = ats1Magic ++ options.flags version :: rest ∧
      openBody runtime (options.flags version) decode options.boundContext body =
        .ok (version, compressed) ∧
      Option.Rel StoredAs (options.encryption.bind (·.keyVersion)) version := by
  unfold bodyBeforeIntegrity at hbody
  cases hencryption : options.encryption with
  | none =>
    rw [hencryption] at hbody
    cases hbody
    obtain ⟨hencrypted, -, -, -⟩ := hasFlag_flags options none
    refine ⟨none, compressed, by rw [EncodeOptions.flags, hencryption]; rfl, ?_, .none⟩
    rw [ObjectStorage.openBody, hencrypted, hencryption]
    rfl
  | some key =>
    rw [hencryption] at hbody
    obtain ⟨version, hversion, hbody⟩ := bind_eq_ok hbody
    obtain ⟨ciphertext, hciphertext, hbody⟩ := bind_eq_ok hbody
    cases hbody
    have hflags : options.flags version = manifestFlags options.compression true version.isSome
        options.integrityKey.isSome options.boundContext.isSome := by
      rw [EncodeOptions.flags, hencryption]
      rfl
    obtain ⟨hencrypted, hversioned, -, -⟩ := hasFlag_flags options version
    obtain ⟨supplied, hsupplied, hresolves⟩ := h.encryption key hencryption
    have hiv := aesGcmEncrypt_eq_ok hciphertext
    have hread := readKeyVersion_flags options version (iv ++ ciphertext)
    have hsplit : ats1Magic ++ options.flags version :: (version.toList ++ (iv ++ ciphertext)) =
        ats1Magic ++ options.flags version :: version.toList ++ (iv ++ ciphertext) := by
      rw [append_assoc, cons_append]
    have hoffset : 5 + version.toList.length =
        (ats1Magic ++ options.flags version :: version.toList).length := by
      rw [length_append, length_cons, Nat.add_left_comm, Nat.add_comm]
      rfl
    refine ⟨version, _, by rw [hflags], ?_, ?_⟩
    · rw [ObjectStorage.openBody, hencrypted, hencryption, Option.isSome_some, if_pos rfl,
        hsupplied, ← hflags, append_assoc version.toList]
      refine bind_eq_ok_iff.2 ⟨_, hread, ?_⟩
      simp only [hsplit, hoffset, drop_left, drop_length_add_append]
      have hlength : ivLength ≤ (iv ++ ciphertext).length := by
        rw [length_append, hiv]
        exact Nat.le_add_right ..
      rw [if_neg (by rw [length_append]; omega), take_left' hiv, drop_left' hiv]
      exact bind_eq_ok_iff.2 ⟨_, hresolves version hversion,
        bind_eq_ok_iff.2 ⟨_, aesGcmDecrypt_of_encrypt hundoes hciphertext, rfl⟩⟩
    · change Option.Rel StoredAs key.keyVersion version
      cases hgiven : key.keyVersion with
      | none =>
        rw [hgiven] at hversion
        cases hversion
        exact .none
      | some given =>
        rw [hgiven] at hversion
        obtain ⟨v, hv, hversion⟩ := bind_eq_ok hversion
        cases hversion
        exact .some (keyVersionByte_eq_ok hv)

/-- A runtime that changes nothing. -/
def plainRuntime : CodecRuntime where
  sign _ _ := replicate 32 0
  encrypt _ _ plaintext _ := plaintext
  decrypt _ _ ciphertext _ := .ok ciphertext
  gzip _ input := .ok input
  gunzip _ input := .ok input
  zstdCompress _ input := .ok input
  zstdDecompress _ input := .ok input

lemma assertWithinCap_of_letsThrough {cap : JsNumber} (h : LetsThrough size cap)
    (algorithm : JsString) : assertWithinCap size cap algorithm = .ok () := by
  unfold assertWithinCap
  split
  · exact if_neg (not_lt.2 h)
  · rfl

lemma plainRuntime_undoes : Undoes plainRuntime where
  decompress {algo level input compressed cap} hcompress hcap := by
    cases algo <;> cases hcompress
    · exact bind_eq_ok_iff.2 ⟨_, assertWithinCap_of_letsThrough hcap _, rfl⟩
    all_goals
      exact bind_eq_ok_iff.2 ⟨_, rfl,
        bind_eq_ok_iff.2 ⟨_, assertWithinCap_of_letsThrough hcap _, rfl⟩⟩
  decrypt _ _ _ _ := rfl
  sign _ _ := Nat.le_add_right 16 16

lemma matches_plain (size : ℕ) :
    Matches {} size { maxOutputBytes := some (.infinity false) } where
  encryption _ h := by cases h
  tagged _ h := by cases h
  untagged _ _ h := by cases h
  context := rfl
  binding h := by cases h
  cap := rfl

end ActorTs.Persistence.ObjectStorage
