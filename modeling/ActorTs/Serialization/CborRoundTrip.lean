import ActorTs.Serialization.CborCodec

/-!
# What the CBOR codec reads back

Every header, whatever its width, is read as the major type and the length it was
written with. From there on the reader follows the writer: `exists_written` says that
a value of the supported kind, no deeper than the reader goes, is written, and that
the reader takes off what was written and returns `unmarked` of the value.

Text goes through a decoder that takes a byte order mark at the front for no part of it. `unmarked`
is what that leaves. A value keeps its weight only where no mark was lost, which settles the round
trip in the other direction.
-/

open List Bool Nat OrderedMap BigEndian

namespace ActorTs.Serialization.Cbor

open Value JsNumber Utf8

open Reader Outcome

/-! ### Headers and leaves -/

section Items

variable {runtime : Runtime} {constraints : ReadConstraints} {depth : ℕ} {read : CborReader Value}
  {n : ℕ}

lemma reads_readByte (h : n < 256) : Reads readByte [UInt8.ofNat n] n := by
  have hread : Reads readByte [UInt8.ofNat n] (value [UInt8.ofNat n]) :=
    (Reads.take [UInt8.ofNat n] unexpectedEnd).seq value
  have hvalue : value [UInt8.ofNat n] = n := by
    simp [value, mod_eq_of_lt h]
  rwa [hvalue] at hread

variable {data : Bytes} {v : Value}

lemma reads_take (h : data.length = n) (error : ℕ → CborDecodeError) :
    Reads (Reader.take n error) data data := by
  subst h
  exact Reads.take data error

lemma reads_readUint {k n : ℕ} (h : n < 256 ^ k) :
    Reads (readUint k) (bytes k n) n := by
  have hread := (reads_take (length_bytes k n) (truncated k)).seq value
  rwa [value_bytes_of_lt h] at hread

/-- A header is a byte that holds the major type, and what says the length. -/
lemma writeHeader_eq (major : ℕ) (h : n < 2 ^ 64) :
    ∃ add tail, writeHeader major n = [UInt8.ofNat (major * 32 + add)] ++ tail ∧ add < 32 ∧
      Reads (readLength add) tail n := by
  unfold writeHeader
  split
  · next hn =>
    refine ⟨n, [], rfl, by omega, ?_⟩
    rw [readLength, if_pos hn]
    exact Reads.pure n
  · split
    · next hn => exact ⟨24, _, rfl, by norm_num, reads_readUint (by simpa using hn)⟩
    · split
      · next hn => exact ⟨25, _, rfl, by norm_num, reads_readUint (by simpa using hn)⟩
      · split
        · next hn => exact ⟨26, _, rfl, by norm_num, reads_readUint (by simpa using hn)⟩
        · exact ⟨27, _, rfl, by norm_num, reads_readUint (by simpa using h)⟩

lemma reads_item {major len : ℕ} {body : Bytes} (hmajor : major < 7) (hlen : len < 2 ^ 64)
    (h : Reads (readBody runtime constraints depth read major len) body v) :
    Reads (readItem runtime constraints depth read) (writeHeader major len ++ body) v := by
  obtain ⟨add, tail, heq, hadd, hlength⟩ := writeHeader_eq major hlen
  rw [heq, append_assoc]
  refine (reads_readByte (by omega)).bind ?_
  have hdiv : (major * 32 + add) / 32 = major := by omega
  have hmod : (major * 32 + add) % 32 = add := by omega
  rw [hdiv, hmod, if_neg (by omega)]
  exact hlength.bind h

lemma reads_simple (add : ℕ) (hadd : add < 32) (h : Reads (readSimple add) data v) :
    Reads (readItem runtime constraints depth read) ([UInt8.ofNat (7 * 32 + add)] ++ data) v := by
  refine (reads_readByte (by omega)).bind ?_
  have hdiv : (7 * 32 + add) / 32 = 7 := by omega
  have hmod : (7 * 32 + add) % 32 = add := by omega
  rw [hdiv, hmod, if_pos rfl]
  exact h

lemma reads_double (x : JsNumber) :
    Reads (readItem runtime constraints depth read) (writeDouble x) (.number x) := by
  refine reads_simple 27 (by norm_num) ?_
  have hread := (reads_take (length_bytes 8 x.bits) fun _ => ⟨"Truncated float64"⟩).seq fun data =>
      number (ofBits (value data))
  rwa [value_bytes_of_lt (by simpa using x.bits_lt), ofBits_bits] at hread

lemma toNumber_of_le (h : n ≤ maxSafeInteger) : toNumber n = n := by
  rw [toNumber, if_pos h]

lemma lt_of_le_maxSafeInteger (h : n ≤ maxSafeInteger) : n < 2 ^ 64 :=
  h.trans_lt (by decide)

lemma reads_int {n : ℤ} (h : n.natAbs ≤ maxSafeInteger) :
    Reads (readItem runtime constraints depth read) (writeInt n) (.number (ofInt n)) := by
  unfold writeInt
  split
  · next hn =>
    have hle : n.toNat ≤ maxSafeInteger := by omega
    have hcast : ((n.toNat : ℕ) : ℤ) = n := by omega
    have hbody : Reads (readBody runtime constraints depth read 0 n.toNat) []
        (.number (ofInt n)) := by
      rw [readBody, if_pos hle, hcast]
      exact Reads.pure _
    simpa using reads_item (by norm_num) (lt_of_le_maxSafeInteger hle) hbody
  · next hn =>
    have hle : (-n - 1).toNat ≤ maxSafeInteger := by omega
    have hcast : -((-n - 1).toNat : ℤ) - 1 = n := by omega
    have hbody : Reads (readBody runtime constraints depth read 1 (-n - 1).toNat) []
        (.number (ofInt n)) := by
      rw [readBody, if_pos hle, hcast]
      exact Reads.pure _
    simpa using reads_item (by norm_num) (lt_of_le_maxSafeInteger hle) hbody

/-- Every number is read back, in whichever of the two forms it was written. -/
lemma reads_number (x : JsNumber) :
    Reads (readItem runtime constraints depth read) (writeNumber x) (.number x) := by
  unfold writeNumber
  split
  · exact reads_double x
  · next hzero =>
    cases hx : safeInteger? x with
    | none => exact reads_double x
    | some n =>
      cases x with
      | nan => cases hx
      | infinity negative => cases hx
      | finite y =>
        obtain ⟨hint, hsafe⟩ := Option.filter_eq_some_iff.1 hx
        rw [← ofInt_of_integer? hint (eq_false_iff.2 hzero)]
        exact reads_int (of_decide_eq_true hsafe)

/-- The string is no longer than the reader allows. -/
def Within (constraints : ReadConstraints) (data : Bytes) : Prop :=
  constraints.maxStringLength = 0 ∨ data.length ≤ constraints.maxStringLength

instance (constraints : ReadConstraints) (data : Bytes) : Decidable (Within constraints data) :=
  inferInstanceAs (Decidable (_ ∨ _))

lemma reads_readBytes (h : Within constraints data) :
    Reads (readBytes constraints data.length) data data := by
  have hcheck : ¬ (0 < constraints.maxStringLength ∧
      constraints.maxStringLength < data.length) := by
    unfold Within at h
    omega
  have hrequire : Reads (requireStringLength constraints data.length) [] () := by
    rw [requireStringLength, if_neg hcheck]
    exact Reads.pure ()
  exact hrequire.bind (Reads.take data (truncated data.length))

lemma reads_bytes (hsafe : SafeLength data) (h : Within constraints data) :
    Reads (readItem runtime constraints depth read) (writeBytes data) (.bytes data) := by
  have hle : data.length ≤ maxSafeInteger := le_pred_of_lt hsafe
  refine reads_item (by norm_num) (lt_of_le_maxSafeInteger hle) ?_
  rw [readBody, toNumber_of_le hle]
  exact (reads_readBytes h).map Value.bytes

lemma reads_string {s : JsString} (hpaired : Utf8.paired s = true)
    (hsafe : SafeLength (Utf8.encode s)) (h : Within constraints (Utf8.encode s)) :
    Reads (readItem runtime constraints depth read) (writeString s)
      (.string (Utf8.stripMark s)) := by
  have hle : (Utf8.encode s).length ≤ maxSafeInteger := le_pred_of_lt hsafe
  refine reads_item (by norm_num) (lt_of_le_maxSafeInteger hle) ?_
  rw [readBody, toNumber_of_le hle, ← Utf8.decode_encode hpaired]
  exact (reads_readBytes h).map fun data => Value.string (Utf8.decode data)

end Items

/-! ### Values -/

mutual

/-- The levels below its own that the decoder spends on a value. -/
def nesting : Value → ℕ
  | .bigint _ => 1
  | .array items => itemsNesting 1 items
  | .set members => max 1 (itemsNesting 2 members)
  | .map entries => entriesNesting entries
  | .object properties => propertiesNesting properties
  | _ => 0

def itemsNesting (levels : ℕ) : List Value → ℕ
  | [] => 0
  | v :: vs => max (levels + nesting v) (itemsNesting levels vs)

def entriesNesting : List (Value × Value) → ℕ
  | [] => 0
  | (k, v) :: es => max (max (1 + nesting k) (1 + nesting v)) (entriesNesting es)

def propertiesNesting : List (JsString × Value) → ℕ
  | [] => 0
  | (_, v) :: ps => max (1 + nesting v) (propertiesNesting ps)

end

mutual

/-- What a value comes back as. -/
def unmarked : Value → Value
  | .string s => .string (Utf8.stripMark s)
  | .array items => .array (itemsUnmarked items)
  | .set members => .set (newSet (itemsUnmarked members))
  | .map entries => .map (newMap (entriesUnmarked entries))
  | .object properties => .object (defineProperties (propertiesUnmarked properties))
  | v => v

def itemsUnmarked : List Value → List Value
  | [] => []
  | v :: vs => unmarked v :: itemsUnmarked vs

def entriesUnmarked : List (Value × Value) → List (Value × Value)
  | [] => []
  | (k, v) :: es => (unmarked k, unmarked v) :: entriesUnmarked es

def propertiesUnmarked : List (JsString × Value) → List (JsString × Value)
  | [] => []
  | (key, v) :: ps => (Utf8.stripMark key, unmarked v) :: propertiesUnmarked ps

end

/-- The leaves the codec is for. Numbers are all supported, safe integers or not. -/
def CborLeaf (constraints : ReadConstraints) : Value → Prop
  | .undefined | .null | .bool _ | .number _ => True
  | .bigint n => (-(2 : ℤ) ^ 8192 ≤ n ∧ n ≤ 2 ^ 8192) ∧
      Within constraints (BigEndian.minimalBytes (bignumMagnitude n))
  | .string s => Utf8.paired s = true ∧ Within constraints (Utf8.encode s)
  | .bytes data => Within constraints data
  | _ => False

def CborKey (constraints : ReadConstraints) (key : JsString) : Prop :=
  Utf8.paired key = true ∧ Within constraints (Utf8.encode key)

/-- A leaf that the encoder takes: the upper end of the integers is refused. -/
def WrittenLeaf (constraints : ReadConstraints) (v : Value) : Prop :=
  CborLeaf constraints v ∧ ∀ n, v = .bigint n → outsideBignumRange n = false

section Written

variable {runtime : Runtime} {constraints : ReadConstraints}

/-- The value is written at a depth, and a reader takes off what was written. -/
def Written (depth : ℕ) (allowToJson : Bool) (read : CborReader Value) (v : Value) : Prop :=
  ∃ data, writeValue depth allowToJson v = .ok data ∧ Reads read data (unmarked v)

variable {levels : ℕ} {vs : List Value} {n : ℕ}

lemma itemsNesting_le : itemsNesting levels vs ≤ n ↔ ∀ v ∈ vs, levels + nesting v ≤ n := by
  induction vs with
  | nil => simp [itemsNesting]
  | cons v vs ih => rw [itemsNesting, max_le_iff, ih, forall_mem_cons]

variable {es : List (Value × Value)}

lemma entriesNesting_le :
    entriesNesting es ≤ n ↔ ∀ e ∈ es, 1 + nesting e.1 ≤ n ∧ 1 + nesting e.2 ≤ n := by
  induction es with
  | nil => simp [entriesNesting]
  | cons e es ih => rw [entriesNesting, max_le_iff, max_le_iff, ih, forall_mem_cons]

variable {ps : List (JsString × Value)}

lemma propertiesNesting_le : propertiesNesting ps ≤ n ↔ ∀ p ∈ ps, 1 + nesting p.2 ≤ n := by
  induction ps with
  | nil => simp [propertiesNesting]
  | cons p ps ih => rw [propertiesNesting, max_le_iff, ih, forall_mem_cons]

variable (depth : ℕ) (read : CborReader Value)

lemma exists_writeItems (h : ∀ v ∈ vs, Written depth true read v) :
    ∃ data, writeItems depth vs = .ok data ∧
      Reads (Reader.many read vs.length) data (itemsUnmarked vs) := by
  induction vs with
  | nil => exact ⟨[], rfl, Reads.many_zero read⟩
  | cons v vs ih =>
    rw [forall_mem_cons] at h
    obtain ⟨item, hitem, hread⟩ := h.1
    obtain ⟨rest, hrest, hreads⟩ := ih h.2
    refine ⟨item ++ rest, ?_, hread.many_succ hreads⟩
    rw [writeItems, hitem, hrest]
    rfl

lemma exists_writeEntries
    (h : ∀ e ∈ es, Written depth true read e.1 ∧ Written depth true read e.2) :
    ∃ data, writeEntries depth es = .ok data ∧
      Reads (Reader.many (readPair read) es.length) data (entriesUnmarked es) := by
  induction es with
  | nil => exact ⟨[], rfl, Reads.many_zero _⟩
  | cons e es ih =>
    rw [forall_mem_cons] at h
    obtain ⟨key, hkey, hreadKey⟩ := h.1.1
    obtain ⟨value, hvalue, hreadValue⟩ := h.1.2
    obtain ⟨rest, hrest, hreads⟩ := ih h.2
    have hpair : Reads (readPair read) (key ++ value) (unmarked e.1, unmarked e.2) :=
      hreadKey.bind (hreadValue.seq _)
    refine ⟨key ++ value ++ rest, ?_, hpair.many_succ hreads⟩
    rw [writeEntries, hkey, hvalue, hrest]
    rfl

lemma exists_writeProperties
    (hkeys : ∀ p ∈ ps, Reads read (writeString p.1) (.string (stripMark p.1)))
    (h : ∀ p ∈ ps, Written depth true read p.2) :
    ∃ data, writeProperties depth ps = .ok data ∧
      Reads (Reader.many (readProperty read) ps.length) data (propertiesUnmarked ps) := by
  induction ps with
  | nil => exact ⟨[], rfl, Reads.many_zero _⟩
  | cons p ps ih =>
    rw [forall_mem_cons] at hkeys h
    obtain ⟨value, hvalue, hreadValue⟩ := h.1
    obtain ⟨rest, hrest, hreads⟩ := ih hkeys.2 h.2
    have hproperty : Reads (readProperty read) (writeString p.1 ++ value)
        (stripMark p.1, unmarked p.2) :=
      hkeys.1.bind (hreadValue.seq _)
    refine ⟨writeString p.1 ++ value ++ rest, ?_, hproperty.many_succ hreads⟩
    rw [writeProperties, hvalue, hrest]
    rfl

variable {data : Bytes}

lemma reads_tagged {tag : ℕ} {inner v : Value} (htag : tag < 2 ^ 53) (hmap : tag ≠ Tag.map)
    (hgeneric : tag ≠ Tag.genericObject)
    (hread : Reads (readValue runtime constraints levels) data inner)
    (happly : applyTag runtime tag inner = .ok v) :
    Reads (readValue runtime constraints (levels + 1)) (writeTag tag ++ data) v := by
  have hle : tag ≤ maxSafeInteger := le_pred_of_lt htag
  refine reads_item (by norm_num) (lt_of_le_maxSafeInteger hle) ?_
  rw [readBody, toNumber_of_le hle, readTagged, if_neg hmap]
  rw [← append_nil data]
  refine hread.bind ?_
  rw [if_neg hgeneric]
  exact Reads.lift happly

lemma magnitude_bignum {n : ℤ} :
    (if 0 ≤ n then (bignumMagnitude n : ℤ) else -1 - (bignumMagnitude n : ℤ)) = n := by
  unfold bignumMagnitude
  split <;> split <;> omega

lemma lt_pow_of_inside {n : ℤ} (h : outsideBignumRange n = false) :
    bignumMagnitude n < 256 ^ maxBignumBytes := by
  have hle : bignumMagnitude n ≤ maxBignumMagnitude := by
    simpa [outsideBignumRange] using h
  have hpow : (2 : ℕ) ^ (maxBignumBytes * 8) = 256 ^ maxBignumBytes := by
    rw [mul_comm, pow_mul]
    norm_num
  have hmax : maxBignumMagnitude < 256 ^ maxBignumBytes := by
    rw [← hpow]
    delta maxBignumMagnitude
    exact Nat.sub_lt (Nat.two_pow_pos _) Nat.one_pos
  exact hle.trans_lt hmax

lemma reads_bigint {n : ℤ} (h : outsideBignumRange n = false)
    (hwithin : Within constraints (minimalBytes (bignumMagnitude n))) :
    Reads (readValue runtime constraints (levels + 2))
      (writeTag (if 0 ≤ n then Tag.unsignedBignum else Tag.negativeBignum) ++
        writeBytes (minimalBytes (bignumMagnitude n))) (.bigint n) := by
  have hlength : (minimalBytes (bignumMagnitude n)).length ≤ maxBignumBytes :=
    length_minimalBytes_le (by decide) (lt_pow_of_inside h)
  have hsafe : SafeLength (minimalBytes (bignumMagnitude n)) :=
    hlength.trans_lt (by decide)
  have hread : Reads (readValue runtime constraints (levels + 1))
      (writeBytes (minimalBytes (bignumMagnitude n)))
      (.bytes (minimalBytes (bignumMagnitude n))) := reads_bytes hsafe hwithin
  refine reads_tagged (by split <;> decide) (by split <;> decide) (by split <;> decide) hread ?_
  have hvalue := value_minimalBytes (bignumMagnitude n)
  have hn := @magnitude_bignum n
  split
  · next hpos =>
    rw [if_pos hpos] at hn
    rw [applyTag, if_neg (by decide), if_neg (by decide), if_pos (.inl rfl), applyBignum,
      if_neg (by omega), if_pos rfl, hvalue, hn]
  · next hneg =>
    rw [if_neg hneg] at hn
    rw [applyTag, if_neg (by decide), if_neg (by decide), if_pos (.inr rfl), applyBignum,
      if_neg (by omega), if_neg (by decide), hvalue, hn]

variable {depth : ℕ}

lemma written_leaf {v : Value} (h : WrittenLeaf constraints v) (hv : v.WellFormed runtime)
    (allowToJson : Bool) (hdepth : depth + nesting v ≤ maxNestingDepth)
    (hlevels : nesting v < levels) :
    Written depth allowToJson (readValue runtime constraints levels) v := by
  obtain ⟨l, rfl⟩ : ∃ l, levels = l + 1 := ⟨levels - 1, by omega⟩
  have hnot : ¬ maxNestingDepth < depth := by omega
  obtain ⟨hleaf, hrange⟩ := h
  cases v with
  | undefined =>
    refine ⟨_, by rw [writeValue, if_neg hnot], ?_⟩
    exact reads_simple 23 (by norm_num) (Reads.pure _)
  | null =>
    refine ⟨_, by rw [writeValue, if_neg hnot], ?_⟩
    exact reads_simple 22 (by norm_num) (Reads.pure _)
  | bool b =>
    refine ⟨_, by rw [writeValue, if_neg hnot], ?_⟩
    cases b with
    | false => exact reads_simple 20 (by norm_num) (Reads.pure _)
    | true => exact reads_simple 21 (by norm_num) (Reads.pure _)
  | number x => exact ⟨_, by rw [writeValue, if_neg hnot], reads_number x⟩
  | bigint n =>
    rw [nesting] at hdepth hlevels
    obtain ⟨m, rfl⟩ : ∃ m, l = m + 1 := ⟨l - 1, by omega⟩
    refine ⟨_, ?_, reads_bigint (hrange n rfl) hleaf.2⟩
    rw [writeValue, if_neg hnot, requireDepth, if_neg (by omega), writeBigInt, hrange n rfl]
    rfl
  | string s =>
    exact ⟨_, by rw [writeValue, if_neg hnot], reads_string hleaf.1 hv hleaf.2⟩
  | bytes data => exact ⟨_, by rw [writeValue, if_neg hnot], reads_bytes hv hleaf⟩
  | _ => cases hleaf

lemma reads_map {entries : List (Value × Value)} (hsafe : SafeLength entries)
    (h : Reads (Reader.many (readPair (readValue runtime constraints levels)) entries.length) data
      (entriesUnmarked entries)) :
    Reads (readValue runtime constraints (levels + 1)) (writeMapHeader entries.length ++ data)
      (unmarked (.map entries)) := by
  have hle : entries.length ≤ maxSafeInteger := le_pred_of_lt hsafe
  obtain ⟨add, tail, heq, hadd, hlength⟩ :=
    writeHeader_eq 5 (lt_of_le_maxSafeInteger hle)
  have hpairs : Reads (readEntryPairs constraints (constraints.maxNestingDepth - levels)
      (readValue runtime constraints levels)) (writeHeader 5 entries.length ++ data)
      (entriesUnmarked entries) := by
    rw [readEntryPairs, if_neg (by omega), heq, append_assoc]
    refine (reads_readByte (by omega)).bind ?_
    have hdiv : (5 * 32 + add) / 32 = 5 := by omega
    have hmod : (5 * 32 + add) % 32 = add := by omega
    rw [hdiv, hmod, if_neg (by decide)]
    refine hlength.bind ?_
    rw [toNumber_of_le hle]
    exact h
  rw [writeMapHeader, append_assoc]
  refine reads_item (by norm_num) (by decide) ?_
  exact hpairs.seq fun pairs => map (newMap pairs)

lemma reads_array {items : List Value} (hsafe : SafeLength items)
    (h : Reads (Reader.many (readValue runtime constraints levels) items.length) data
      (itemsUnmarked items)) :
    Reads (readValue runtime constraints (levels + 1)) (writeHeader 4 items.length ++ data)
      (.array (itemsUnmarked items)) := by
  have hle : items.length ≤ maxSafeInteger := le_pred_of_lt hsafe
  refine reads_item (by norm_num) (lt_of_le_maxSafeInteger hle) ?_
  rw [readBody, toNumber_of_le hle]
  exact h.map array

/-- A value of the supported kind is written, and what was written is read. -/
lemma written_of_builtFrom {v : Value}
    (hv : v.BuiltFrom (WrittenLeaf constraints) (CborKey constraints)) :
    v.WellFormed runtime → ∀ (depth levels : ℕ) (allowToJson : Bool),
      depth + nesting v ≤ maxNestingDepth → nesting v < levels →
        Written depth allowToJson (readValue runtime constraints levels) v := by
  induction hv with
  | leaf h => exact fun hv _ _ allowToJson => written_leaf h hv allowToJson
  | @array items h ih =>
    intro hv depth levels allowToJson hdepth hlevels
    rw [WellFormed, itemsWellFormed_iff] at hv
    obtain ⟨l, rfl⟩ : ∃ l, levels = l + 1 := ⟨levels - 1, by omega⟩
    rw [nesting] at hdepth hlevels
    have hitems := itemsNesting_le.1 (le_refl (itemsNesting 1 items))
    obtain ⟨body, hbody, hreads⟩ := exists_writeItems (depth + 1)
      (readValue runtime constraints l) fun v hmem => by
        have hle := hitems v hmem
        exact ih v hmem (hv.2 v hmem) _ _ true (by omega) (by omega)
    refine ⟨writeHeader 4 items.length ++ body, ?_, reads_array hv.1 hreads⟩
    rw [writeValue, if_neg (by omega), hbody]
    rfl
  | @set members h ih =>
    intro hv depth levels allowToJson hdepth hlevels
    rw [WellFormed, itemsWellFormed_iff] at hv
    rw [nesting] at hdepth hlevels
    obtain ⟨l, rfl⟩ : ∃ l, levels = l + 2 := ⟨levels - 2, by omega⟩
    have hitems := itemsNesting_le.1 (le_refl (itemsNesting 2 members))
    obtain ⟨body, hbody, hreads⟩ := exists_writeItems (depth + 2)
      (readValue runtime constraints l) fun v hmem => by
        have hle := hitems v hmem
        exact ih v hmem (hv.2.2 v hmem) _ _ true (by omega) (by omega)
    refine ⟨writeTag Tag.set ++ writeHeader 4 members.length ++ body, ?_, ?_⟩
    · rw [writeValue, if_neg (by omega), requireDepth, if_neg (by omega), hbody]
      rfl
    · rw [append_assoc]
      exact reads_tagged (by decide) (by decide) (by decide) (reads_array hv.1 hreads) rfl
  | @map entries hkeys hvalues ihkeys ihvalues =>
    intro hv depth levels allowToJson hdepth hlevels
    rw [WellFormed, entriesWellFormed_iff] at hv
    obtain ⟨l, rfl⟩ : ∃ l, levels = l + 1 := ⟨levels - 1, by omega⟩
    rw [nesting] at hdepth hlevels
    have hentries := entriesNesting_le.1 (le_refl (entriesNesting entries))
    obtain ⟨body, hbody, hreads⟩ := exists_writeEntries (depth + 1)
      (readValue runtime constraints l) fun e hmem => by
        have hle := hentries e hmem
        have hwell := hv.2.2 e hmem
        exact ⟨ihkeys e hmem hwell.1 _ _ true (by omega) (by omega),
          ihvalues e hmem hwell.2 _ _ true (by omega) (by omega)⟩
    refine ⟨writeMapHeader entries.length ++ body, ?_, reads_map hv.1 hreads⟩
    rw [writeValue, if_neg (by omega), hbody]
    rfl
  | @object properties hkeys hvalues ih =>
    intro hv depth levels allowToJson hdepth hlevels
    rw [WellFormed, propertiesWellFormed_iff] at hv
    obtain ⟨l, rfl⟩ : ∃ l, levels = l + 1 := ⟨levels - 1, by omega⟩
    rw [nesting] at hdepth hlevels
    have hproperties := propertiesNesting_le.1 (le_refl (propertiesNesting properties))
    obtain ⟨body, hbody, hreads⟩ := exists_writeProperties (depth + 1)
      (readValue runtime constraints l)
      (fun p hmem => by
        have hle := hproperties p hmem
        obtain ⟨m, rfl⟩ : ∃ m, l = m + 1 := ⟨l - 1, by omega⟩
        exact reads_string (hkeys p hmem).1 (hv.2.2 p hmem).1 (hkeys p hmem).2)
      (fun p hmem => by
        have hle := hproperties p hmem
        exact ih p hmem (hv.2.2 p hmem).2 _ _ true (by omega) (by omega))
    have hle : properties.length ≤ maxSafeInteger := le_pred_of_lt hv.1
    refine ⟨writeHeader 5 properties.length ++ body, ?_, ?_⟩
    · rw [writeValue, if_neg (by omega), hbody]
      rfl
    · refine reads_item (by norm_num) (lt_of_le_maxSafeInteger hle) ?_
      rw [readBody, toNumber_of_le hle]
      exact hreads.map fun properties => object (defineProperties properties)

/-! ### What the encoder refuses -/

lemma of_writeItems (h : writeItems depth vs = .ok data) :
    ∀ v ∈ vs, ∃ item, writeValue depth true v = .ok item := by
  induction vs generalizing data with
  | nil => simp
  | cons v vs ih =>
    obtain ⟨item, hitem, h⟩ := bind_eq_ok h
    obtain ⟨rest, hrest, -⟩ := bind_eq_ok h
    exact forall_mem_cons.2 ⟨⟨item, hitem⟩, ih hrest⟩

lemma of_writeEntries (h : writeEntries depth es = .ok data) :
    ∀ e ∈ es, (∃ item, writeValue depth true e.1 = .ok item) ∧
      ∃ item, writeValue depth true e.2 = .ok item := by
  induction es generalizing data with
  | nil => simp
  | cons e es ih =>
    obtain ⟨key, hkey, h⟩ := bind_eq_ok h
    obtain ⟨value, hvalue, h⟩ := bind_eq_ok h
    obtain ⟨rest, hrest, -⟩ := bind_eq_ok h
    exact forall_mem_cons.2 ⟨⟨⟨key, hkey⟩, ⟨value, hvalue⟩⟩, ih hrest⟩

lemma of_writeProperties (h : writeProperties depth ps = .ok data) :
    ∀ p ∈ ps, ∃ item, writeValue depth true p.2 = .ok item := by
  induction ps generalizing data with
  | nil => simp
  | cons p ps ih =>
    obtain ⟨value, hvalue, h⟩ := bind_eq_ok h
    obtain ⟨rest, hrest, -⟩ := bind_eq_ok h
    exact forall_mem_cons.2 ⟨⟨value, hvalue⟩, ih hrest⟩

lemma builtFrom_of_written {v : Value}
    (hv : v.BuiltFrom (CborLeaf constraints) (CborKey constraints)) :
    ∀ {depth : ℕ} {allowToJson : Bool} {data : Bytes}, writeValue depth allowToJson v = .ok data →
      v.BuiltFrom (WrittenLeaf constraints) (CborKey constraints) := by
  induction hv with
  | leaf hleaf =>
    intro depth allowToJson data h
    refine .leaf ⟨hleaf, fun n hn => ?_⟩
    subst hn
    rw [writeValue] at h
    split at h
    · cases h
    · obtain ⟨-, -, h⟩ := bind_eq_ok h
      rw [writeBigInt] at h
      split at h
      · cases h
      · next hrange => exact eq_false_iff.2 hrange
  | array hitems ih =>
    intro depth allowToJson data h
    rw [writeValue] at h
    split at h
    · cases h
    · obtain ⟨body, hbody, -⟩ := bind_eq_ok h
      refine .array fun v hmem => ?_
      obtain ⟨item, hitem⟩ := of_writeItems hbody v hmem
      exact ih v hmem hitem
  | set hmembers ih =>
    intro depth allowToJson data h
    rw [writeValue] at h
    split at h
    · cases h
    · obtain ⟨-, -, h⟩ := bind_eq_ok h
      obtain ⟨body, hbody, -⟩ := bind_eq_ok h
      refine .set fun v hmem => ?_
      obtain ⟨item, hitem⟩ := of_writeItems hbody v hmem
      exact ih v hmem hitem
  | map hkeys hvalues ihkeys ihvalues =>
    intro depth allowToJson data h
    rw [writeValue] at h
    split at h
    · cases h
    · obtain ⟨body, hbody, -⟩ := bind_eq_ok h
      have hentries := of_writeEntries hbody
      refine .map (fun e hmem => ?_) (fun e hmem => ?_)
      · obtain ⟨item, hitem⟩ := (hentries e hmem).1
        exact ihkeys e hmem hitem
      · obtain ⟨item, hitem⟩ := (hentries e hmem).2
        exact ihvalues e hmem hitem
  | object hkeys hvalues ih =>
    intro depth allowToJson data h
    rw [writeValue] at h
    split at h
    · cases h
    · obtain ⟨body, hbody, -⟩ := bind_eq_ok h
      refine .object hkeys fun p hmem => ?_
      obtain ⟨item, hitem⟩ := of_writeProperties hbody p hmem
      exact ih p hmem hitem

end Written

/-! ### What is lost -/

mutual

/-- The length of the texts of a value. -/
def weight : Value → ℕ
  | .string s => s.length
  | .array items => itemsWeight items
  | .set members => itemsWeight members
  | .map entries => entriesWeight entries
  | .object properties => propertiesWeight properties
  | _ => 0

def itemsWeight : List Value → ℕ
  | [] => 0
  | v :: vs => weight v + itemsWeight vs

def entriesWeight : List (Value × Value) → ℕ
  | [] => 0
  | (k, v) :: es => weight k + weight v + entriesWeight es

def propertiesWeight : List (JsString × Value) → ℕ
  | [] => 0
  | (key, v) :: ps => key.length + weight v + propertiesWeight ps

end

section Lost

lemma length_stripMark (s : JsString) : (stripMark s).length ≤ s.length ∧
    ((stripMark s).length = s.length → s.head? ≠ some 0xFEFF) := by
  cases s with
  | nil => simp [stripMark]
  | cons u s =>
    rw [stripMark]
    split <;> simp_all

lemma weight_normalizeKey (v : Value) : weight (normalizeKey v) = weight v := by
  unfold normalizeKey
  split
  · next h =>
    cases v with
    | number x => rw [weight, weight] <;> simp
    | _ => cases h
  · rfl

/-- Adding elements one by one makes nothing heavier than they are together. -/
lemma weight_foldl {α : Type} {w : List α → ℕ} {u : α → ℕ} {add : α → List α → List α}
    (hcons : ∀ a l, w (a :: l) = u a + w l) (hadd : ∀ a l, w (add a l) ≤ u a + w l)
    (l acc : List α) : w (l.foldl (fun acc a => add a acc) acc) ≤ w l + w acc := by
  induction l generalizing acc with
  | nil => exact le_add_left _ _
  | cons a l ih =>
    have hfirst := hadd a acc
    have hrest := ih (add a acc)
    rw [foldl_cons, hcons]
    omega

lemma weight_setAdd (v : Value) (vs : List Value) :
    itemsWeight (setAdd v vs) ≤ weight v + itemsWeight vs := by
  induction vs with
  | nil => simp [setAdd, itemsWeight, weight_normalizeKey]
  | cons w vs ih =>
    rw [setAdd]
    split
    · exact le_add_left _ _
    · rw [itemsWeight, itemsWeight]
      omega

lemma weight_newSet (vs : List Value) : itemsWeight (newSet vs) ≤ itemsWeight vs :=
  weight_foldl (fun _ _ => rfl) weight_setAdd vs []

lemma weight_mapSet (k v : Value) (es : List (Value × Value)) :
    entriesWeight (mapSet k v es) ≤ weight k + weight v + entriesWeight es := by
  induction es with
  | nil => simp [mapSet, entriesWeight, weight_normalizeKey]
  | cons e es ih =>
    rw [mapSet]
    split
    · rw [entriesWeight, entriesWeight]
      omega
    · rw [entriesWeight, entriesWeight]
      omega

lemma weight_newMap (es : List (Value × Value)) :
    entriesWeight (newMap es) ≤ entriesWeight es :=
  weight_foldl (fun _ _ => rfl) (fun e m => weight_mapSet e.1 e.2 m) es []

lemma weight_bind (key : JsString) (v : Value) (ps : List (JsString × Value)) :
    propertiesWeight (bind key v ps) ≤ key.length + weight v + propertiesWeight ps := by
  induction ps with
  | nil => rfl
  | cons p ps ih =>
    rw [OrderedMap.bind]
    split
    · rw [propertiesWeight, propertiesWeight]
      omega
    · rw [propertiesWeight, propertiesWeight]
      omega

lemma weight_defineProperties (ps : List (JsString × Value)) :
    propertiesWeight (defineProperties ps) ≤ propertiesWeight ps :=
  weight_foldl (fun _ _ => rfl) (fun p out => weight_bind p.1 p.2 out) ps []

end Lost

/-- A leaf that comes back: the upper end of the integers is not written, and a mark
at the front of a text is not read. -/
def KeptLeaf : Value → Prop
  | .undefined | .null | .bool _ | .number _ | .bytes _ => True
  | .bigint n => n ≠ 2 ^ 8192
  | .string s => s.head? ≠ some 0xFEFF
  | _ => False

def KeptKey (key : JsString) : Prop := key.head? ≠ some 0xFEFF

instance : DecidablePred KeptKey := fun key => inferInstanceAs (Decidable (key.head? ≠ _))

section Kept

variable {runtime : Runtime} {constraints : ReadConstraints} {es : List (Value × Value)}
  {vs : List Value}

/-- The texts of a value weigh as much as before only where no mark was lost. -/
def Weighed (v : Value) : Prop :=
  weight (unmarked v) ≤ weight v ∧ (weight (unmarked v) = weight v → v.BuiltFrom KeptLeaf KeptKey)

lemma weighed_items (h : ∀ v ∈ vs, Weighed v) :
    itemsWeight (itemsUnmarked vs) ≤ itemsWeight vs ∧
      (itemsWeight vs ≤ itemsWeight (itemsUnmarked vs) →
        ∀ v ∈ vs, v.BuiltFrom KeptLeaf KeptKey) := by
  induction vs with
  | nil => simp [itemsUnmarked]
  | cons v vs ih =>
    rw [forall_mem_cons] at h
    obtain ⟨hle, hkept⟩ := h.1
    obtain ⟨hles, hkepts⟩ := ih h.2
    rw [itemsUnmarked, itemsWeight, itemsWeight, forall_mem_cons]
    exact ⟨by omega, fun heq => ⟨hkept (by omega), hkepts (by omega)⟩⟩

lemma weighed_entries (h : ∀ e ∈ es, Weighed e.1 ∧ Weighed e.2) :
    entriesWeight (entriesUnmarked es) ≤ entriesWeight es ∧
      (entriesWeight es ≤ entriesWeight (entriesUnmarked es) →
        ∀ e ∈ es, e.1.BuiltFrom KeptLeaf KeptKey ∧ e.2.BuiltFrom KeptLeaf KeptKey) := by
  induction es with
  | nil => simp [entriesUnmarked]
  | cons e es ih =>
    rw [forall_mem_cons] at h
    obtain ⟨⟨hlek, hkeptk⟩, hlev, hkeptv⟩ := h.1
    obtain ⟨hles, hkepts⟩ := ih h.2
    rw [entriesUnmarked, entriesWeight, entriesWeight, forall_mem_cons]
    exact ⟨by omega, fun heq => ⟨⟨hkeptk (by omega), hkeptv (by omega)⟩, hkepts (by omega)⟩⟩

variable {ps : List (JsString × Value)}

lemma weighed_properties (h : ∀ p ∈ ps, Weighed p.2) :
    propertiesWeight (propertiesUnmarked ps) ≤ propertiesWeight ps ∧
      (propertiesWeight ps ≤ propertiesWeight (propertiesUnmarked ps) →
        ∀ p ∈ ps, KeptKey p.1 ∧ p.2.BuiltFrom KeptLeaf KeptKey) := by
  induction ps with
  | nil => simp [propertiesUnmarked]
  | cons p ps ih =>
    rw [forall_mem_cons] at h
    obtain ⟨hle, hkept⟩ := h.1
    obtain ⟨hles, hkepts⟩ := ih h.2
    obtain ⟨hlek, hkeptk⟩ := length_stripMark p.1
    rw [propertiesUnmarked, propertiesWeight, propertiesWeight, forall_mem_cons]
    exact ⟨by omega, fun heq => ⟨⟨hkeptk (by omega), hkept (by omega)⟩, hkepts (by omega)⟩⟩

lemma weighed_of_builtFrom {v : Value}
    (hv : v.BuiltFrom (WrittenLeaf constraints) (CborKey constraints)) : Weighed v := by
  induction hv with
  | @leaf v h =>
    obtain ⟨hleaf, hrange⟩ := h
    cases v with
    | string s =>
      obtain ⟨hle, hkept⟩ := length_stripMark s
      exact ⟨hle, fun heq => .leaf (hkept heq)⟩
    | bigint n =>
      have hn := outsideBignumRange_iff.1 (hrange n rfl)
      exact ⟨le_rfl, fun _ => .leaf (by rintro rfl; omega)⟩
    | undefined | null | bool | number | bytes => exact ⟨le_rfl, fun _ => .leaf trivial⟩
    | _ => cases hleaf
  | array h ih =>
    obtain ⟨hle, hkept⟩ := weighed_items ih
    exact ⟨hle, fun heq => .array (hkept heq.ge)⟩
  | @set members h ih =>
    obtain ⟨hle, hkept⟩ := weighed_items ih
    have hset := weight_newSet (itemsUnmarked members)
    exact ⟨hset.trans hle, fun heq => .set (hkept (heq.ge.trans hset))⟩
  | @map entries hkeys hvalues ihkeys ihvalues =>
    obtain ⟨hle, hkept⟩ := weighed_entries fun e he => ⟨ihkeys e he, ihvalues e he⟩
    have hmap := weight_newMap (entriesUnmarked entries)
    refine ⟨hmap.trans hle, fun heq => ?_⟩
    have hentries := hkept (heq.ge.trans hmap)
    exact .map (fun e he => (hentries e he).1) fun e he => (hentries e he).2
  | @object properties hkeys hvalues ih =>
    obtain ⟨hle, hkept⟩ := weighed_properties ih
    have hdefine := weight_defineProperties (propertiesUnmarked properties)
    refine ⟨hdefine.trans hle, fun heq => ?_⟩
    have hproperties := hkept (heq.ge.trans hdefine)
    exact .object (fun p hp => (hproperties p hp).1) fun p hp => (hproperties p hp).2

lemma writtenLeaf_of_kept {v : Value} (h : CborLeaf constraints v)
    (hkept : v.BuiltFrom KeptLeaf KeptKey) : WrittenLeaf constraints v := by
  refine ⟨h, ?_⟩
  rintro n rfl
  cases hkept with
  | leaf hn =>
    have hrange : (-(2 : ℤ) ^ 8192 ≤ n ∧ n ≤ 2 ^ 8192) ∧ n ≠ 2 ^ 8192 := ⟨h.1, hn⟩
    exact outsideBignumRange_iff.2 (by omega)

lemma builtFrom_of_kept {v : Value}
    (hv : v.BuiltFrom (CborLeaf constraints) (CborKey constraints)) :
    v.BuiltFrom KeptLeaf KeptKey → v.BuiltFrom (WrittenLeaf constraints) (CborKey constraints) := by
  induction hv with
  | leaf h => exact fun hkept => .leaf (writtenLeaf_of_kept h hkept)
  | array h ih =>
    intro hkept
    cases hkept with
    | leaf h => cases h
    | array hkept => exact .array fun v hv => ih v hv (hkept v hv)
  | set h ih =>
    intro hkept
    cases hkept with
    | leaf h => cases h
    | set hkept => exact .set fun v hv => ih v hv (hkept v hv)
  | map hkeys hvalues ihkeys ihvalues =>
    intro hkept
    cases hkept with
    | leaf h => cases h
    | map hkept hkept' =>
      exact .map (fun e he => ihkeys e he (hkept e he)) fun e he => ihvalues e he (hkept' e he)
  | object hkeys hvalues ih =>
    intro hkept
    cases hkept with
    | leaf h => cases h
    | object hkept hkept' => exact .object hkeys fun p hp => ih p hp (hkept' p hp)

lemma stripMark_of_kept {s : JsString} (h : s.head? ≠ some 0xFEFF) : stripMark s = s := by
  cases s with
  | nil => rfl
  | cons u s => rw [stripMark, if_neg fun hu => h (congrArg some hu)]

lemma itemsUnmarked_of_kept (h : ∀ v ∈ vs, unmarked v = v) : itemsUnmarked vs = vs := by
  induction vs with
  | nil => rfl
  | cons v vs ih =>
    rw [forall_mem_cons] at h
    rw [itemsUnmarked, h.1, ih h.2]

lemma entriesUnmarked_of_kept (h : ∀ e ∈ es, unmarked e.1 = e.1 ∧ unmarked e.2 = e.2) :
    entriesUnmarked es = es := by
  induction es with
  | nil => rfl
  | cons e es ih =>
    rw [forall_mem_cons] at h
    rw [entriesUnmarked, h.1.1, h.1.2, ih h.2]

lemma propertiesUnmarked_of_kept (h : ∀ p ∈ ps, KeptKey p.1 ∧ unmarked p.2 = p.2) :
    propertiesUnmarked ps = ps := by
  induction ps with
  | nil => rfl
  | cons p ps ih =>
    rw [forall_mem_cons] at h
    rw [propertiesUnmarked, stripMark_of_kept h.1.1, h.1.2, ih h.2]

lemma defineProperties_of_nodup (h : (ps.map Prod.fst).Nodup) : defineProperties ps = ps := by
  induction ps using reverseRecOn with
  | nil => rfl
  | append_singleton ps p ih =>
    rw [map_append, nodup_append] at h
    have hrest := ih h.1
    have hnew : p.1 ∉ ps.map Prod.fst := fun hmem => h.2.2 p.1 hmem p.1 (by simp) rfl
    unfold defineProperties at hrest ⊢
    rw [foldl_append, hrest, foldl_cons, foldl_nil, bind_of_notMem p.2 hnew]

lemma unmarked_of_kept {v : Value} (hkept : v.BuiltFrom KeptLeaf KeptKey) :
    v.WellFormed runtime → unmarked v = v := by
  induction hkept with
  | @leaf v h =>
    intro _
    cases v with
    | string s => rw [unmarked, stripMark_of_kept h]
    | undefined | null | bool | number | bytes | bigint => rfl
    | _ => cases h
  | array h ih =>
    intro hv
    rw [WellFormed, itemsWellFormed_iff] at hv
    rw [unmarked, itemsUnmarked_of_kept fun v hmem => ih v hmem (hv.2 v hmem)]
  | set h ih =>
    intro hv
    rw [WellFormed, itemsWellFormed_iff] at hv
    rw [unmarked, itemsUnmarked_of_kept fun v hmem => ih v hmem (hv.2.2 v hmem),
      newSet_of_distinct hv.2.1]
  | map hkeys hvalues ihkeys ihvalues =>
    intro hv
    rw [WellFormed, entriesWellFormed_iff] at hv
    rw [unmarked, entriesUnmarked_of_kept fun e hmem =>
      ⟨ihkeys e hmem (hv.2.2 e hmem).1, ihvalues e hmem (hv.2.2 e hmem).2⟩,
      newMap_of_distinct hv.2.1]
  | object hkeys hvalues ih =>
    intro hv
    rw [WellFormed, propertiesWellFormed_iff] at hv
    rw [unmarked, propertiesUnmarked_of_kept fun p hmem =>
      ⟨hkeys p hmem, ih p hmem (hv.2.2 p hmem).2⟩, defineProperties_of_nodup hv.2.1]

end Kept

/-! ### The round trip -/

inductive CborError where
  | encode (e : CborEncodeError)
  | decode (e : CborDecodeError)

/-- `new CborDecoder(constraints).decode(new CborEncoder().encode(v))`. -/
def roundTrip (runtime : Runtime) (constraints : ReadConstraints) (v : Value) :
    Except CborError Value :=
  match encode v with
  | .error e => .error (.encode e)
  | .ok data =>
    match decode runtime constraints data with
    | .error e => .error (.decode e)
    | .ok w => .ok w

section RoundTrip

variable {runtime : Runtime} {constraints : ReadConstraints}

lemma roundTrip_eq_unmarked {v : Value} (hwell : v.WellFormed runtime)
    (hv : v.BuiltFrom (WrittenLeaf constraints) (CborKey constraints))
    (hdepth : nesting v ≤ constraints.maxNestingDepth) :
    roundTrip runtime constraints v = .ok (unmarked v) := by
  have hmax := constraints.maxNestingDepth_le
  obtain ⟨data, hdata, hreads⟩ := written_of_builtFrom hv hwell 0
    (constraints.maxNestingDepth + 1) true (by omega) (by omega)
  have hread := hreads 0 []
  rw [append_nil] at hread
  have hdecode : decode runtime constraints data = .ok (unmarked v) := by
    rw [decode, hread]
    rfl
  rw [roundTrip, encode, hdata]
  simp only [hdecode]

/-- A value of the supported kind comes back as itself exactly where no text and no key
of it begins with a byte order mark and no integer is the one beyond the range. -/
theorem cbor_roundTrip_eq_iff (runtime : Runtime) (constraints : ReadConstraints)
    (v : JsValue runtime)
    (hv : v.1.BuiltFrom (CborLeaf constraints) (CborKey constraints))
    (hdepth : nesting v.1 ≤ constraints.maxNestingDepth) :
    roundTrip runtime constraints v.1 = .ok v.1 ↔ v.1.BuiltFrom KeptLeaf KeptKey := by
  constructor
  · intro h
    have hwritten : v.1.BuiltFrom (WrittenLeaf constraints) (CborKey constraints) := by
      cases hdata : encode v.1 with
      | error e =>
        rw [roundTrip, hdata] at h
        cases h
      | ok data => exact builtFrom_of_written hv hdata
    have hunmarked : unmarked v.1 = v.1 := by
      rw [roundTrip_eq_unmarked v.2 hwritten hdepth] at h
      exact Except.ok.inj h
    exact (weighed_of_builtFrom hwritten).2 (congrArg weight hunmarked)
  · intro hkept
    rw [roundTrip_eq_unmarked v.2 (builtFrom_of_kept hv hkept) hdepth, unmarked_of_kept hkept v.2]

/-- Collections in collections, with a mark that is at the front of no text. -/
def parcel : Value :=
  .object [("m", .map [(.null, .set [.bigint (-1), .bytes [0, 255]])]),
    ("__proto__", .string [0x61, 0xFEFF])]

lemma wellFormed_parcel : parcel.WellFormed bareRuntime := by
  have hkeys : "m".toJs ≠ "__proto__".toJs := by decide
  have hlengths : (Utf8.encode "m".toJs).length < 9007199254740992 ∧
      (Utf8.encode "__proto__".toJs).length < 9007199254740992 ∧
      (Utf8.encode [0x61, 0xFEFF]).length < 9007199254740992 := by decide
  have hzero : isNegativeZero .null = false ∧ isNegativeZero (.bigint (-1)) = false ∧
      isNegativeZero (.bytes [0, 255]) = false := ⟨rfl, rfl, rfl⟩
  have hdistinct : sameValueZero (.bytes [0, 255]) (.bigint (-1)) = false := rfl
  simp [parcel, WellFormed, PropertiesWellFormed, EntriesWellFormed,
    ItemsWellFormed, KeysDistinct, SafeLength, hkeys, hlengths, hzero, hdistinct]

theorem cbor_roundTrip_parcel : roundTrip bareRuntime {} parcel = .ok parcel := by
  refine (cbor_roundTrip_eq_iff bareRuntime {} ⟨parcel, wellFormed_parcel⟩ ?_ (by decide)).2 ?_
  · refine .object ?_ ?_
    · rw [forall_mem_cons, forall_mem_singleton]
      exact ⟨⟨by decide, by decide⟩, by decide, by decide⟩
    · rw [forall_mem_cons, forall_mem_singleton]
      refine ⟨.map ?_ ?_, .leaf ⟨by decide, by decide⟩⟩
      · rw [forall_mem_singleton]
        exact .leaf trivial
      · rw [forall_mem_singleton]
        refine .set ?_
        rw [forall_mem_cons, forall_mem_singleton]
        exact ⟨.leaf ⟨by omega, by decide⟩, .leaf (show Within {} [0, 255] by decide)⟩
  · refine .object ?_ ?_
    · rw [forall_mem_cons, forall_mem_singleton]
      exact ⟨show KeptKey "m" by decide, show KeptKey "__proto__" by decide⟩
    · rw [forall_mem_cons, forall_mem_singleton]
      refine ⟨.map ?_ ?_, .leaf (show KeptKey [0x61, 0xFEFF] by decide)⟩
      · rw [forall_mem_singleton]
        exact .leaf trivial
      · rw [forall_mem_singleton]
        refine .set ?_
        rw [forall_mem_cons, forall_mem_singleton]
        exact ⟨.leaf (by change (-1 : ℤ) ≠ 2 ^ 8192; omega), .leaf trivial⟩

/-- A text that begins with a byte order mark comes back without it. -/
theorem cbor_roundTrip_loses_mark : ∃ v : JsValue bareRuntime, v.1 = .string [0xFEFF, 0x61] ∧
      v.1.BuiltFrom (CborLeaf {}) (CborKey {}) ∧ nesting v.1 ≤ maxNestingDepth ∧
      roundTrip bareRuntime {} v.1 = .ok (.string [0x61]) ∧
      roundTrip bareRuntime {} v.1 ≠ .ok v.1 := by
  have hwell : (string [0xFEFF, 0x61]).WellFormed bareRuntime := by
    change SafeLength (Utf8.encode [0xFEFF, 0x61])
    decide
  have hleaf : CborLeaf {} (.string [0xFEFF, 0x61]) := ⟨by decide, by decide⟩
  have hresult : roundTrip bareRuntime {} (.string [0xFEFF, 0x61]) = .ok (.string [0x61]) :=
    roundTrip_eq_unmarked hwell (.leaf ⟨hleaf, nofun⟩) (by decide)
  refine ⟨⟨_, hwell⟩, rfl, .leaf hleaf, zero_le _, hresult, fun h => ?_⟩
  have heq := Except.ok.inj (hresult.symm.trans h)
  cases heq

end RoundTrip

end ActorTs.Serialization.Cbor
