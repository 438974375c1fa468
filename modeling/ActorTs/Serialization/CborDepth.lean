import ActorTs.Serialization.CborRoundTrip

/-!
# How deep and how far the CBOR reader goes

`readAt` follows the reader through a number of levels and leaves what is nested deeper
to a reader that is left open. A run that is the same for every such reader does not
come to it, so what `Stays` says of the bytes that were written is that the writer has
charged every level that the reader spends on them.

An item takes a byte at least, so the loops over a count end with the input.
-/

open List Nat

namespace ActorTs.Serialization.Cbor

open Reader Outcome Value Skips

section Levels

variable (runtime : Runtime) (constraints : ReadConstraints)

/-- The item at a depth, read through so many levels. The entries behind the tag of a
map are read at the depth of the tag. -/
def readAt (deeper : CborReader Value) : ℕ → ℕ → CborReader Value
  | 0, _ => deeper
  | levels + 1, depth =>
    if constraints.maxNestingDepth < depth then tooDeep constraints
    else readItem runtime constraints depth (readAt deeper levels (depth + 1))

/-- The item at a depth, where what is nested deeper than a writer goes is left open. -/
def readBelow (depth : ℕ) (deeper : CborReader Value) : CborReader Value :=
  readAt runtime constraints deeper (maxNestingDepth + 1 - depth) depth

variable {α : Type}

/-- What `step` reads of the bytes, which are no fewer than `least`, is nested no deeper
than a writer goes. -/
def Stays (step : CborReader Value → CborReader α) (depth least : ℕ) (data : Bytes) : Prop :=
  least ≤ data.length ∧ (Value.SafeLength data →
    Skips (fun deeper => step (readBelow runtime constraints depth deeper)) data)

end Levels

variable {runtime : Runtime} {constraints : ReadConstraints} {α : Type} {depth n : ℕ}
  {data data' : Bytes} {step : CborReader Value → CborReader α}

lemma readAt_eq {deeper : CborReader Value} {levels : ℕ}
    (hdepth : constraints.maxNestingDepth + 1 ≤ depth + levels)
    (hdeeper : deeper = tooDeep constraints ∨
      depth ≤ constraints.maxNestingDepth + 1 ∧
        constraints.maxNestingDepth + 1 < depth + levels) :
    readAt runtime constraints deeper levels depth =
      readValue runtime constraints (constraints.maxNestingDepth + 1 - depth) := by
  induction levels generalizing depth with
  | zero =>
    have hsub : constraints.maxNestingDepth + 1 - depth = 0 := Nat.sub_eq_zero_of_le hdepth
    rw [hsub, readAt, readValue]
    exact hdeeper.resolve_right fun h => by omega
  | succ levels ih =>
    rw [readAt]
    split
    · next h => rw [Nat.sub_eq_zero_of_le h, readValue]
    · next h =>
      rw [ih (by omega) (hdeeper.imp_right fun h => by omega), Nat.add_sub_add_right,
        Nat.succ_sub (by omega), readValue, Nat.sub_sub_self (by omega)]

lemma readBelow_eq (hdepth : depth ≤ maxNestingDepth) (deeper : CborReader Value) :
    readBelow runtime constraints depth deeper =
      if constraints.maxNestingDepth < depth then tooDeep constraints
      else readItem runtime constraints depth
        (readBelow runtime constraints (depth + 1) deeper) := by
  rw [readBelow, Nat.succ_sub hdepth, readAt, readBelow, Nat.add_sub_add_right]

lemma writeHeader_length_pos (major len : ℕ) : 0 < (writeHeader major len).length := by
  unfold writeHeader
  split_ifs <;> simp

lemma writeNumber_length_pos (x : JsNumber) : 0 < (writeNumber x).length := by
  unfold writeNumber writeInt
  split_ifs
  · simp [writeDouble]
  · split
    · split_ifs
      · exact writeHeader_length_pos _ _
      · exact writeHeader_length_pos _ _
    · simp [writeDouble]

lemma safeLength_of_append (h : SafeLength (data ++ data')) :
    SafeLength data ∧ SafeLength data' := by
  rw [SafeLength, length_append] at h
  exact ⟨by rw [SafeLength]; omega, by rw [SafeLength]; omega⟩

namespace Stays

lemma of_reads {v : Value} (hdepth : depth ≤ maxNestingDepth) (hdata : 0 < data.length)
    (h : ∀ read, Reads (readItem runtime constraints depth read) data v) :
    Stays runtime constraints id depth 1 data := by
  refine ⟨hdata, fun _ => ?_⟩
  simp only [id, readBelow_eq hdepth]
  split
  · exact failAt _
  · exact Skips.of_reads fun deeper => h _

/-- An item stays where what is behind its header does. -/
lemma item {major len : ℕ} (hdepth : depth ≤ maxNestingDepth) (hmajor : major < 7)
    (hlen : SafeLength data → len ≤ maxSafeInteger)
    (h : SafeLength data → Skips (fun deeper => readBody runtime constraints depth
      (readBelow runtime constraints (depth + 1) deeper) major len) data) :
    Stays runtime constraints id depth 1 (writeHeader major len ++ data) := by
  have hpos := writeHeader_length_pos major len
  refine ⟨by rw [length_append]; omega, fun hsafe => ?_⟩
  have hdata := (safeLength_of_append hsafe).2
  simp only [id, readBelow_eq hdepth]
  split
  · exact failAt _
  · obtain ⟨add, tail, heq, hadd, hlength⟩ :=
      writeHeader_eq major (lt_of_le_maxSafeInteger (hlen hdata))
    rw [heq, append_assoc]
    refine (reads_readByte (by omega)).bind_skips ?_
    have hdiv : (major * 32 + add) / 32 = major := by omega
    have hmod : (major * 32 + add) % 32 = add := by omega
    simp only [hdiv, hmod, if_neg (show major ≠ 7 by omega)]
    exact hlength.bind_skips (h hdata)

lemma skips_readBytes (data : Bytes) :
    Skips (fun _ : CborReader Value => readBytes constraints data.length) data := by
  have hrequire : Skips (fun _ : CborReader Value =>
      requireStringLength constraints data.length) [] := by
    unfold requireStringLength
    split
    · exact failAt _
    · exact Skips.of_reads fun _ => Reads.pure ()
  exact hrequire.bind fun _ => Skips.of_reads fun _ => Reads.take data _

lemma string (hdepth : depth ≤ maxNestingDepth) (s : JsString) :
    Stays runtime constraints id depth 1 (writeString s) := by
  refine item hdepth (by norm_num) le_pred_of_lt fun hsafe => ?_
  simp only [readBody, toNumber_of_le (le_pred_of_lt hsafe)]
  exact (skips_readBytes _).map _

lemma bytes (hdepth : depth ≤ maxNestingDepth) (data : Bytes) :
    Stays runtime constraints id depth 1 (writeBytes data) := by
  refine item hdepth (by norm_num) le_pred_of_lt fun hsafe => ?_
  simp only [readBody, toNumber_of_le (le_pred_of_lt hsafe)]
  exact (skips_readBytes _).map _

lemma text (hdepth : depth ≤ maxNestingDepth) (t : ErrorText) :
    Stays runtime constraints id depth 1 (writeText t) := by
  cases t <;> exact string hdepth _

lemma nil : Stays runtime constraints (fun read => many (step read) 0) depth 0 [] :=
  ⟨le_rfl, fun _ => many_zero⟩

lemma cons (h : Stays runtime constraints step depth 1 data)
    (hrest : Stays runtime constraints (fun read => many (step read) n) depth n data') :
    Stays runtime constraints (fun read => many (step read) (n + 1)) depth (n + 1)
      (data ++ data') := by
  refine ⟨?_, fun hsafe => ?_⟩
  · rw [length_append, add_comm n]
    exact Nat.add_le_add h.1 hrest.1
  · have hsafes := safeLength_of_append hsafe
    exact (h.2 hsafes.1).many_succ (hrest.2 hsafes.2)

lemma pair (hkey : Stays runtime constraints id depth 1 data)
    (hvalue : Stays runtime constraints id depth 1 data') :
    Stays runtime constraints readPair depth 1 (data ++ data') := by
  refine ⟨hkey.1.trans (by simp), fun hsafe => ?_⟩
  have hsafes := safeLength_of_append hsafe
  exact (hkey.2 hsafes.1).bind fun key => (hvalue.2 hsafes.2).seq (key, ·)

lemma property (hkey : Stays runtime constraints id depth 1 data)
    (hvalue : Stays runtime constraints id depth 1 data') :
    Stays runtime constraints readProperty depth 1 (data ++ data') := by
  refine ⟨hkey.1.trans (by simp), fun hsafe => ?_⟩
  have hsafes := safeLength_of_append hsafe
  rw [← append_nil data']
  refine (hkey.2 hsafes.1).bind fun key => (hvalue.2 hsafes.2).bind fun value => ?_
  cases key with
  | string key => exact Skips.of_reads fun _ => Reads.pure (key, value)
  | _ => exact lift _

section

variable (hdepth : depth ≤ maxNestingDepth)
include hdepth

lemma array (h : Stays runtime constraints (fun read => many (id read) n) (depth + 1) n data) :
    Stays runtime constraints id depth 1 (writeHeader 4 n ++ data) := by
  have hlen (hsafe : SafeLength data) : n ≤ maxSafeInteger :=
    h.1.trans (le_pred_of_lt hsafe)
  refine item hdepth (by norm_num) hlen fun hsafe => ?_
  simp only [readBody, toNumber_of_le (hlen hsafe)]
  exact (h.2 hsafe).map Value.array

lemma object
    (h : Stays runtime constraints (fun read => many (readProperty read) n) (depth + 1) n data) :
    Stays runtime constraints id depth 1 (writeHeader 5 n ++ data) := by
  have hlen (hsafe : SafeLength data) : n ≤ maxSafeInteger :=
    h.1.trans (le_pred_of_lt hsafe)
  refine item hdepth (by norm_num) hlen fun hsafe => ?_
  simp only [readBody, toNumber_of_le (hlen hsafe)]
  exact (h.2 hsafe).map fun properties => Value.object (defineProperties properties)

lemma tagged {tag : ℕ} (htag : tag ≤ maxSafeInteger) (hmap : tag ≠ Tag.map)
    (h : Stays runtime constraints id (depth + 1) 1 data) :
    Stays runtime constraints id depth 1 (writeTag tag ++ data) := by
  refine item hdepth (by norm_num) (fun _ => htag) fun hsafe => ?_
  simp only [readBody, toNumber_of_le htag, readTagged, if_neg hmap]
  rw [← append_nil data]
  refine (h.2 hsafe).bind fun inner => ?_
  split
  · exact lift _
  · exact lift _

lemma map
    (h : Stays runtime constraints (fun read => many (readPair read) n) (depth + 1) n data) :
    Stays runtime constraints id depth 1 (writeMapHeader n ++ data) := by
  rw [writeMapHeader, append_assoc]
  refine item hdepth (by norm_num) (fun _ => by decide) fun hsafe => ?_
  have hdata := (safeLength_of_append hsafe).2
  have hlen : n ≤ maxSafeInteger := h.1.trans (le_pred_of_lt hdata)
  simp only [readBody, toNumber_of_le (show Tag.map ≤ maxSafeInteger by decide), readTagged,
    if_pos, readEntryPairs]
  refine seq _ ?_
  split
  · exact failAt _
  · obtain ⟨add, tail, heq, hadd, hlength⟩ := writeHeader_eq 5 (lt_of_le_maxSafeInteger hlen)
    rw [heq, append_assoc]
    refine (reads_readByte (by omega)).bind_skips ?_
    have hdiv : (5 * 32 + add) / 32 = 5 := by omega
    have hmod : (5 * 32 + add) % 32 = add := by omega
    simp only [hdiv, hmod, ne_eq, not_true_eq_false, if_false]
    refine hlength.bind_skips ?_
    simp only [toNumber_of_le hlen]
    exact h.2 hdata

end

/-- A generic object takes a level for its tag and one for its array. -/
lemma generic (hdepth : depth + 2 ≤ maxNestingDepth) (name : JsString)
    (h : Stays runtime constraints (fun read => many (id read) n) (depth + 2) n data) :
    Stays runtime constraints id depth 1 (writeGeneric (n + 1) name ++ data) := by
  rw [writeGeneric, append_assoc, append_assoc]
  refine tagged (by omega) (by decide) (by decide) (array (by omega) ?_)
  exact (string hdepth name).cons h

lemma set (hdepth : depth + 1 ≤ maxNestingDepth)
    (h : Stays runtime constraints (fun read => many (id read) n) (depth + 2) n data) :
    Stays runtime constraints id depth 1 (writeTag Tag.set ++ writeHeader 4 n ++ data) := by
  rw [append_assoc]
  exact tagged (by omega) (by decide) (by decide) (array hdepth h)

lemma one (h : Stays runtime constraints id depth 1 data) :
    Stays runtime constraints (fun read => many (id read) 1) depth 1 data := by
  have hcons := h.cons nil
  rwa [append_nil] at hcons

end Stays

/-- The fields of an error, so many of them. -/
abbrev StaysFields (runtime : Runtime) (constraints : ReadConstraints) (depth n : ℕ)
    (data : Bytes) : Prop :=
  Stays runtime constraints (fun read => many (readProperty read) n) depth n data

lemma le_of_writeValue {v : Value} {allowToJson : Bool}
    (h : writeValue depth allowToJson v = .ok data) : depth ≤ maxNestingDepth := by
  by_contra hlt
  rw [writeValue.eq_def, if_pos (by omega)] at h
  cases h

lemma of_requireDepth {β : Type} {f : Unit → Except CborEncodeError β} {b : β}
    (h : (requireDepth depth >>= f) = .ok b) : depth ≤ maxNestingDepth ∧ f () = .ok b := by
  obtain ⟨⟨⟩, hdepth, h⟩ := bind_eq_ok h
  refine ⟨?_, h⟩
  by_contra hlt
  rw [requireDepth, if_pos (by omega)] at hdepth
  cases hdepth

mutual

theorem stays_writeValue : ∀ (v : Value) {depth : ℕ} {allowToJson : Bool} {data : Bytes},
    writeValue depth allowToJson v = .ok data → Stays runtime constraints id depth 1 data
  | v, depth, allowToJson, data, h => by
    have hdepth := le_of_writeValue h
    rw [writeValue.eq_def, if_neg hdepth.not_gt] at h
    cases v with
    | null =>
      cases h
      exact .of_reads hdepth (by simp [writeSimple]) fun _ =>
        reads_simple 22 (by norm_num) (Reads.pure _)
    | undefined =>
      cases h
      exact .of_reads hdepth (by simp [writeSimple]) fun _ =>
        reads_simple 23 (by norm_num) (Reads.pure _)
    | bool b =>
      cases h
      refine .of_reads (v := .bool b) hdepth (by simp [writeSimple]) fun _ => ?_
      cases b with
      | false => exact reads_simple 20 (by norm_num) (Reads.pure _)
      | true => exact reads_simple 21 (by norm_num) (Reads.pure _)
    | number x =>
      cases h
      exact .of_reads hdepth (writeNumber_length_pos x) fun _ => reads_number x
    | bigint n =>
      obtain ⟨hlevel, h⟩ := of_requireDepth h
      rw [writeBigInt] at h
      split at h
      · cases h
      · cases h
        exact .tagged hdepth (by split <;> decide) (by split <;> decide) (.bytes hlevel _)
    | string s =>
      cases h
      exact .string hdepth s
    | bytes data =>
      cases h
      exact .bytes hdepth data
    | date time =>
      obtain ⟨hlevel, h⟩ := of_requireDepth h
      cases h
      refine .tagged hdepth (by decide) (by decide) ?_
      exact .of_reads hlevel (by simp [writeDouble]) fun _ => reads_double _
    | bidirectionalMap entries =>
      obtain ⟨hlevel, h⟩ := of_requireDepth h
      obtain ⟨body, hbody, h⟩ := bind_eq_ok h
      cases h
      rw [append_assoc]
      exact .generic hlevel _ (Stays.map hlevel (stays_writeEntries entries hbody)).one
    | bidirectionalMultiMap rows =>
      obtain ⟨hlevel, h⟩ := of_requireDepth h
      obtain ⟨body, hbody, h⟩ := bind_eq_ok h
      cases h
      rw [append_assoc]
      exact .generic hlevel _ (Stays.map hlevel (stays_writeRows rows hbody)).one
    | map entries =>
      obtain ⟨body, hbody, h⟩ := bind_eq_ok h
      cases h
      exact .map hdepth (stays_writeEntries entries hbody)
    | set members =>
      obtain ⟨hlevel, h⟩ := of_requireDepth h
      obtain ⟨body, hbody, h⟩ := bind_eq_ok h
      cases h
      exact .set hlevel (stays_writeItems members hbody)
    | binary kind data =>
      obtain ⟨hlevel, h⟩ := of_requireDepth h
      cases h
      exact .generic hlevel _ (Stays.bytes hlevel data).one
    | regExp source flags =>
      obtain ⟨hlevel, h⟩ := of_requireDepth h
      cases h
      rw [append_assoc]
      exact .generic hlevel _ ((Stays.string hlevel source).cons (Stays.string hlevel flags).one)
    | url href =>
      obtain ⟨hlevel, h⟩ := of_requireDepth h
      cases h
      exact .tagged hdepth (by decide) (by decide) (.string hlevel href)
    | error name message cause errors =>
      obtain ⟨hlevel, h⟩ := of_requireDepth h
      obtain ⟨causeBytes, hcause, h⟩ := bind_eq_ok h
      obtain ⟨errorsBytes, herrors, h⟩ := bind_eq_ok h
      cases h
      have hfield (key : JsString) {body : Bytes}
          (hbody : Stays runtime constraints id (depth + 3) 1 body) :
          Stays runtime constraints readProperty (depth + 3) 1 (writeString key ++ body) :=
        (Stays.string hlevel key).property hbody
      have hlast : StaysFields runtime constraints (depth + 3)
          (if isArray errors then 1 else 0) errorsBytes := by
        split at herrors
        · next harray =>
          obtain ⟨body, hbody, rfl⟩ := map_eq_ok herrors
          rw [if_pos harray, ← append_nil (writeString _ ++ body)]
          exact (hfield _ (stays_writeValue errors hbody)).cons .nil
        · next harray =>
          cases herrors
          rw [if_neg harray]
          exact .nil
      have htail : StaysFields runtime constraints (depth + 3)
          ((if isArray errors then 1 else 0) + if isUndefined cause then 0 else 1)
          (causeBytes ++ errorsBytes) := by
        split at hcause
        · next hundefined =>
          cases hcause
          rw [if_pos hundefined]
          exact hlast
        · next hundefined =>
          obtain ⟨body, hbody, rfl⟩ := map_eq_ok hcause
          rw [if_neg hundefined]
          exact (hfield _ (stays_writeValue cause hbody)).cons hlast
      have hfields := (hfield "name" (.text hlevel name)).cons
        ((hfield "message" (.text hlevel message)).cons htail)
      have hlevel' : depth + 2 ≤ maxNestingDepth := by omega
      have hcount : ∀ a b : ℕ, a + b + 1 + 1 = 2 + b + a := by omega
      rw [hcount] at hfields
      have hpayload := Stays.generic hlevel' "Error" (Stays.object hlevel' hfields).one
      simpa only [append_assoc] using hpayload
    | boxed primitive =>
      exact stays_writeValue primitive h
    | array items =>
      obtain ⟨body, hbody, h⟩ := bind_eq_ok h
      cases h
      exact .array hdepth (stays_writeItems items hbody)
    | withToJson resolved properties =>
      cases allowToJson with
      | true => exact stays_writeValue resolved h
      | false =>
        obtain ⟨body, hbody, h⟩ := bind_eq_ok h
        cases h
        exact .object hdepth (stays_writeProperties properties hbody)
    | object properties =>
      obtain ⟨body, hbody, h⟩ := bind_eq_ok h
      cases h
      exact .object hdepth (stays_writeProperties properties hbody)
    | _ =>
      cases h

theorem stays_writeItems : ∀ (vs : List Value) {depth : ℕ} {data : Bytes},
    writeItems depth vs = .ok data →
    Stays runtime constraints (fun read => many (id read) vs.length) depth vs.length data
  | [], _, _, h => by
    cases h
    exact .nil
  | v :: vs, _, _, h => by
    rw [writeItems] at h
    obtain ⟨item, hitem, h⟩ := bind_eq_ok h
    obtain ⟨rest, hrest, h⟩ := bind_eq_ok h
    cases h
    exact (stays_writeValue v hitem).cons (stays_writeItems vs hrest)

theorem stays_writeEntries : ∀ (es : List (Value × Value)) {depth : ℕ} {data : Bytes},
    writeEntries depth es = .ok data →
    Stays runtime constraints (fun read => many (readPair read) es.length) depth es.length data
  | [], _, _, h => by
    cases h
    exact .nil
  | (k, v) :: es, _, _, h => by
    rw [writeEntries] at h
    obtain ⟨key, hkey, h⟩ := bind_eq_ok h
    obtain ⟨value, hvalue, h⟩ := bind_eq_ok h
    obtain ⟨rest, hrest, h⟩ := bind_eq_ok h
    cases h
    exact ((stays_writeValue k hkey).pair (stays_writeValue v hvalue)).cons
      (stays_writeEntries es hrest)

theorem stays_writeRows : ∀ (rows : List (Value × List Value)) {depth : ℕ} {data : Bytes},
    writeRows depth rows = .ok data →
    Stays runtime constraints (fun read => many (readPair read) rows.length) depth rows.length data
  | [], _, _, h => by
    cases h
    exact .nil
  | (left, partners) :: rows, _, _, h => by
    rw [writeRows] at h
    obtain ⟨key, hkey, h⟩ := bind_eq_ok h
    obtain ⟨-, h⟩ := of_requireDepth h
    obtain ⟨hlevel, h⟩ := of_requireDepth h
    obtain ⟨members, hmembers, h⟩ := bind_eq_ok h
    obtain ⟨rest, hrest, h⟩ := bind_eq_ok h
    cases h
    exact ((stays_writeValue left hkey).pair (.set hlevel (stays_writeItems partners hmembers))).cons
      (stays_writeRows rows hrest)

theorem stays_writeProperties : ∀ (ps : List (JsString × Value)) {depth : ℕ} {data : Bytes},
    writeProperties depth ps = .ok data →
    Stays runtime constraints (fun read => many (readProperty read) ps.length) depth ps.length data
  | [], _, _, h => by
    cases h
    exact .nil
  | (key, v) :: ps, _, _, h => by
    rw [writeProperties] at h
    obtain ⟨value, hvalue, h⟩ := bind_eq_ok h
    obtain ⟨rest, hrest, h⟩ := bind_eq_ok h
    cases h
    exact ((Stays.string (le_of_writeValue hvalue) key).property (stays_writeValue v hvalue)).cons
      (stays_writeProperties ps hrest)

end

/-- The reader of what was written comes to no depth beyond the ceiling of the writer: its run is
the same whatever stands there. -/
theorem readAt_of_encode {value : Value} (h : encode value = .ok data)
    (hsafe : SafeLength data) (deeper : CborReader Value) :
    readAt runtime constraints deeper (maxNestingDepth + 1) 0 ⟨0, data⟩ =
      readValue runtime constraints (constraints.maxNestingDepth + 1) ⟨0, data⟩ := by
  have hstays : Stays runtime constraints id 0 1 data := stays_writeValue value h
  have hskips := hstays.2 hsafe 0 []
  rw [append_nil] at hskips
  have hmax := constraints.maxNestingDepth_le
  have hvalue : readAt runtime constraints (tooDeep constraints) (maxNestingDepth + 1) 0 =
      readValue runtime constraints (constraints.maxNestingDepth + 1) :=
    readAt_eq (by omega) (.inl rfl)
  rw [← hvalue]
  rcases hskips with ⟨e, he⟩ | ⟨a, ha⟩
  · exact (he deeper).trans (he _).symm
  · exact (ha deeper).trans (ha _).symm

theorem readAt_of_encode_set : encode (.set []) = .ok [217, 1, 2, 128] ∧
    readAt bareRuntime {} (tooDeep {}) (maxNestingDepth + 1) 0 ⟨0, [217, 1, 2, 128]⟩ =
      readValue bareRuntime {} 257 ⟨0, [217, 1, 2, 128]⟩ :=
  have h : encode (.set []) = .ok [217, 1, 2, 128] := rfl
  ⟨h, readAt_of_encode h (by decide) _⟩

lemma consumes_readByte : Consumes 1 readByte := (Consumes.take 1 _).bind fun _ => .pure _

lemma consumes_readUint (byteLen : ℕ) : Consumes 0 (readUint byteLen) :=
  ((Consumes.take byteLen _).bind fun _ => .pure _).mono (zero_le _)

lemma consumes_readLength (add : ℕ) : Consumes 0 (readLength add) := by
  unfold readLength
  split_ifs
  · exact .pure add
  · exact consumes_readUint 1
  · exact consumes_readUint 2
  · exact consumes_readUint 4
  · exact consumes_readUint 8
  · exact .lift _

lemma consumes_readBytes (count : ℕ) : Consumes 0 (readBytes constraints count) := by
  have hrequire : Consumes 0 (requireStringLength constraints count) := by
    unfold requireStringLength
    split
    · exact .failAt _
    · exact .pure ()
  exact (hrequire.bind fun _ => .take count _).mono (zero_le _)

lemma consumes_readSimple (add : ℕ) : Consumes 0 (readSimple add) := by
  have htake (k : ℕ) {β : Type} (error : ℕ → CborDecodeError) (f : Bytes → β) :
      Consumes 0 (Reader.take k error >>= fun data => Pure.pure (f data)) :=
    ((Consumes.take k error).bind fun data => .pure (f data)).mono (zero_le _)
  unfold readSimple
  split_ifs
  · exact .pure _
  · exact .pure _
  · exact .pure _
  · exact .pure _
  · exact (htake 2 _ _).map _
  · exact htake 4 _ _
  · exact htake 8 _ _
  · exact .lift _

section Loops

variable {read : CborReader Value}

lemma consumes_readPair (h : Consumes 1 read) : Consumes 1 (readPair read) :=
  (h.bind fun key => h.bind fun value => .pure (key, value)).mono (by norm_num)

lemma consumes_readProperty (h : Consumes 1 read) : Consumes 1 (readProperty read) := by
  refine (h.bind fun key => h.andThen fun value => ?_).mono (by norm_num)
  cases key with
  | string key => exact .pure (key, value)
  | _ => exact .lift _

lemma consumes_readEntryPairs (h : Consumes 1 read) :
    Consumes 0 (readEntryPairs constraints depth read) := by
  unfold readEntryPairs
  split
  · exact .failAt _
  · refine (consumes_readByte.andThen fun ib => ?_).mono (zero_le _)
    split
    · exact .failAt _
    · exact (consumes_readLength _).bind fun len => (consumes_readPair h).many _

lemma consumes_readBody (h : Consumes 1 read) (major len : ℕ) :
    Consumes 0 (readBody runtime constraints depth read major len) := by
  unfold readBody
  split
  · exact .pure _
  · exact .pure _
  · exact (consumes_readBytes _).map _
  · exact (consumes_readBytes _).map _
  · exact (h.many _).map _
  · exact ((consumes_readProperty h).many _).map _
  · unfold readTagged
    split
    · exact (consumes_readEntryPairs h).bind fun pairs => .pure _
    · refine (h.andThen fun inner => ?_).mono (zero_le _)
      split
      · exact .lift _
      · exact .lift _
  · exact .lift _

end Loops

/-- An item takes its first byte at least. -/
lemma consumes_readValue (levels : ℕ) : Consumes 1 (readValue runtime constraints levels) := by
  induction levels with
  | zero =>
    rw [readValue]
    exact .failAt _
  | succ levels ih =>
    refine consumes_readByte.andThen fun ib => ?_
    split
    · exact consumes_readSimple _
    · exact (consumes_readLength _).bind fun len => consumes_readBody ih _ len

/-- The decoder returns a value behind the last byte or fails. A loop over more items than there are
bytes fails as one over a single item too many does, and nothing is read two levels below the
ceiling. -/
theorem decode_total (data : Bytes) :
    ((∃ v, decode runtime constraints data = .ok v ∧
        readValue runtime constraints (constraints.maxNestingDepth + 1) ⟨0, data⟩ =
          .ok (v, ⟨data.length, []⟩)) ∨
      ∃ e, decode runtime constraints data = .error e) ∧
    (∀ levels, Consumes 1 (readValue runtime constraints levels)) ∧
    (∀ levels (c : Cursor), ∃ e e' e'', ∀ count, c.rest.length < count →
      let read := readValue runtime constraints levels
      many read count c = .error e ∧ many (readPair read) count c = .error e' ∧
        many (readProperty read) count c = .error e'') ∧
    ∀ deeper, readAt runtime constraints deeper (constraints.maxNestingDepth + 2) 0 =
      readValue runtime constraints (constraints.maxNestingDepth + 1) := by
  refine ⟨?_, consumes_readValue, fun levels c => ?_, fun deeper => ?_⟩
  · cases hdecode : decode runtime constraints data with
    | error e => exact .inr ⟨e, rfl⟩
    | ok v =>
      refine .inl ⟨v, rfl, ?_⟩
      obtain ⟨⟨value, c⟩, hvalue, h⟩ := bind_eq_ok hdecode
      obtain ⟨used, -, hrest, hpos⟩ := consumes_readValue _ hvalue
      change (if c.rest ≠ [] then _ else _) = _ at h
      split at h
      · cases h
      · next hnil =>
        cases h
        have hnil' : c.rest = [] := not_not.1 hnil
        have hused : data = used := by simpa only [hnil', append_nil] using hrest
        have hcursor : c = ⟨data.length, []⟩ := by
          rw [hused, ← hnil', ← zero_add used.length, ← hpos]
        rw [hvalue, hcursor]
  · have hread : Consumes 1 (readValue runtime constraints levels) := consumes_readValue levels
    obtain ⟨e, he⟩ := hread.exists_many_eq_error c
    obtain ⟨e', he'⟩ := (consumes_readPair hread).exists_many_eq_error c
    obtain ⟨e'', he''⟩ := (consumes_readProperty hread).exists_many_eq_error c
    exact ⟨e, e', e'', fun count hcount => ⟨he count hcount, he' count hcount, he'' count hcount⟩⟩
  · exact readAt_eq (by omega) (.inr ⟨by omega, by omega⟩)

end ActorTs.Serialization.Cbor
