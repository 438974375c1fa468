import ActorTs.Library.Utf8

/-!
# Base64

`Base64.encode` writes three bytes as four characters and pads the last group.
`Base64.decode` is the lenient reader: it stops at the padding, passes over
characters that are none of the alphabet, and takes either alphabet for the last
two digits.
-/

open List

namespace Base64

/-- The character of six bits. -/
def character (n : ℕ) : UInt16 :=
  if n < 26 then UInt16.ofNat (0x41 + n)
  else if n < 52 then UInt16.ofNat (0x61 + (n - 26))
  else if n < 62 then UInt16.ofNat (0x30 + (n - 52))
  else if n = 62 then 0x2B else 0x2F

def padding : UInt16 := 0x3D

def sextet? (c : UInt16) : Option ℕ :=
  if 0x41 ≤ c ∧ c ≤ 0x5A then some (c.toNat - 0x41)
  else if 0x61 ≤ c ∧ c ≤ 0x7A then some (c.toNat - 0x61 + 26)
  else if 0x30 ≤ c ∧ c ≤ 0x39 then some (c.toNat - 0x30 + 52)
  else if c = 0x2B ∨ c = 0x2D then some 62
  else if c = 0x2F ∨ c = 0x5F then some 63
  else none

/-- The six bit digits of some bytes. -/
def sextets : Bytes → List ℕ
  | [] => []
  | [a] => [a.toNat / 4, a.toNat % 4 * 16]
  | [a, b] => [a.toNat / 4, a.toNat % 4 * 16 + b.toNat / 16, b.toNat % 16 * 4]
  | a :: b :: c :: rest =>
    a.toNat / 4 :: (a.toNat % 4 * 16 + b.toNat / 16) :: (b.toNat % 16 * 4 + c.toNat / 64) ::
      c.toNat % 64 :: sextets rest

/-- The bytes of six bit digits. A digit that is left alone says nothing. -/
def ofSextets : List ℕ → Bytes
  | [] => []
  | [_] => []
  | [s, t] => [UInt8.ofNat (s * 4 + t / 16)]
  | [s, t, u] => [UInt8.ofNat (s * 4 + t / 16), UInt8.ofNat (t % 16 * 16 + u / 4)]
  | s :: t :: u :: v :: rest =>
    UInt8.ofNat (s * 4 + t / 16) :: UInt8.ofNat (t % 16 * 16 + u / 4) ::
      UInt8.ofNat (u % 4 * 64 + v) :: ofSextets rest

def encode (bytes : Bytes) : JsString :=
  (sextets bytes).map character ++ List.replicate ((3 - bytes.length % 3) % 3) padding

def decode (text : JsString) : Bytes :=
  ofSextets ((text.takeWhile (· ≠ padding)).filterMap sextet?)

lemma sextet?_character : ∀ n < 64, sextet? (character n) = some n := by decide

lemma character_ne_padding : ∀ n < 64, character n ≠ padding := by decide

lemma sextets_lt {bytes : Bytes} : ∀ n ∈ sextets bytes, n < 64 := by
  induction bytes using sextets.induct with
  | case1 => simp [sextets]
  | case2 a =>
    have ha := a.toNat_lt
    simp only [sextets, mem_cons, not_mem_nil, or_false, forall_eq_or_imp, forall_eq]
    omega
  | case3 a b =>
    have ha := a.toNat_lt
    have hb := b.toNat_lt
    simp only [sextets, mem_cons, not_mem_nil, or_false, forall_eq_or_imp, forall_eq]
    omega
  | case4 a b c rest ih =>
    have ha := a.toNat_lt
    have hb := b.toNat_lt
    have hc := c.toNat_lt
    simp only [sextets, mem_cons, forall_eq_or_imp]
    exact ⟨by omega, by omega, by omega, by omega, ih⟩

lemma ofSextets_sextets (bytes : Bytes) : ofSextets (sextets bytes) = bytes := by
  have hbyte : ∀ {n : ℕ} {a : UInt8}, n = a.toNat → UInt8.ofNat n = a := by
    rintro n a rfl
    exact UInt8.ofNat_toNat
  induction bytes using sextets.induct with
  | case1 => rfl
  | case2 a =>
    rw [sextets, ofSextets, hbyte (a := a) (by omega)]
  | case3 a b =>
    have hb := b.toNat_lt
    rw [sextets, ofSextets, hbyte (a := a) (by omega), hbyte (a := b) (by omega)]
  | case4 a b c rest ih =>
    have hb := b.toNat_lt
    have hc := c.toNat_lt
    rw [sextets, ofSextets, hbyte (a := a) (by omega), hbyte (a := b) (by omega),
      hbyte (a := c) (by omega), ih]

lemma filterMap_takeWhile_characters {ns : List ℕ} (h : ∀ n ∈ ns, n < 64) (k : ℕ) :
    ((ns.map character ++ List.replicate k padding).takeWhile (· ≠ padding)).filterMap sextet? =
      ns := by
  induction ns with
  | nil => cases k <;> simp [replicate_succ]
  | cons n ns ih =>
    have hn := h n mem_cons_self
    rw [map_cons, cons_append, takeWhile_cons_of_pos (by simp [character_ne_padding n hn]),
      filterMap_cons_some (sextet?_character n hn),
      ih fun m hm => h m (mem_cons_of_mem _ hm)]

lemma decode_encode (bytes : Bytes) : decode (encode bytes) = bytes := by
  rw [decode, encode, filterMap_takeWhile_characters sextets_lt, ofSextets_sextets]

example : encode [0x66, 0x6F] = "Zm8=" := by decide

end Base64
