import ActorTs.Library.JsonBytes

/-!
# The form encoding of queries

`serialize` writes names and values the way a list of search parameters is written: letters,
digits and `*-._` stand for themselves, a space is a plus sign, and every other byte of the
UTF-8 encoding is percent-encoded. What it writes is printable.
-/

open List

namespace FormUrlEncoded

def hexDigit (n : ℕ) : UInt16 := UInt16.ofNat (if n < 10 then 0x30 + n else 0x37 + n)

/-- The bytes that stand for themselves. -/
def isPlain (b : ℕ) : Bool :=
  0x30 ≤ b ∧ b ≤ 0x39 ∨ 0x41 ≤ b ∧ b ≤ 0x5A ∨ 0x61 ≤ b ∧ b ≤ 0x7A ∨
    b = 0x2A ∨ b = 0x2D ∨ b = 0x2E ∨ b = 0x5F

def encodeByte (b : ℕ) : JsString :=
  if b = 0x20 then [0x2B]
  else if isPlain b then [UInt16.ofNat b]
  else [0x25, hexDigit (b / 16), hexDigit (b % 16)]

def encode (text : JsString) : JsString :=
  (Utf8.encode text).flatMap fun b => encodeByte b.toNat

def encodePair (pair : JsString × JsString) : JsString :=
  encode pair.1 ++ "=" ++ encode pair.2

def serialize : List (JsString × JsString) → JsString
  | [] => []
  | [pair] => encodePair pair
  | pair :: pairs => encodePair pair ++ "&" ++ serialize pairs

/-- A printable character of one byte. -/
def Printable (u : UInt16) : Prop := 0x20 < u ∧ u < 0x7F

instance : DecidablePred Printable := fun u => inferInstanceAs (Decidable (0x20 < u ∧ u < 0x7F))

lemma printable_hexDigit : ∀ n < 16, Printable (hexDigit n) := by decide

lemma printable_ofNat {b : ℕ} (hlow : 0x20 < b) (hhigh : b < 0x7F) :
    Printable (UInt16.ofNat b) := by
  have hb : (UInt16.ofNat b).toNat = b := by
    rw [UInt16.toNat_ofNat', Nat.mod_eq_of_lt (by omega)]
  refine ⟨UInt16.lt_iff_toNat_lt.2 ?_, UInt16.lt_iff_toNat_lt.2 ?_⟩
  · rw [hb]
    exact hlow
  · rw [hb]
    exact hhigh

lemma printable_encodeByte {b : ℕ} (hb : b < 0x100) : ∀ u ∈ encodeByte b, Printable u := by
  intro u hu
  unfold encodeByte at hu
  split at hu
  · obtain rfl := mem_singleton.1 hu
    decide
  · split at hu
    · next hplain =>
      obtain rfl := mem_singleton.1 hu
      rw [isPlain, decide_eq_true_iff] at hplain
      exact printable_ofNat (by omega) (by omega)
    · simp only [mem_cons, not_mem_nil, or_false] at hu
      rcases hu with rfl | rfl | rfl
      · decide
      · exact printable_hexDigit _ (by omega)
      · exact printable_hexDigit _ (by omega)

lemma printable_encode (text : JsString) : ∀ u ∈ encode text, Printable u := by
  intro u hu
  obtain ⟨b, -, hu⟩ := mem_flatMap.1 hu
  exact printable_encodeByte b.toNat_lt u hu

lemma printable_encodePair (pair : JsString × JsString) :
    ∀ u ∈ encodePair pair, Printable u := by
  intro u hu
  rcases mem_append.1 hu with hu | hu
  · rcases mem_append.1 hu with hu | hu
    · exact printable_encode pair.1 u hu
    · obtain rfl := mem_singleton.1 hu
      decide
  · exact printable_encode pair.2 u hu

lemma printable_serialize (pairs : List (JsString × JsString)) :
    ∀ u ∈ serialize pairs, Printable u := by
  induction pairs with
  | nil => nofun
  | cons pair pairs ih =>
    intro u hu
    cases pairs with
    | nil => exact printable_encodePair pair u hu
    | cons next pairs =>
      rcases mem_append.1 hu with hu | hu
      · rcases mem_append.1 hu with hu | hu
        · exact printable_encodePair pair u hu
        · obtain rfl := mem_singleton.1 hu
          decide
      · exact ih u hu

end FormUrlEncoded
