import Mathlib.Data.Nat.Digits.Lemmas
import ActorTs.Library.JsNumber
import ActorTs.Library.JsonString

/-!
# Numbers in JSON text

`numberText` prints a number in the shortest digits that round back to it, with a point or an
exponent where its size asks for one. The reader takes any number of the grammar, as a sequence of
digits and a power of ten, and rounds once. It reads back what was printed, provided the text behind
cannot continue a number.
-/

open List Option Nat

namespace JsonText

def isDigit (u : UInt16) : Bool := decide (0x30 ≤ u ∧ u ≤ 0x39)

def digitUnit (d : ℕ) : UInt16 := UInt16.ofNat (0x30 + d)

def digitsValue (ds : JsString) : ℕ := ds.foldl (fun n d => 10 * n + (d.toNat - 0x30)) 0

def decimal (n : ℕ) : JsString :=
  if n = 0 then [0x30] else ((Nat.digits 10 n).map digitUnit).reverse

def zeros (n : ℕ) : JsString := List.replicate n 0x30

section Digits

lemma isDigit_digitUnit : ∀ d < 10, isDigit (digitUnit d) = true := by decide

lemma toNat_digitUnit : ∀ d < 10, (digitUnit d).toNat - 0x30 = d := by decide

lemma digitsValue_append (a b : JsString) :
    digitsValue (a ++ b) = digitsValue a * 10 ^ b.length + digitsValue b := by
  induction b using reverseRecOn with
  | nil => simp [digitsValue]
  | append_singleton b d ih =>
    have hsnoc : ∀ l : JsString, digitsValue (l ++ [d]) =
        10 * digitsValue l + (d.toNat - 0x30) := by simp [digitsValue]
    rw [← append_assoc, hsnoc, ih, hsnoc, length_append, length_singleton, pow_succ]
    ring

lemma digitsValue_zeros (n : ℕ) : digitsValue (zeros n) = 0 := by
  induction n with
  | zero => rfl
  | succ n ih =>
    have hsplit : zeros (n + 1) = [0x30] ++ zeros n := rfl
    rw [hsplit, digitsValue_append, ih]
    simp [digitsValue]

lemma digitsValue_reverse_map {l : List ℕ} (h : ∀ d ∈ l, d < 10) :
    digitsValue (l.map digitUnit).reverse = ofDigits 10 l := by
  induction l with
  | nil => rfl
  | cons d l ih =>
    rw [map_cons, reverse_cons, digitsValue_append, ih fun e he => h e (by simp [he]),
      ofDigits_cons]
    simp [digitsValue, toNat_digitUnit d (h d (by simp))]
    ring

lemma digits_lt_ten {n d : ℕ} (h : d ∈ digits 10 n) : d < 10 :=
  digits_lt_base (by norm_num) h

lemma digitsValue_decimal (n : ℕ) : digitsValue (decimal n) = n := by
  unfold decimal
  split
  · rename_i h
    rw [h]
    rfl
  · rw [digitsValue_reverse_map fun _ => digits_lt_ten, ofDigits_digits]

lemma isDigit_of_mem_decimal {n : ℕ} {u : UInt16} (h : u ∈ decimal n) : isDigit u = true := by
  unfold decimal at h
  split at h
  · rw [mem_singleton.1 h]
    decide
  · obtain ⟨d, hd, rfl⟩ := mem_map.1 (mem_reverse.1 h)
    exact isDigit_digitUnit d (digits_lt_ten hd)

lemma isDigit_of_mem_zeros {n : ℕ} {u : UInt16} (h : u ∈ zeros n) : isDigit u = true := by
  rw [eq_of_mem_replicate h]
  decide

lemma decimal_ne_nil (n : ℕ) : decimal n ≠ [] := by
  unfold decimal
  split
  · exact cons_ne_nil _ _
  · rename_i h
    simpa [reverse_eq_nil_iff, digits_eq_nil_iff_eq_zero] using h

lemma decimal_eq_cons {n : ℕ} (h : 0 < n) :
    ∃ d ds, decimal n = d :: ds ∧ d ≠ 0x30 := by
  have hne : digits 10 n ≠ [] := digits_ne_nil_iff_ne_zero.2 h.ne'
  have hlast := getLast_digit_ne_zero 10 h.ne'
  obtain ⟨l, hl⟩ : ∃ l, digits 10 n = l ++ [(digits 10 n).getLast hne] :=
    ⟨_, (dropLast_append_getLast hne).symm⟩
  refine ⟨digitUnit ((digits 10 n).getLast hne), (l.map digitUnit).reverse, ?_, ?_⟩
  · rw [decimal, if_neg h.ne']
    conv_lhs => rw [hl]
    simp
  · have hlt := digits_lt_ten (getLast_mem hne)
    have hunit : ∀ d < 10, d ≠ 0 → digitUnit d ≠ 0x30 := by decide
    exact hunit _ hlt hlast

end Digits

def signUnit (n : ℤ) : UInt16 := if n < 0 then 0x2D else 0x2B

/-- A positive decimal `s * 10 ^ e`, with a point or an exponent by its size. -/
def formatDecimal (s : ℕ) (e : ℤ) : JsString :=
  let digits := decimal s
  let k : ℤ := digits.length
  let n := k + e
  if k ≤ n ∧ n ≤ 21 then digits ++ zeros (n - k).toNat
  else if 0 < n ∧ n ≤ 21 then digits.take n.toNat ++ 0x2E :: digits.drop n.toNat
  else if -6 < n ∧ n ≤ 0 then 0x30 :: 0x2E :: (zeros (-n).toNat ++ digits)
  else
    let mantissa := if k = 1 then digits else digits.take 1 ++ 0x2E :: digits.drop 1
    mantissa ++ 0x65 :: signUnit (n - 1) :: decimal (n - 1).natAbs

/-- JSON text has no minus sign for a zero and no word for a number that is not
finite. -/
def numberText : JsNumber → JsString
  | .finite x =>
    if x.significand = 0 then [0x30]
    else (if x.negative then [0x2D] else []) ++
      formatDecimal x.shortestDecimal.1 x.shortestDecimal.2
  | _ => "null"

/-- The integer part: no zero in front of other digits. -/
def parseInteger (text : JsString) : Scanned JsString :=
  match text.takeWhile isDigit with
  | [] => none
  | [d] => some ([d], text.dropWhile isDigit)
  | d :: ds => if d = 0x30 then none else some (d :: ds, text.dropWhile isDigit)

/-- One digit or more. -/
def parseDigits (text : JsString) : Scanned JsString :=
  match text.takeWhile isDigit with
  | [] => none
  | d :: ds => some (d :: ds, text.dropWhile isDigit)

def parseFraction : JsString → Scanned JsString
  | [] => some ([], [])
  | c :: rest => if c = 0x2E then parseDigits rest else some ([], c :: rest)

def parseExponent : JsString → Scanned ℤ
  | [] => some (0, [])
  | c :: rest =>
    if c = 0x65 ∨ c = 0x45 then
      match rest with
      | [] => none
      | sign :: rest' =>
        if sign = 0x2D then (parseDigits rest').map (Prod.map (fun ds => -digitsValue ds) id)
        else if sign = 0x2B then
          (parseDigits rest').map (Prod.map (fun ds => (digitsValue ds : ℤ)) id)
        else (parseDigits rest).map (Prod.map (fun ds => (digitsValue ds : ℤ)) id)
    else some (0, c :: rest)

def parseUnsigned (negative : Bool) (text : JsString) : Option (JsNumber × JsString) := do
  let (int, text) ← parseInteger text
  let (fraction, text) ← parseFraction text
  let (exponent, text) ← parseExponent text
  return (.ofDecimal negative (digitsValue (int ++ fraction)) (exponent - fraction.length), text)

def parseNumber : JsString → Scanned JsNumber
  | [] => none
  | c :: rest => if c = 0x2D then parseUnsigned true rest else parseUnsigned false (c :: rest)

/-- The text cannot continue a number. -/
def EndsNumber (text : JsString) : Prop :=
  ∀ c ∈ text.head?, isDigit c = false ∧ c ≠ 0x2E ∧ c ≠ 0x65 ∧ c ≠ 0x45

section Scan

variable {ds rest : JsString}

lemma EndsNumber.noDigit (h : EndsNumber rest) : ∀ c ∈ rest.head?, isDigit c = false :=
  fun c hc => (h c hc).1

lemma takeWhile_isDigit (hds : ∀ d ∈ ds, isDigit d = true)
    (hrest : ∀ c ∈ rest.head?, isDigit c = false) :
    (ds ++ rest).takeWhile isDigit = ds ∧ (ds ++ rest).dropWhile isDigit = rest := by
  rw [takeWhile_append_of_pos hds, dropWhile_append_of_pos hds]
  cases rest with
  | nil => simp
  | cons c rest =>
    have hc := hrest c rfl
    simp [hc]

lemma decimal_append_inj {n m : ℕ} {a b : JsString} (ha : ∀ c ∈ a.head?, isDigit c = false)
    (hb : ∀ c ∈ b.head?, isDigit c = false) (h : decimal n ++ a = decimal m ++ b) :
    n = m ∧ a = b := by
  obtain ⟨htake, hdrop⟩ := takeWhile_isDigit (fun _ => isDigit_of_mem_decimal (n := n)) ha
  obtain ⟨htake', hdrop'⟩ := takeWhile_isDigit (fun _ => isDigit_of_mem_decimal (n := m)) hb
  rw [h] at htake hdrop
  refine ⟨?_, hdrop.symm.trans hdrop'⟩
  rw [← digitsValue_decimal n, htake.symm.trans htake', digitsValue_decimal]

lemma parseInteger_decimal {d : UInt16} (hd : d ≠ 0x30)
    (hds : ∀ c ∈ d :: ds, isDigit c = true) (hrest : ∀ c ∈ rest.head?, isDigit c = false) :
    parseInteger (d :: ds ++ rest) = some (d :: ds, rest) := by
  obtain ⟨htake, hdrop⟩ := takeWhile_isDigit hds hrest
  rw [parseInteger, htake, hdrop]
  cases ds with
  | nil => rfl
  | cons c ds => exact if_neg hd

lemma parseInteger_zero (hrest : ∀ c ∈ rest.head?, isDigit c = false) :
    parseInteger (0x30 :: rest) = some ([0x30], rest) := by
  have hzero : ∀ d ∈ ([0x30] : JsString), isDigit d = true := forall_mem_singleton.2 rfl
  obtain ⟨htake, hdrop⟩ := takeWhile_isDigit hzero hrest
  rw [singleton_append] at htake hdrop
  rw [parseInteger, htake, hdrop]

lemma parseDigits_append (hne : ds ≠ []) (hds : ∀ d ∈ ds, isDigit d = true)
    (hrest : ∀ c ∈ rest.head?, isDigit c = false) :
    parseDigits (ds ++ rest) = some (ds, rest) := by
  obtain ⟨htake, hdrop⟩ := takeWhile_isDigit hds hrest
  rw [parseDigits, htake, hdrop]
  cases ds with
  | nil => exact absurd rfl hne
  | cons d ds => rfl

lemma parseFraction_point (hne : ds ≠ []) (hds : ∀ d ∈ ds, isDigit d = true)
    (hrest : ∀ c ∈ rest.head?, isDigit c = false) :
    parseFraction (0x2E :: (ds ++ rest)) = some (ds, rest) := by
  rw [parseFraction, if_pos rfl, parseDigits_append hne hds hrest]

lemma parseFraction_none (hrest : ∀ c ∈ rest.head?, c ≠ 0x2E) :
    parseFraction rest = some ([], rest) := by
  cases rest with
  | nil => rfl
  | cons c rest => rw [parseFraction, if_neg (hrest c rfl)]

lemma parseExponent_none (hrest : EndsNumber rest) : parseExponent rest = some (0, rest) := by
  cases rest with
  | nil => rfl
  | cons c rest =>
    obtain ⟨-, -, he, hE⟩ := hrest c rfl
    rw [parseExponent.eq_def]
    simp [he, hE]

lemma parseExponent_decimal (n : ℤ) (hrest : EndsNumber rest) :
    parseExponent (0x65 :: signUnit n :: (decimal n.natAbs ++ rest)) = some (n, rest) := by
  have hdigits := parseDigits_append (decimal_ne_nil n.natAbs)
    (fun d => isDigit_of_mem_decimal) hrest.noDigit
  have hvalue : digitsValue (decimal n.natAbs) = n.natAbs := digitsValue_decimal _
  by_cases hn : n < 0
  · have hneg : -((n.natAbs : ℕ) : ℤ) = n := by omega
    simp only [parseExponent, signUnit, hn, if_true, true_or, hdigits, map_some, Prod.map, hvalue,
      hneg, id_eq]
  · have hpos : ((n.natAbs : ℕ) : ℤ) = n := by omega
    have hsign : ¬ (0x2B : UInt16) = 0x2D := by decide
    simp only [parseExponent, signUnit, hn, hsign, if_true, if_false, true_or, hdigits, map_some,
      Prod.map, hvalue, hpos, id_eq]

end Scan

lemma parseUnsigned_of_parts {negative : Bool} {text int t₁ fraction t₂ rest : JsString}
    {exponent : ℤ} (hint : parseInteger text = some (int, t₁))
    (hfraction : parseFraction t₁ = some (fraction, t₂))
    (hexponent : parseExponent t₂ = some (exponent, rest)) {s : ℕ} {e : ℤ}
    (hvalue : (digitsValue (int ++ fraction) : ℚ) * 10 ^ (exponent - fraction.length) =
      s * 10 ^ e) :
    parseUnsigned negative text = some (.ofDecimal negative s e, rest) := by
  simp only [parseUnsigned, hint, hfraction, hexponent, Option.bind_eq_bind, Option.bind_some,
    Option.pure_def, JsNumber.ofDecimal, hvalue]

section Format

variable (negative : Bool) {d : UInt16} {ds rest : JsString}

lemma noDigit_cons {c : UInt16} {text : JsString} (h : isDigit c = false) :
    ∀ c' ∈ (c :: text).head?, isDigit c' = false := by
  rintro c' ⟨⟩
  exact h

lemma parseUnsigned_whole (hd : d ≠ 0x30) (hds : ∀ c ∈ d :: ds, isDigit c = true) (n : ℕ)
    (hrest : EndsNumber rest) :
    parseUnsigned negative (d :: ds ++ zeros n ++ rest) =
      some (.ofDecimal negative (digitsValue (d :: ds)) n, rest) := by
  have hall : ∀ c ∈ d :: (ds ++ zeros n), isDigit c = true := by
    intro c hc
    rw [← cons_append, mem_append] at hc
    rcases hc with hc | hc
    · exact hds c hc
    · exact isDigit_of_mem_zeros hc
  refine parseUnsigned_of_parts (parseInteger_decimal hd hall hrest.noDigit)
    (parseFraction_none fun c hc => (hrest c hc).2.1) (parseExponent_none hrest) ?_
  rw [append_nil, ← cons_append, digitsValue_append, digitsValue_zeros, zeros, length_replicate]
  simp

lemma parseUnsigned_point (hd : d ≠ 0x30) (hds : ∀ c ∈ d :: ds, isDigit c = true)
    {n : ℕ} (hpos : 0 < n) (hlt : n < (d :: ds).length) (hrest : EndsNumber rest) :
    parseUnsigned negative ((d :: ds).take n ++ 0x2E :: (d :: ds).drop n ++ rest) =
      some (.ofDecimal negative (digitsValue (d :: ds)) (n - (d :: ds).length), rest) := by
  obtain ⟨m, rfl⟩ : ∃ m, n = m + 1 := ⟨n - 1, by omega⟩
  have hne : (d :: ds).drop (m + 1) ≠ [] := by
    rw [ne_eq, drop_eq_nil_iff]
    omega
  have hint : parseInteger ((d :: ds).take (m + 1) ++
      (0x2E :: ((d :: ds).drop (m + 1) ++ rest))) = some ((d :: ds).take (m + 1), _) :=
    parseInteger_decimal hd (fun c hc => hds c (mem_of_mem_take (i := m + 1) hc))
      (noDigit_cons (by decide))
  have hfraction : parseFraction (0x2E :: ((d :: ds).drop (m + 1) ++ rest)) =
      some ((d :: ds).drop (m + 1), rest) :=
    parseFraction_point hne (fun c hc => hds c (mem_of_mem_drop hc)) hrest.noDigit
  rw [append_assoc, cons_append]
  refine parseUnsigned_of_parts hint hfraction (parseExponent_none hrest) ?_
  rw [take_append_drop, length_drop, cast_sub (by omega)]
  congr 2
  omega

lemma parseUnsigned_fraction (hds : ∀ c ∈ d :: ds, isDigit c = true) (n : ℕ)
    (hrest : EndsNumber rest) :
    parseUnsigned negative (0x30 :: 0x2E :: (zeros n ++ (d :: ds)) ++ rest) =
      some (.ofDecimal negative (digitsValue (d :: ds)) (-(n + (d :: ds).length : ℕ)), rest) := by
  have hall : ∀ c ∈ zeros n ++ (d :: ds), isDigit c = true := by
    intro c hc
    rcases mem_append.1 hc with hc | hc
    · exact isDigit_of_mem_zeros hc
    · exact hds c hc
  have hint : parseInteger (0x30 :: 0x2E :: (zeros n ++ (d :: ds) ++ rest)) =
      some ([0x30], _) := parseInteger_zero (noDigit_cons (by decide))
  have hfraction : parseFraction (0x2E :: (zeros n ++ (d :: ds) ++ rest)) =
      some (zeros n ++ (d :: ds), rest) :=
    parseFraction_point (by simp) hall hrest.noDigit
  refine parseUnsigned_of_parts hint hfraction (parseExponent_none hrest) ?_
  have hzero : digitsValue [0x30] = 0 := rfl
  rw [digitsValue_append, hzero, digitsValue_append, digitsValue_zeros, zeros, length_append,
    length_replicate]
  simp

lemma parseUnsigned_exponent_one (hd : d ≠ 0x30) (hds : isDigit d = true) (n : ℤ)
    (hrest : EndsNumber rest) :
    parseUnsigned negative ([d] ++ 0x65 :: signUnit n :: decimal n.natAbs ++ rest) =
      some (.ofDecimal negative (digitsValue [d]) n, rest) := by
  have hint : parseInteger ([d] ++ (0x65 :: signUnit n ::
      (decimal n.natAbs ++ rest))) = some ([d], _) :=
    parseInteger_decimal hd (by simpa using hds) (noDigit_cons (by decide))
  refine parseUnsigned_of_parts hint (parseFraction_none ?_) (parseExponent_decimal n hrest) ?_
  · rintro c ⟨⟩
    decide
  · simp

lemma parseUnsigned_exponent_more (hd : d ≠ 0x30) (hds : ∀ c ∈ d :: ds, isDigit c = true)
    (hne : ds ≠ []) (n : ℤ) (hrest : EndsNumber rest) :
    parseUnsigned negative ([d] ++ 0x2E :: ds ++ 0x65 :: signUnit n :: decimal n.natAbs ++ rest) =
      some (.ofDecimal negative (digitsValue (d :: ds)) (n - ds.length), rest) := by
  have hint : parseInteger ([d] ++ (0x2E :: (ds ++ (0x65 :: signUnit n ::
      (decimal n.natAbs ++ rest))))) = some ([d], _) :=
    parseInteger_decimal hd (by simpa using hds d (by simp)) (noDigit_cons (by decide))
  have hfraction : parseFraction (0x2E :: (ds ++ (0x65 :: signUnit n ::
      (decimal n.natAbs ++ rest)))) = some (ds, _) :=
    parseFraction_point hne (fun c hc => hds c (by simp [hc])) (noDigit_cons (by decide))
  simp only [append_assoc, cons_append] at hint ⊢
  exact parseUnsigned_of_parts hint hfraction (parseExponent_decimal n hrest) rfl

end Format

lemma parseUnsigned_formatDecimal (negative : Bool) {s : ℕ} (hs : 0 < s) (e : ℤ)
    {rest : JsString} (hrest : EndsNumber rest) :
    parseUnsigned negative (formatDecimal s e ++ rest) = some (.ofDecimal negative s e, rest) := by
  obtain ⟨d, ds, hcons, hd⟩ := decimal_eq_cons hs
  have hds : ∀ c ∈ d :: ds, isDigit c = true := fun c hc =>
    isDigit_of_mem_decimal (hcons ▸ hc)
  have hvalue : digitsValue (d :: ds) = s := hcons ▸ digitsValue_decimal s
  have hlen : ((d :: ds).length : ℤ) = ds.length + 1 := by simp
  simp only [formatDecimal, hcons]
  by_cases hwhole : ((d :: ds).length : ℤ) ≤ (d :: ds).length + e ∧ (d :: ds).length + e ≤ 21
  · have hn : ((((d :: ds).length : ℤ) + e - (d :: ds).length).toNat : ℤ) = e := by omega
    rw [if_pos hwhole, parseUnsigned_whole negative hd hds _ hrest, hvalue, hn]
  rw [if_neg hwhole]
  by_cases hpoint : 0 < ((d :: ds).length : ℤ) + e ∧ (d :: ds).length + e ≤ 21
  · have hn : ((((d :: ds).length : ℤ) + e).toNat : ℤ) - (d :: ds).length = e := by omega
    rw [if_pos hpoint, parseUnsigned_point negative hd hds (by omega) (by omega) hrest, hvalue, hn]
  rw [if_neg hpoint]
  by_cases hfraction : -6 < ((d :: ds).length : ℤ) + e ∧ (d :: ds).length + e ≤ 0
  · have hn : -(((-(((d :: ds).length : ℤ) + e)).toNat + (d :: ds).length : ℕ) : ℤ) = e := by
      omega
    rw [if_pos hfraction, parseUnsigned_fraction negative hds _ hrest, hvalue, hn]
  rw [if_neg hfraction]
  cases ds with
  | nil =>
    have hn : (([d] : JsString).length : ℤ) + e - 1 = e := by simp
    rw [hn, if_pos (by simp), parseUnsigned_exponent_one negative hd (hds d (by simp)) e hrest, hvalue]
  | cons d' ds =>
    have hparse := parseUnsigned_exponent_more negative hd hds (by simp)
      (((d :: d' :: ds).length : ℤ) + e - 1) hrest
    have hn : ((d :: d' :: ds).length : ℤ) + e - 1 - (d' :: ds).length = e := by omega
    rw [hvalue, hn] at hparse
    exact hparse

lemma parseNumber_of_parseUnsigned {text : JsString} {r : JsNumber × JsString}
    (h : parseUnsigned false text = some r) : parseNumber text = some r := by
  cases text with
  | nil => exact h
  | cons c text =>
    rw [parseNumber, if_neg, h]
    rintro rfl
    have hnone : parseInteger (0x2D :: text) = none := by
      have htake : (0x2D :: text).takeWhile isDigit = [] :=
        takeWhile_cons_of_neg (by decide)
      rw [parseInteger, htake]
    simp [parseUnsigned, hnone] at h

lemma parseNumber_numberText (x : FiniteDouble) {rest : JsString} (hrest : EndsNumber rest) :
    parseNumber (numberText (.finite x) ++ rest) =
      some (.finite (if x.significand = 0 then .zero false else x), rest) := by
  rw [numberText]
  by_cases hzero : x.significand = 0
  · rw [if_pos hzero, if_pos hzero, ← JsNumber.ofDecimal_zero false 0]
    refine parseNumber_of_parseUnsigned (parseUnsigned_of_parts (parseInteger_zero hrest.noDigit)
      (parseFraction_none fun c hc => (hrest c hc).2.1) (parseExponent_none hrest) ?_)
    simp [digitsValue]
  · obtain ⟨hpos, hround⟩ := FiniteDouble.roundsBack_shortestDecimal hzero
    have hparse := parseUnsigned_formatDecimal x.negative hpos x.shortestDecimal.2 hrest
    rw [if_neg hzero, if_neg hzero, ← hround]
    cases hneg : x.negative with
    | true =>
      rw [hneg] at hparse
      exact hparse
    | false =>
      rw [hneg] at hparse
      exact parseNumber_of_parseUnsigned hparse

end JsonText
