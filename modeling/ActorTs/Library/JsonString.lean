import ActorTs.Library.JsString

/-!
# Strings in JSON text

`quote` writes a string as JSON text does: the control characters, the quotation mark and the
backslash are escaped, by a letter where there is one, and so is a surrogate that is not part of a
pair, which no text encoding could carry. The reader accepts every escape of the grammar, and reads
back what `quote` wrote.
-/

open Prod Option List

namespace JsonText

/-- A string together with the text behind it. -/
abbrev Scanned (α : Type*) := Option (α × JsString)

def isLead (u : UInt16) : Bool := decide (0xD800 ≤ u ∧ u < 0xDC00)

def isTrail (u : UInt16) : Bool := decide (0xDC00 ≤ u ∧ u < 0xE000)

/-- The letter that escapes a code unit, where the grammar has one. -/
def shortEscape? (u : UInt16) : Option UInt16 :=
  if u = 0x08 then some 0x62
  else if u = 0x09 then some 0x74
  else if u = 0x0A then some 0x6E
  else if u = 0x0C then some 0x66
  else if u = 0x0D then some 0x72
  else if u = 0x22 then some 0x22
  else if u = 0x5C then some 0x5C
  else none

/-- The code unit an escape letter stands for; a solidus may be escaped too. -/
def unescape? (c : UInt16) : Option UInt16 :=
  if c = 0x62 then some 0x08
  else if c = 0x74 then some 0x09
  else if c = 0x6E then some 0x0A
  else if c = 0x66 then some 0x0C
  else if c = 0x72 then some 0x0D
  else if c = 0x22 then some 0x22
  else if c = 0x5C then some 0x5C
  else if c = 0x2F then some 0x2F
  else none

/-- A hexadecimal digit, in lower case. -/
def hexDigit (n : ℕ) : UInt16 := UInt16.ofNat (if n < 10 then 0x30 + n else 0x57 + n)

def hexValue? (c : UInt16) : Option ℕ :=
  if 0x30 ≤ c ∧ c ≤ 0x39 then some (c.toNat - 0x30)
  else if 0x61 ≤ c ∧ c ≤ 0x66 then some (c.toNat - 0x57)
  else if 0x41 ≤ c ∧ c ≤ 0x46 then some (c.toNat - 0x37)
  else none

/-- The four hexadecimal digits of a code unit. -/
def hex4 (u : UInt16) : JsString :=
  [hexDigit (u.toNat / 4096), hexDigit (u.toNat / 256 % 16), hexDigit (u.toNat / 16 % 16),
    hexDigit (u.toNat % 16)]

def hex4Value? (a b c d : UInt16) : Option UInt16 := do
  let a ← hexValue? a
  let b ← hexValue? b
  let c ← hexValue? c
  let d ← hexValue? d
  return UInt16.ofNat (4096 * a + 256 * b + 16 * c + d)

/-- One code unit that is not part of a surrogate pair. -/
def quoteUnit (u : UInt16) : JsString :=
  match shortEscape? u with
  | some letter => [0x5C, letter]
  | none => if u < 0x20 ∨ isLead u ∨ isTrail u then 0x5C :: 0x75 :: hex4 u else [u]

def quoteUnits : JsString → JsString
  | [] => []
  | [u] => quoteUnit u
  | u :: v :: rest =>
    if isLead u ∧ isTrail v then u :: v :: quoteUnits rest
    else quoteUnit u ++ quoteUnits (v :: rest)

def quote (s : JsString) : JsString := 0x22 :: (quoteUnits s ++ [0x22])

/-- Read a string behind its opening quotation mark, up to the closing one. -/
def parseStringBody : JsString → Scanned JsString
  | [] => none
  | c :: rest =>
    if c = 0x22 then some ([], rest)
    else if c = 0x5C then
      match rest with
      | [] => none
      | e :: rest =>
        if e = 0x75 then
          match rest with
          | h₁ :: h₂ :: h₃ :: h₄ :: rest =>
            match hex4Value? h₁ h₂ h₃ h₄ with
            | none => none
            | some u => (parseStringBody rest).map (Prod.map (u :: ·) id)
          | _ => none
        else
          match unescape? e with
          | none => none
          | some u => (parseStringBody rest).map (Prod.map (u :: ·) id)
    else if c < 0x20 then none
    else (parseStringBody rest).map (Prod.map (c :: ·) id)

lemma hexValue?_hexDigit : ∀ n < 16, hexValue? (hexDigit n) = some n := by decide

lemma hex4Value?_hex4 (u : UInt16) :
    ∃ a b c d, hex4 u = [a, b, c, d] ∧ hex4Value? a b c d = some u := by
  have hlt := u.toNat_lt
  refine ⟨_, _, _, _, rfl, ?_⟩
  simp only [hex4Value?, hexValue?_hexDigit _ (show u.toNat / 4096 < 16 by omega),
    hexValue?_hexDigit _ (Nat.mod_lt _ (show 0 < 16 by omega)), Option.bind_eq_bind,
    Option.bind_some, Option.pure_def, Option.some.injEq]
  have hsum : 4096 * (u.toNat / 4096) + 256 * (u.toNat / 256 % 16) +
      16 * (u.toNat / 16 % 16) + u.toNat % 16 = u.toNat := by omega
  rw [hsum, UInt16.ofNat_toNat]

variable {u : UInt16}

lemma unescape?_shortEscape? {letter : UInt16} (h : shortEscape? u = some letter) :
    unescape? letter = some u ∧ letter ≠ 0x75 := by
  unfold shortEscape? at h
  repeat' split at h
  all_goals first
    | (obtain rfl := some.inj h; subst_vars; decide)
    | cases h

lemma shortEscape?_none (h : shortEscape? u = none) : u ≠ 0x22 ∧ u ≠ 0x5C := by
  constructor <;> rintro rfl <;> simp [shortEscape?] at h

lemma parseStringBody_close (rest : JsString) :
    parseStringBody (0x22 :: rest) = some ([], rest) := by
  rw [parseStringBody.eq_def]
  simp

lemma parseStringBody_letter {letter : UInt16} (hne : letter ≠ 0x75)
    (h : unescape? letter = some u) (rest : JsString) :
    parseStringBody (0x5C :: letter :: rest) = (parseStringBody rest).map (map (u :: ·) id) := by
  rw [parseStringBody.eq_def]
  simp [hne, h]

lemma parseStringBody_hex4 (u : UInt16) (rest : JsString) :
    parseStringBody (0x5C :: 0x75 :: (hex4 u ++ rest)) =
      (parseStringBody rest).map (map (u :: ·) id) := by
  obtain ⟨a, b, c, d, hhex, hvalue⟩ := hex4Value?_hex4 u
  rw [hhex, parseStringBody.eq_def]
  simp [hvalue]

lemma parseStringBody_plain (hquote : u ≠ 0x22) (hback : u ≠ 0x5C) (hcontrol : ¬ u < 0x20)
    (rest : JsString) :
    parseStringBody (u :: rest) = (parseStringBody rest).map (map (u :: ·) id) := by
  rw [parseStringBody.eq_def]
  simp [hquote, hback, hcontrol]

lemma parseStringBody_quoteUnit (u : UInt16) (rest : JsString) :
    parseStringBody (quoteUnit u ++ rest) = (parseStringBody rest).map (map (u :: ·) id) := by
  unfold quoteUnit
  cases hshort : shortEscape? u with
  | some letter =>
    obtain ⟨hun, hne⟩ := unescape?_shortEscape? hshort
    exact parseStringBody_letter hne hun rest
  | none =>
    obtain ⟨hquote, hback⟩ := shortEscape?_none hshort
    by_cases hescape : u < 0x20 ∨ isLead u ∨ isTrail u
    · simp only [hescape, if_true]
      exact parseStringBody_hex4 u rest
    · simp only [hescape, if_false, singleton_append]
      exact parseStringBody_plain hquote hback (fun h => hescape (.inl h)) rest

lemma surrogate_plain (h : isLead u = true ∨ isTrail u = true) :
    u ≠ 0x22 ∧ u ≠ 0x5C ∧ ¬ u < 0x20 := by
  have hle : (0xD800 : UInt16) ≤ u := by
    rcases h with h | h
    · exact (of_decide_eq_true h).1
    · exact le_trans (by decide) (of_decide_eq_true h).1
  refine ⟨?_, ?_, ?_⟩
  · rintro rfl
    exact absurd hle (by decide)
  · rintro rfl
    exact absurd hle (by decide)
  · exact fun hlt => absurd (lt_of_le_of_lt hle hlt) (by decide)

lemma parseStringBody_quoteUnits (s rest : JsString) :
    parseStringBody (quoteUnits s ++ 0x22 :: rest) = some (s, rest) := by
  induction s using quoteUnits.induct with
  | case1 => exact parseStringBody_close rest
  | case2 u => simp [quoteUnits, parseStringBody_quoteUnit, parseStringBody_close]
  | case3 u v tail hpair ih =>
    obtain ⟨hu, hu', hu''⟩ := surrogate_plain (.inl hpair.1)
    obtain ⟨hv, hv', hv''⟩ := surrogate_plain (.inr hpair.2)
    rw [quoteUnits, if_pos hpair, cons_append, cons_append,
      parseStringBody_plain hu hu' hu'', parseStringBody_plain hv hv' hv'', ih]
    rfl
  | case4 u v tail hpair ih =>
    rw [quoteUnits, if_neg hpair, append_assoc, parseStringBody_quoteUnit, ih]
    rfl

lemma quote_append_inj {s t a b : JsString} (h : quote s ++ a = quote t ++ b) :
    s = t ∧ a = b := by
  have hunits : quoteUnits s ++ 0x22 :: a = quoteUnits t ++ 0x22 :: b := by
    simpa [quote] using h
  have hs := parseStringBody_quoteUnits s a
  rw [hunits, parseStringBody_quoteUnits, some.injEq, mk.injEq] at hs
  exact ⟨hs.1.symm, hs.2.symm⟩

lemma quote_injective : Function.Injective quote := by
  intro s t h
  exact (quote_append_inj (congrArg (· ++ []) h)).1

end JsonText
