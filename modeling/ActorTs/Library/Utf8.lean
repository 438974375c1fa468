import ActorTs.Library.JsonString

/-!
# Text as UTF-8

`Utf8.encode` writes a string as bytes, with a replacement character for every surrogate that stands
alone. `Utf8.decode` never fails: it writes a replacement character where it meets no continuation
in range. A string of paired surrogates reads back as itself, less a byte order mark in front.
-/

abbrev Bytes := List UInt8

open List

namespace Utf8

open JsonText UInt16

/-- The character that stands for what cannot be read or written. -/
def replacement : ℕ := 0xFFFD

def byteOrderMark : ℕ := 0xFEFF

/-- The code point of a pair of surrogates. -/
def pairValue (lead trail : UInt16) : ℕ :=
  0x10000 + (lead.toNat - 0xD800) * 0x400 + (trail.toNat - 0xDC00)

/-- The scalar values of a string, surrogates that stand alone replaced. -/
def scalars : JsString → List ℕ
  | [] => []
  | [u] => [if isLead u || isTrail u then replacement else u.toNat]
  | u :: v :: rest =>
    if isLead u then
      if isTrail v then pairValue u v :: scalars rest
      else replacement :: scalars (v :: rest)
    else if isTrail u then replacement :: scalars (v :: rest)
    else u.toNat :: scalars (v :: rest)

/-- The code units of a scalar value. -/
def units (n : ℕ) : JsString :=
  if n < 0x10000 then [UInt16.ofNat n]
  else [UInt16.ofNat (0xD800 + (n - 0x10000) / 0x400), UInt16.ofNat (0xDC00 + (n - 0x10000) % 0x400)]

/-- The bytes of a scalar value. -/
def scalarBytes (n : ℕ) : Bytes :=
  if n < 0x80 then [UInt8.ofNat n]
  else if n < 0x800 then [UInt8.ofNat (0xC0 + n / 0x40), UInt8.ofNat (0x80 + n % 0x40)]
  else if n < 0x10000 then
    [UInt8.ofNat (0xE0 + n / 0x1000), UInt8.ofNat (0x80 + n / 0x40 % 0x40),
      UInt8.ofNat (0x80 + n % 0x40)]
  else
    [UInt8.ofNat (0xF0 + n / 0x40000), UInt8.ofNat (0x80 + n / 0x1000 % 0x40),
      UInt8.ofNat (0x80 + n / 0x40 % 0x40), UInt8.ofNat (0x80 + n % 0x40)]

def encode (text : JsString) : Bytes := (scalars text).flatMap scalarBytes

/-- What the decoder expects: so many more continuation bytes, the next of them
between `lower` and `upper`. -/
structure Pending where
  codePoint : ℕ
  needed : ℕ
  lower : ℕ := 0x80
  upper : ℕ := 0xBF

/-- The decoder at the first byte of a character: what it writes and what it then
expects. -/
def start (b : ℕ) : List ℕ × Option Pending :=
  if b < 0x80 then ([b], none)
  else if 0xC2 ≤ b ∧ b ≤ 0xDF then ([], some { codePoint := b % 0x20, needed := 1 })
  else if 0xE0 ≤ b ∧ b ≤ 0xEF then
    ([], some { codePoint := b % 0x10, needed := 2, lower := if b = 0xE0 then 0xA0 else 0x80,
                upper := if b = 0xED then 0x9F else 0xBF })
  else if 0xF0 ≤ b ∧ b ≤ 0xF4 then
    ([], some { codePoint := b % 0x8, needed := 3, lower := if b = 0xF0 then 0x90 else 0x80,
                upper := if b = 0xF4 then 0x8F else 0xBF })
  else ([replacement], none)

/-- One byte. One that does not continue the character ends it, and is then a
first byte itself. -/
def feed (state : Option Pending) (b : ℕ) : List ℕ × Option Pending :=
  match state with
  | none => start b
  | some p =>
    if p.lower ≤ b ∧ b ≤ p.upper then
      let codePoint := p.codePoint * 0x40 + b % 0x40
      if p.needed = 1 then ([codePoint], none)
      else ([], some { codePoint := codePoint, needed := p.needed - 1 })
    else (replacement :: (start b).1, (start b).2)

def decodeFrom : Option Pending → Bytes → List ℕ
  | none, [] => []
  | some _, [] => [replacement]
  | state, b :: bs => (feed state b.toNat).1 ++ decodeFrom (feed state b.toNat).2 bs

/-- A byte order mark in front is dropped. -/
def dropMark : List ℕ → List ℕ
  | [] => []
  | n :: ns => if n = byteOrderMark then ns else n :: ns

def decode (bytes : Bytes) : JsString := (dropMark (decodeFrom none bytes)).flatMap units

/-- The scalar values: the code points that are no surrogates. -/
def IsScalar (n : ℕ) : Prop := n < 0xD800 ∨ 0xE000 ≤ n ∧ n < 0x110000

lemma toNat_byte {n : ℕ} (h : n < 0x100) : (UInt8.ofNat n).toNat = n := by
  simp [UInt8.toNat_ofNat', Nat.mod_eq_of_lt h]

lemma decodeFrom_scalarBytes {n : ℕ} (hn : IsScalar n) (rest : Bytes) :
    decodeFrom none (scalarBytes n ++ rest) = n :: decodeFrom none rest := by
  unfold IsScalar at hn
  unfold scalarBytes
  split
  · next h =>
    have h0 : (UInt8.ofNat n).toNat = n := toNat_byte (by omega)
    simp [decodeFrom, feed, start, h0, h]
  · split
    · next h h' =>
      have h0 := toNat_byte (n := 0xC0 + n / 0x40) (by omega)
      have h1 := toNat_byte (n := 0x80 + n % 0x40) (by omega)
      have hs : start (0xC0 + n / 0x40) = ([], some { codePoint := n / 0x40, needed := 1 }) := by
        rw [start, if_neg (by omega), if_pos (by omega)]
        simp only [Prod.mk.injEq, Option.some.injEq, Pending.mk.injEq, true_and, and_true]
        omega
      simp only [cons_append, nil_append, decodeFrom, h0, h1, feed, hs]
      rw [if_pos (by omega)]
      simp only [if_true, cons_append, nil_append, List.cons.injEq, and_true]
      omega
    · split
      · next h h' h'' =>
        have h0 := toNat_byte (n := 0xE0 + n / 0x1000) (by omega)
        have h1 := toNat_byte (n := 0x80 + n / 0x40 % 0x40) (by omega)
        have h2 := toNat_byte (n := 0x80 + n % 0x40) (by omega)
        have hs : start (0xE0 + n / 0x1000) =
            ([], some { codePoint := n / 0x1000, needed := 2,
                        lower := if 0xE0 + n / 0x1000 = 0xE0 then 0xA0 else 0x80,
                        upper := if 0xE0 + n / 0x1000 = 0xED then 0x9F else 0xBF }) := by
          rw [start, if_neg (by omega), if_neg (by omega), if_pos (by omega)]
          simp only [Prod.mk.injEq, Option.some.injEq, Pending.mk.injEq, true_and, and_true]
          omega
        simp only [cons_append, nil_append, decodeFrom, h0, h1, h2, feed, hs]
        rw [if_pos (by split <;> split <;> omega)]
        simp only [if_neg (by decide : ¬ (2 = 1)), nil_append]
        rw [if_pos (by omega)]
        simp only [if_true, cons_append, nil_append, List.cons.injEq, and_true]
        omega
      · next h h' h'' =>
        have h0 := toNat_byte (n := 0xF0 + n / 0x40000) (by omega)
        have h1 := toNat_byte (n := 0x80 + n / 0x1000 % 0x40) (by omega)
        have h2 := toNat_byte (n := 0x80 + n / 0x40 % 0x40) (by omega)
        have h3 := toNat_byte (n := 0x80 + n % 0x40) (by omega)
        have hs : start (0xF0 + n / 0x40000) =
            ([], some { codePoint := n / 0x40000, needed := 3,
                        lower := if 0xF0 + n / 0x40000 = 0xF0 then 0x90 else 0x80,
                        upper := if 0xF0 + n / 0x40000 = 0xF4 then 0x8F else 0xBF }) := by
          rw [start, if_neg (by omega), if_neg (by omega), if_neg (by omega), if_pos (by omega)]
          simp only [Prod.mk.injEq, Option.some.injEq, Pending.mk.injEq, true_and, and_true]
          omega
        simp only [cons_append, nil_append, decodeFrom, h0, h1, h2, h3, feed, hs]
        rw [if_pos (by split <;> split <;> omega)]
        simp only [if_neg (by decide : ¬ (3 = 1)), nil_append]
        rw [if_pos (by omega)]
        simp only [if_neg (by decide : ¬ (3 - 1 = 1)), nil_append]
        rw [if_pos (by omega)]
        simp only [if_true, cons_append, nil_append, List.cons.injEq, and_true]
        omega

lemma decodeFrom_flatMap {ns : List ℕ} (hns : ∀ n ∈ ns, IsScalar n) :
    decodeFrom none (ns.flatMap scalarBytes) = ns := by
  induction ns with
  | nil => rfl
  | cons n ns ih =>
    rw [flatMap_cons, decodeFrom_scalarBytes (hns n mem_cons_self),
      ih fun m hm => hns m (mem_cons_of_mem _ hm)]

/-- Every surrogate is one of a pair: the string is a sequence of scalar values. -/
def paired : JsString → Bool
  | [] => true
  | [u] => !isLead u && !isTrail u
  | u :: v :: rest =>
    if isLead u then isTrail v && paired rest
    else !isTrail u && paired (v :: rest)

/-- The string less a byte order mark in front. -/
def stripMark : JsString → JsString
  | [] => []
  | u :: rest => if u = 0xFEFF then rest else u :: rest

lemma isLead_iff (u : UInt16) :
    isLead u = true ↔ 0xD800 ≤ u.toNat ∧ u.toNat < 0xDC00 := by
  simp [isLead, le_iff_toNat_le, lt_iff_toNat_lt]

lemma isTrail_iff (u : UInt16) :
    isTrail u = true ↔ 0xDC00 ≤ u.toNat ∧ u.toNat < 0xE000 := by
  simp [isTrail, le_iff_toNat_le, lt_iff_toNat_lt]

lemma isScalar_unit {u : UInt16} (hlead : isLead u = false)
    (htrail : isTrail u = false) : IsScalar u.toNat := by
  have hlead' := (isLead_iff u).not.1 (by simp [hlead])
  have htrail' := (isTrail_iff u).not.1 (by simp [htrail])
  have hlt : u.toNat < 0x10000 := u.toNat_lt
  unfold IsScalar
  omega

lemma isScalar_pair {u v : UInt16} (hu : isLead u = true)
    (hv : isTrail v = true) : IsScalar (pairValue u v) := by
  rw [isLead_iff] at hu
  rw [isTrail_iff] at hv
  unfold IsScalar pairValue
  omega

variable {s : JsString}

lemma isScalar_of_mem_scalars : ∀ n ∈ scalars s, IsScalar n := by
  have hreplacement : IsScalar replacement := by unfold IsScalar replacement; omega
  induction s using scalars.induct with
  | case1 => simp [scalars]
  | case2 u =>
    intro n hn
    simp only [scalars, mem_singleton] at hn
    split at hn
    · exact hn ▸ hreplacement
    · next hu =>
      rw [Bool.or_eq_true, not_or, Bool.not_eq_true, Bool.not_eq_true] at hu
      exact hn ▸ isScalar_unit hu.1 hu.2
  | case3 u v rest hu hv ih =>
    rw [scalars, if_pos hu, if_pos hv, forall_mem_cons]
    exact ⟨isScalar_pair hu hv, ih⟩
  | case4 u v rest hu hv ih =>
    rw [scalars, if_pos hu, if_neg hv, forall_mem_cons]
    exact ⟨hreplacement, ih⟩
  | case5 u v rest hu hu' ih =>
    rw [scalars, if_neg hu, if_pos hu', forall_mem_cons]
    exact ⟨hreplacement, ih⟩
  | case6 u v rest hu hu' ih =>
    rw [scalars, if_neg hu, if_neg hu', forall_mem_cons]
    exact ⟨isScalar_unit (by simpa using hu) (by simpa using hu'), ih⟩

lemma units_toNat (u : UInt16) : units u.toNat = [u] := by
  rw [units, if_pos u.toNat_lt, UInt16.ofNat_toNat]

lemma units_pairValue {u v : UInt16} (hu : isLead u = true)
    (hv : isTrail v = true) : units (pairValue u v) = [u, v] := by
  rw [isLead_iff] at hu
  rw [isTrail_iff] at hv
  have hlead : 0xD800 + (pairValue u v - 0x10000) / 0x400 = u.toNat := by
    unfold pairValue
    omega
  have htrail : 0xDC00 + (pairValue u v - 0x10000) % 0x400 = v.toNat := by
    unfold pairValue
    omega
  rw [units, if_neg (by unfold pairValue; omega), hlead, htrail, UInt16.ofNat_toNat,
    UInt16.ofNat_toNat]

lemma units_scalars (h : paired s = true) : (scalars s).flatMap units = s := by
  induction s using scalars.induct with
  | case1 => rfl
  | case2 u =>
    rw [paired, Bool.and_eq_true, Bool.not_eq_true', Bool.not_eq_true'] at h
    simp [scalars, h.1, h.2, units_toNat]
  | case3 u v rest hu hv ih =>
    rw [paired, if_pos hu, Bool.and_eq_true] at h
    rw [scalars, if_pos hu, if_pos hv, flatMap_cons, units_pairValue hu hv, ih h.2]
    rfl
  | case4 u v rest hu hv ih =>
    rw [paired, if_pos hu, Bool.and_eq_true] at h
    exact absurd h.1 hv
  | case5 u v rest hu hu' ih =>
    simp [paired, hu, hu'] at h
  | case6 u v rest hu hu' ih =>
    rw [paired, if_neg hu, Bool.and_eq_true] at h
    rw [scalars, if_neg hu, if_neg hu', flatMap_cons, units_toNat, ih h.2]
    rfl

lemma dropMark_scalars (h : paired s = true) :
    (dropMark (scalars s)).flatMap units = stripMark s := by
  have hunits := units_scalars h
  have hmark : ∀ u : UInt16, u.toNat = byteOrderMark ↔ u = 0xFEFF := fun u =>
    UInt16.toNat_inj (b := 0xFEFF)
  match s with
  | [] => rfl
  | [u] =>
    rw [paired, Bool.and_eq_true, Bool.not_eq_true', Bool.not_eq_true'] at h
    have hscalars : scalars [u] = [u.toNat] := by simp [scalars, h.1, h.2]
    rw [hscalars, dropMark, stripMark]
    by_cases hu : u = 0xFEFF
    · rw [if_pos ((hmark u).2 hu), if_pos hu]
      rfl
    · rw [if_neg ((hmark u).not.2 hu), if_neg hu]
      simp [units_toNat]
  | u :: v :: rest =>
    by_cases hlead : isLead u = true
    · rw [paired, if_pos hlead, Bool.and_eq_true] at h
      have hrange := (isLead_iff u).1 hlead
      rw [scalars, if_pos hlead, if_pos h.1, dropMark,
        if_neg (by unfold pairValue byteOrderMark; omega), stripMark, if_neg]
      · rw [scalars, if_pos hlead, if_pos h.1] at hunits
        exact hunits
      · rintro rfl
        revert hrange
        decide
    · rw [paired, if_neg hlead, Bool.and_eq_true, Bool.not_eq_true'] at h
      have hscalars : scalars (u :: v :: rest) = u.toNat :: scalars (v :: rest) := by
        rw [scalars, if_neg hlead, if_neg (by simp [h.1])]
      rw [hscalars, flatMap_cons, units_toNat] at hunits
      have hrest : (scalars (v :: rest)).flatMap units = v :: rest := by
        simpa using hunits
      rw [hscalars, dropMark, stripMark]
      by_cases hu : u = 0xFEFF
      · rw [if_pos ((hmark u).2 hu), if_pos hu, hrest]
      · rw [if_neg ((hmark u).not.2 hu), if_neg hu, flatMap_cons, units_toNat, hrest]
        rfl

lemma decode_encode (h : paired s = true) : decode (encode s) = stripMark s := by
  rw [decode, encode, decodeFrom_flatMap isScalar_of_mem_scalars, dropMark_scalars h]

lemma scalars_eq_of_encode_eq {t : JsString} (h : encode s = encode t) :
    scalars s = scalars t := by
  have hs : decodeFrom none (encode s) = scalars s := decodeFrom_flatMap isScalar_of_mem_scalars
  rw [← hs, h]
  exact decodeFrom_flatMap isScalar_of_mem_scalars

lemma eq_of_encode_eq {t : JsString} (hs : paired s = true) (ht : paired t = true)
    (h : encode s = encode t) : s = t := by
  rw [← units_scalars hs, scalars_eq_of_encode_eq h, units_scalars ht]

lemma paired_append {a b : JsString} (ha : paired a = true) (hb : paired b = true) :
    paired (a ++ b) = true := by
  induction a using paired.induct with
  | case1 => exact hb
  | case2 u =>
    rw [paired, Bool.and_eq_true, Bool.not_eq_true', Bool.not_eq_true'] at ha
    cases b with
    | nil => simp [paired, ha.1, ha.2]
    | cons v rest => simp [paired, ha.1, ha.2, hb]
  | case3 u v rest hu ih =>
    rw [paired, if_pos hu, Bool.and_eq_true] at ha
    simp [paired, hu, ha.1, ih ha.2]
  | case4 u v rest hu ih =>
    rw [paired, if_neg hu, Bool.and_eq_true] at ha
    have hrest := ih ha.2
    rw [cons_append, cons_append, paired, if_neg hu, Bool.and_eq_true]
    exact ⟨ha.1, hrest⟩

end Utf8
