import Mathlib.Data.List.Lex

/-!
# Strings of UTF-16 code units

A `JsString` is any sequence of code units, with its surrogates paired or not.
Strings are compared code unit by code unit, which is the lexicographic order
on lists.
-/

abbrev JsString := List UInt16

instance instLinearOrderCodeUnit : LinearOrder UInt16 where
  le_refl := UInt16.le_refl
  le_trans _ _ _ := UInt16.le_trans
  le_antisymm _ _ := UInt16.le_antisymm
  le_total := UInt16.le_total
  lt_iff_le_not_ge a b := by
    simp only [UInt16.lt_iff_toNat_lt, UInt16.le_iff_toNat_le]
    omega
  toDecidableLE := inferInstance
  toDecidableEq := inferInstance
  toDecidableLT := inferInstance

instance lawfulBEqJsString : LawfulBEq JsString := inferInstance

/-- The one or two code units of a Unicode scalar value. -/
def Char.toJs (c : Char) : JsString :=
  if c.toNat < 0x10000 then [UInt16.ofNat c.toNat]
  else [UInt16.ofNat (0xD800 + (c.toNat - 0x10000) / 0x400),
    UInt16.ofNat (0xDC00 + (c.toNat - 0x10000) % 0x400)]

def String.toJs (s : String) : JsString := s.toList.flatMap Char.toJs

instance : Coe String JsString := ⟨String.toJs⟩
