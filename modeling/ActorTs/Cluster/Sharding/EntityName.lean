import ActorTs.Cluster.Sharding.Shard
import Mathlib

/-!
# Names of entity actors

An id is written into the name of its actor letter by letter, and a letter that a name does not
take as it is becomes `~` and four digits. No literal is a `~`, so the letters can be read back
one after the other.
-/

open List

namespace ActorTs.Cluster.Sharding

lemma hexDigit_inj : ∀ m < 16, ∀ n < 16, hexDigit m = hexDigit n → m = n := by decide

lemma hexOf_injective : Function.Injective hexOf := by
  intro c d h
  have hc : c.toNat < 65536 := c.toNat_lt
  have hd : d.toNat < 65536 := d.toNat_lt
  simp only [hexOf, cons.injEq, and_true] at h
  obtain ⟨h₃, h₂, h₁, h₀⟩ := h
  have h₃ := hexDigit_inj _ (by omega) _ (by omega) h₃
  have h₂ := hexDigit_inj _ (by omega) _ (by omega) h₂
  have h₁ := hexDigit_inj _ (by omega) _ (by omega) h₁
  have h₀ := hexDigit_inj _ (by omega) _ (by omega) h₀
  exact UInt16.toNat_inj.1 (by omega)

/-- What one letter of an id becomes. -/
def nameOf (c : UInt16) : JsString := if isNameLiteral c then [c] else "~" ++ hexOf c

lemma nameOf_append_inj {c d : UInt16} {x y : JsString} (h : nameOf c ++ x = nameOf d ++ y) :
    c = d ∧ x = y := by
  have htilde : ∀ {c}, isNameLiteral c = true → c ≠ 0x7E := by
    rintro _ hc rfl
    exact absurd hc (by decide)
  unfold nameOf at h
  split at h <;> split at h
  · exact cons.inj h
  · next hc _ => exact absurd (cons.inj h).1 (htilde hc)
  · next _ hd => exact absurd (cons.inj h).1.symm (htilde hd)
  · obtain ⟨hhex, hrest⟩ := append_inj (cons.inj h).2 rfl
    exact ⟨hexOf_injective hhex, hrest⟩

lemma nameOf_ne_nil (c : UInt16) : nameOf c ≠ [] := by
  unfold nameOf
  split <;> exact nofun

lemma flatMap_nameOf_injective : Function.Injective fun id : JsString => id.flatMap nameOf := by
  intro a
  induction a with
  | nil =>
    rintro (_ | ⟨d, b⟩) h
    · rfl
    · exact absurd (append_eq_nil_iff.1 h.symm).1 (nameOf_ne_nil d)
  | cons c a ih =>
    rintro (_ | ⟨d, b⟩) h
    · exact absurd (append_eq_nil_iff.1 h).1 (nameOf_ne_nil c)
    · obtain ⟨rfl, hrest⟩ := nameOf_append_inj h
      rw [ih hrest]

/-! ### Names an actor admits -/

def hasControlCharacter (name : JsString) : Bool :=
  name.any fun code => decide (code < 0x20) || decide (code = 0x7F)

/-- `assertValidName` below a parent, and `assertUserAssignableName`: what a spawn admits. -/
def isAdmittedName (name : JsString) : Bool :=
  !name.isEmpty && !name.contains 0x2F && !name.contains 0x5C && name ∉ [".".toJs, "..".toJs] &&
    !hasControlCharacter name && name.head? ≠ some 0x24

lemma toNat_of_isNameLiteral {c : UInt16} (h : isNameLiteral c = true) :
    0x2B ≤ c.toNat ∧ c.toNat ≤ 0x7A ∧ c.toNat ≠ 0x2F ∧ c.toNat ≠ 0x5C := by
  have hmem : ("_-.@:+".toJs.all fun c => decide
      (0x2B ≤ c.toNat ∧ c.toNat ≤ 0x7A ∧ c.toNat ≠ 0x2F ∧ c.toNat ≠ 0x5C)) = true := by decide
  simp only [isNameLiteral, Bool.decide_or, Bool.or_eq_true, decide_eq_true_eq,
    UInt16.le_iff_toNat_le, UInt16.reduceToNat] at h
  rcases h with h | h | h | h
  · omega
  · omega
  · omega
  · exact of_decide_eq_true (all_eq_true.1 hmem c h)

/-- A letter that neither separates the segments of a path nor controls anything. -/
def IsPlain (c : UInt16) : Prop := 0x20 ≤ c.toNat ∧ c.toNat < 0x7F ∧ c ≠ 0x2F ∧ c ≠ 0x5C

lemma plain_entityName (entityId : JsString) : ∀ c ∈ entityName entityId, IsPlain c := by
  have hfixed : ("entity-".toJs.all fun c => decide
      (0x20 ≤ c.toNat ∧ c.toNat < 0x7F ∧ c ≠ 0x2F ∧ c ≠ 0x5C)) = true := by decide
  have hescape : ∀ n < 16, IsPlain 0x7E ∧ IsPlain (hexDigit n) := by unfold IsPlain; decide
  intro c hc
  rw [entityName, mem_append, mem_flatMap] at hc
  obtain hc | ⟨d, -, hc⟩ := hc
  · have hplain := of_decide_eq_true (all_eq_true.1 hfixed c hc)
    exact hplain
  have hd : d.toNat < 65536 := d.toNat_lt
  split at hc
  · next hliteral =>
    obtain rfl := mem_singleton.1 hc
    obtain ⟨hlow, hhigh, hslash, hback⟩ := toNat_of_isNameLiteral hliteral
    exact ⟨by omega, by omega, mt (congrArg _) hslash, mt (congrArg _) hback⟩
  · obtain rfl | hc := mem_cons.1 hc
    · exact (hescape 0 (by omega)).1
    · change c ∈ hexOf d at hc
      simp only [hexOf, mem_cons, not_mem_nil, or_false] at hc
      obtain rfl | rfl | rfl | rfl := hc <;> exact (hescape _ (by omega)).2

/-- Two ids never share a name, and every id has a name that a spawn admits. -/
theorem entityName_injective :
    Function.Injective entityName ∧ ∀ entityId, isAdmittedName (entityName entityId) = true := by
  refine ⟨fun a b h => flatMap_nameOf_injective (append_cancel_left h), fun entityId => ?_⟩
  have hplain := plain_entityName entityId
  have hnot : ∀ c, ¬ IsPlain c → (entityName entityId).contains c = false := fun c hc => by
    rw [← Bool.not_eq_true, contains_iff_mem]
    exact fun hmem => hc (hplain c hmem)
  have hcontrol : hasControlCharacter (entityName entityId) = false := by
    rw [hasControlCharacter, any_eq_false]
    intro c hc
    obtain ⟨hlow, hhigh, -, -⟩ := hplain c hc
    rw [Bool.or_eq_true, decide_eq_true_iff, decide_eq_true_iff, UInt16.lt_iff_toNat_lt]
    rintro (hlt | rfl)
    · exact absurd hlt (not_lt.2 hlow)
    · exact absurd hhigh (by decide)
  have hlength : 7 ≤ (entityName entityId).length := by
    rw [entityName, length_append]
    exact Nat.le_add_right 7 _
  have hdots : entityName entityId ∉ [".".toJs, "..".toJs] := fun hmem => by
    obtain h | h := (mem_cons.1 hmem).imp_right mem_singleton.1 <;> rw [h] at hlength <;>
      exact absurd hlength (by decide)
  rw [isAdmittedName, hnot 0x2F fun h => h.2.2.1 rfl, hnot 0x5C fun h => h.2.2.2 rfl, hcontrol,
    decide_eq_true hdots]
  rfl

end ActorTs.Cluster.Sharding
